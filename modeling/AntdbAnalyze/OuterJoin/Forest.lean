import AntdbAnalyze.OuterJoin.Algebra

/-!
# The forest of marker edges

Each `(+)` conjunct `tl.x = tr.y(+)` draws an edge from its preserving table `l` to its
marked table `r`. This module builds, from a list of edges, the FROM items the rewrite
makes and the reference FROM list the edges mean, and proves they return the same rows.

Both are folds of one step over the edges, `joinItems`: the item holding `r` is joined to
the item holding `l`, unless one item already holds both. The rewrite joins it to the whole
item (`rewriteForest`: shapes whose ON clauses `JoinNode.withOn` fills in from the marked
table of each join); the reference puts it under `l` (`outerJoinForest`, by
`JoinNode.attachAt`).

- `ForestInv`: what the rewrite's items keep along the fold when each marked table has one
  preserving table and every edge goes down a depth: each edge lies inside one item, a
  table no edge has reached is the first table of its item, and an edge crosses a join only
  from its preserved side to the first table of its nullable side (`JoinNode.Separates`);
- `JoinNode.AppendsOn.withOn`: the fuse branch of `pullup_rel_for_join`, for a conjunct over
  the two tables of an edge, ANDs it into the ON of the join of the edge's marked table;
- **`crossRows_rewriteForest`**: the rewrite's items, their ON clauses filled in, return the rows
  of the reference items, item by item, up to order.
-/

namespace AntdbAnalyze

/-! ## Shapes and their ON clauses -/

/-- The marked tables of a tree's joins: the first table of each join's nullable side. -/
def JoinNode.keys : JoinNode → List Nat
  | .joinExpr _ larg rarg _ _ => larg.keys ++ rarg.keys ++ [rarg.root]
  | _ => []

/-- `node` with the ON of each join set to `joinOn` of the join's marked table. -/
def JoinNode.withOn (joinOn : Nat → Expr) : JoinNode → JoinNode
  | .joinExpr jointype larg rarg _ rtindex =>
    .joinExpr jointype (larg.withOn joinOn) (rarg.withOn joinOn) (some (joinOn rarg.root)) rtindex
  | node => node

/-- A tree of LEFT JOINs over `RangeTblRef`s. -/
def JoinNode.isLeftTree : JoinNode → Bool
  | .rangeTblRef _ => true
  | .joinExpr .left larg rarg _ _ => larg.isLeftTree && rarg.isLeftTree
  | _ => false

namespace JoinNode

variable {joinOn joinOn' : Nat → Expr}

@[simp] theorem leaves_withOn (joinOn : Nat → Expr) : ∀ node : JoinNode,
    (node.withOn joinOn).leaves = node.leaves
  | .joinExpr _ larg rarg _ _ => by
    simp [JoinNode.withOn, JoinNode.leaves, larg.leaves_withOn joinOn, rarg.leaves_withOn joinOn]
  | .rangeTblRef _ | .fromExpr _ _ => rfl

@[simp] theorem root_withOn (joinOn : Nat → Expr) : ∀ node : JoinNode,
    (node.withOn joinOn).root = node.root
  | .joinExpr _ larg _ _ _ => larg.root_withOn joinOn
  | .rangeTblRef _ | .fromExpr _ _ => rfl

@[simp] theorem isLeftTree_withOn (joinOn : Nat → Expr) : ∀ node : JoinNode,
    (node.withOn joinOn).isLeftTree = node.isLeftTree
  | .joinExpr jointype larg rarg _ _ => by
    cases jointype <;>
      simp [JoinNode.withOn, JoinNode.isLeftTree, larg.isLeftTree_withOn joinOn,
        rarg.isLeftTree_withOn joinOn]
  | .rangeTblRef _ | .fromExpr _ _ => rfl

/-- Two fillings that agree on the marked tables of a tree fill it alike. -/
theorem withOn_congr : ∀ {node : JoinNode}, (∀ r ∈ node.keys, joinOn r = joinOn' r) →
    node.withOn joinOn = node.withOn joinOn'
  | .joinExpr _ larg rarg _ _, h => by
    simp only [JoinNode.keys, List.mem_append, List.mem_singleton] at h
    simp only [JoinNode.withOn, withOn_congr fun r hr => h r (.inl (.inl hr)),
      withOn_congr fun r hr => h r (.inl (.inr hr)), h _ (.inr rfl)]
  | .rangeTblRef _, _ | .fromExpr _ _, _ => rfl

theorem isJoinTree_of_isLeftTree : ∀ {node : JoinNode}, node.isLeftTree → node.isJoinTree
  | .rangeTblRef _, _ => rfl
  | .joinExpr .left larg rarg _ _, h => by
    simp only [JoinNode.isLeftTree, Bool.and_eq_true] at h
    simp [JoinNode.isJoinTree, isJoinTree_of_isLeftTree h.1, isJoinTree_of_isLeftTree h.2]
  | .joinExpr .inner _ _ _ _, h | .joinExpr .right _ _ _ _, h | .joinExpr .full _ _ _ _, h
  | .fromExpr _ _, h => by simp [JoinNode.isLeftTree] at h

theorem root_mem_leaves : ∀ {node : JoinNode}, node.isJoinTree → node.root ∈ node.leaves
  | .rangeTblRef _, _ => List.mem_singleton_self _
  | .joinExpr _ larg _ _ _, h => by
    simp only [JoinNode.isJoinTree, Bool.and_eq_true] at h
    exact List.mem_append_left _ (root_mem_leaves h.1)
  | .fromExpr _ _, h => by simp [JoinNode.isJoinTree] at h

theorem mem_leaves_of_mem_keys : ∀ {node : JoinNode}, node.isJoinTree → ∀ r ∈ node.keys,
    r ∈ node.leaves
  | .joinExpr _ larg rarg _ _, h, r, hr => by
    simp only [JoinNode.isJoinTree, Bool.and_eq_true] at h
    simp only [JoinNode.keys, List.mem_append, List.mem_singleton] at hr
    rcases hr with (hr | hr) | rfl
    · exact List.mem_append_left _ (mem_leaves_of_mem_keys h.1 r hr)
    · exact List.mem_append_right _ (mem_leaves_of_mem_keys h.2 r hr)
    · exact List.mem_append_right _ (root_mem_leaves h.2)
  | .rangeTblRef _, _, _, hr | .fromExpr _ _, _, _, hr => by simp [JoinNode.keys] at hr

/-- With distinct tables, the first table of a tree marks none of its joins. -/
theorem root_not_mem_keys : ∀ {node : JoinNode}, node.isJoinTree → node.leaves.Nodup →
    node.root ∉ node.keys
  | .joinExpr _ larg rarg _ _, h, hnd => by
    simp only [JoinNode.isJoinTree, Bool.and_eq_true] at h
    rw [JoinNode.leaves, List.nodup_append] at hnd
    have hroot := root_mem_leaves h.1
    simp only [JoinNode.root, JoinNode.keys, List.mem_append, List.mem_singleton, not_or]
    exact ⟨⟨root_not_mem_keys h.1 hnd.1, fun hk => hnd.2.2 hroot (mem_leaves_of_mem_keys h.2 _ hk)⟩,
      fun he => hnd.2.2 hroot (he ▸ root_mem_leaves h.2)⟩
  | .rangeTblRef _, _, _ | .fromExpr _ _, _, _ => by simp [JoinNode.keys]

/-- A tree of LEFT JOINs is one tree of outer joins, with no inner join above it. -/
theorem leftTrees_of_isLeftTree : ∀ {node : JoinNode}, node.isLeftTree →
    node.leftTrees = [node] ∧ node.innerQuals = []
  | .rangeTblRef _, _ | .joinExpr .left _ _ _ _, _ => ⟨rfl, rfl⟩
  | .joinExpr .inner _ _ _ _, h | .joinExpr .right _ _ _ _, h | .joinExpr .full _ _ _ _, h
  | .fromExpr _ _, h => by simp [JoinNode.isLeftTree] at h

end JoinNode

@[simp] theorem leavesList_map_withOn (joinOn : Nat → Expr) (items : List JoinNode) :
    leavesList (items.map (JoinNode.withOn joinOn)) = leavesList items := by
  simp [leavesList_eq_flatMap, List.flatMap_map]

/-! ## The fuse branch on a filled shape -/

/-- Every edge `E l r` whose tables a join of `node` separates goes from the join's
preserved side to the first table of its nullable side. -/
def JoinNode.Separates (E : Nat → Nat → Prop) : JoinNode → Prop
  | .joinExpr _ larg rarg _ _ =>
    larg.Separates E ∧ rarg.Separates E ∧
      ∀ l r, E l r → (l ∈ larg.leaves ∧ r ∈ rarg.leaves ∨ r ∈ larg.leaves ∧ l ∈ rarg.leaves) →
        l ∈ larg.leaves ∧ r = rarg.root
  | _ => True

/-- The fuse branch ANDs a conjunct only into a tree holding both its tables. -/
theorem JoinNode.AppendsOn.mem_leaves {jinfo : JoinExprInfo} {node node' : JoinNode}
    (h : node.AppendsOn jinfo node') :
    jinfo.lrtindex ∈ node.leaves ∧ jinfo.rrtindex ∈ node.leaves := by
  induction h with
  | here hsides =>
    simp only [JoinNode.leaves, List.mem_append]
    rcases hsides with ⟨hl, hr⟩ | ⟨hr, hl⟩ <;> simp [hl, hr]
  | left _ ih => simp [JoinNode.leaves, ih.1, ih.2]
  | right _ ih => simp [JoinNode.leaves, ih.1, ih.2]

/-- **The fuse lands on the edge's join.** In a shape with distinct tables whose joins the
edges cross only as `Separates` allows, the fuse branch of `pullup_rel_for_join`, given a
conjunct over the two tables of an edge `E l r`, ANDs it into the ON of the join marked
`r`, and nowhere else. -/
theorem JoinNode.AppendsOn.withOn {E : Nat → Nat → Prop} {jinfo : JoinExprInfo} {l r : Nat}
    (hE : E l r) (hpair : jinfo.lrtindex = l ∧ jinfo.rrtindex = r ∨
      jinfo.lrtindex = r ∧ jinfo.rrtindex = l) {joinOn : Nat → Expr} :
    ∀ {node : JoinNode}, node.isJoinTree → node.leaves.Nodup → node.Separates E →
      ∀ {node' : JoinNode}, (node.withOn joinOn).AppendsOn jinfo node' →
        r ∈ node.keys ∧
          node' = node.withOn (Function.update joinOn r (appendJoinQual (some (joinOn r)) jinfo.expr))
  | .rangeTblRef _, _, _, _, _, h => by cases h
  | .joinExpr jointype larg rarg quals rtindex, hjt, hnd, hsep, node', h => by
    simp only [JoinNode.isJoinTree, Bool.and_eq_true] at hjt
    have hnd' := hnd
    rw [JoinNode.leaves, List.nodup_append] at hnd'
    have hkeysA := JoinNode.mem_leaves_of_mem_keys hjt.1
    have hkeysB := JoinNode.mem_leaves_of_mem_keys hjt.2
    have hrootB := JoinNode.root_mem_leaves hjt.2
    -- a table off a side leaves that side's filling alone
    have hoffA : r ∉ larg.leaves → larg.withOn (Function.update joinOn r
        (appendJoinQual (some (joinOn r)) jinfo.expr)) = larg.withOn joinOn := fun hr =>
      JoinNode.withOn_congr fun k hk =>
        Function.update_noteq (fun (he : k = r) => hr (he ▸ hkeysA k hk)) _ _
    have hoffB : r ∉ rarg.keys → rarg.withOn (Function.update joinOn r
        (appendJoinQual (some (joinOn r)) jinfo.expr)) = rarg.withOn joinOn := fun hr =>
      JoinNode.withOn_congr fun k hk => Function.update_noteq (fun (he : k = r) => hr (he ▸ hk)) _ _
    rw [JoinNode.withOn] at h
    cases h with
    | here hsides =>
      simp only [JoinNode.leaves_withOn] at hsides
      obtain ⟨hlA, rfl⟩ := hsep.2.2 l r hE (by
        rcases hpair with ⟨hl, hr⟩ | ⟨hl, hr⟩ <;> rw [hl, hr] at hsides
        · exact hsides
        · exact hsides.symm)
      refine ⟨by simp [JoinNode.keys], ?_⟩
      rw [JoinNode.withOn, hoffA fun hr => hnd'.2.2 hr hrootB,
        hoffB (JoinNode.root_not_mem_keys hjt.2 hnd'.2.1), Function.update_same]
    | left happ =>
      obtain ⟨hr, rfl⟩ := JoinNode.AppendsOn.withOn hE hpair hjt.1 hnd'.1 hsep.1 happ
      refine ⟨by simp [JoinNode.keys, hr], ?_⟩
      have hrB : r ∉ rarg.leaves := fun h => hnd'.2.2 (hkeysA r hr) h
      rw [JoinNode.withOn, hoffB fun hk => hrB (hkeysB r hk),
        Function.update_noteq fun (he : rarg.root = r) => hrB (he ▸ hrootB)]
    | right happ =>
      obtain ⟨hr, rfl⟩ := JoinNode.AppendsOn.withOn hE hpair hjt.2 hnd'.2.1 hsep.2.1 happ
      refine ⟨by simp [JoinNode.keys, hr], ?_⟩
      rw [JoinNode.withOn, hoffA fun h => hnd'.2.2 h (hkeysB r hr),
        Function.update_noteq fun (he : rarg.root = r) =>
          JoinNode.root_not_mem_keys hjt.2 hnd'.2.1 (he ▸ hr)]
  | .fromExpr _ _, hjt, _, _, _, _ => by simp [JoinNode.isJoinTree] at hjt

/-- Fewer edges, no more crossings. -/
theorem JoinNode.Separates.mono {E E' : Nat → Nat → Prop} :
    ∀ {node : JoinNode}, (∀ l r, E' l r → l ∈ node.leaves → r ∈ node.leaves → E l r) →
      node.Separates E → node.Separates E'
  | .joinExpr jointype larg rarg quals rtindex, hE, h => by
    have hsub : ∀ i, i ∈ larg.leaves ∨ i ∈ rarg.leaves →
        i ∈ (JoinNode.joinExpr jointype larg rarg quals rtindex).leaves := fun i hi => by
      simpa [JoinNode.leaves, or_comm] using hi
    refine ⟨mono (fun l r h' hl hr => hE l r h' (hsub l (.inl hl)) (hsub r (.inl hr))) h.1,
      mono (fun l r h' hl hr => hE l r h' (hsub l (.inr hl)) (hsub r (.inr hr))) h.2.1,
      fun l r h' hside => h.2.2 l r (hE l r h' ?_ ?_) hside⟩
    · rcases hside with ⟨hl, -⟩ | ⟨-, hl⟩
      exacts [hsub l (.inl hl), hsub l (.inr hl)]
    · rcases hside with ⟨-, hr⟩ | ⟨hr, -⟩
      exacts [hsub r (.inr hr), hsub r (.inl hr)]
  | .rangeTblRef _, _, _ | .fromExpr _ _, _, _ => trivial

/-! ## One edge over a list of items -/

/-- With distinct tables, one item holds a table. -/
theorem eq_of_mem_leaves {items : List JoinNode} (hnd : (leavesList items).Nodup)
    {I J : JoinNode} (hI : I ∈ items) (hJ : J ∈ items) {t : Nat} (htI : t ∈ I.leaves)
    (htJ : t ∈ J.leaves) : I = J := by
  induction items with
  | nil => cases hI
  | cons K rest ih =>
    rw [leavesList, List.nodup_append] at hnd
    have hrest : ∀ {N}, N ∈ rest → t ∈ N.leaves → t ∈ leavesList rest := fun hN ht => by
      simpa using ⟨_, hN, ht⟩
    rcases List.mem_cons.mp hI with hIK | hI' <;> rcases List.mem_cons.mp hJ with hJK | hJ'
    · exact hIK.trans hJK.symm
    · exact absurd (hrest hJ' htJ) (hnd.2.2 (hIK ▸ htI))
    · exact absurd (hrest hI' htI) (hnd.2.2 (hJK ▸ htJ))
    · exact ih hnd.2.1 hI' hJ'

/-- With distinct tables, each item has distinct tables. -/
theorem nodup_leaves_of_mem {items : List JoinNode} (hnd : (leavesList items).Nodup) {I : JoinNode}
    (hI : I ∈ items) : I.leaves.Nodup := by
  rw [leavesList_eq_flatMap, List.nodup_flatMap] at hnd
  exact hnd.1 I hI

/-- With distinct tables, two items set apart by a permutation have no table in common. -/
theorem disjoint_of_perm_pair {items rest : List JoinNode} {A B : JoinNode}
    (hperm : items.Perm (rest ++ [A, B])) (hnd : (leavesList items).Nodup) :
    A.leaves.Disjoint B.leaves := by
  have := (leavesList_perm hperm).nodup_iff.mp hnd
  simp only [leavesList_eq_flatMap, List.flatMap_append, List.flatMap_cons, List.flatMap_nil,
    List.append_nil] at this
  exact List.disjoint_of_nodup_append (List.nodup_append.mp this).2.1

/-- With distinct tables, the search for a table's item finds it. -/
theorem find?_mem_leaves {items : List JoinNode} (hnd : (leavesList items).Nodup) {I : JoinNode}
    (hI : I ∈ items) {t : Nat} (ht : t ∈ I.leaves) :
    items.find? (fun node => decide (t ∈ node.leaves)) = some I := by
  cases h : items.find? (fun node => decide (t ∈ node.leaves)) with
  | none => exact absurd (List.find?_eq_none.mp h I hI) (by simpa using ht)
  | some J =>
    rw [eq_of_mem_leaves hnd (List.mem_of_find?_eq_some h) hI (by simpa using List.find?_some h) ht]

/-- Items with tables and distinct tables are distinct. -/
theorem nodup_of_leaves {items : List JoinNode} (hne : ∀ I ∈ items, I.leaves ≠ [])
    (hnd : (leavesList items).Nodup) : items.Nodup := by
  induction items with
  | nil => exact .nil
  | cons K rest ih =>
    rw [List.forall_mem_cons] at hne
    rw [leavesList, List.nodup_append] at hnd
    refine List.nodup_cons.mpr ⟨fun hK => ?_, ih hne.2 hnd.2.1⟩
    obtain ⟨t, ht⟩ := List.exists_mem_of_ne_nil _ hne.1
    exact hnd.2.2 ht (by simpa using ⟨K, hK, ht⟩)

/-- The items holding neither table. -/
def itemsApart (items : List JoinNode) (l r : Nat) : List JoinNode :=
  items.filter fun node => !(decide (l ∈ node.leaves) || decide (r ∈ node.leaves))

theorem mem_itemsApart {items : List JoinNode} {l r : Nat} {I : JoinNode} :
    I ∈ itemsApart items l r ↔ I ∈ items ∧ l ∉ I.leaves ∧ r ∉ I.leaves := by
  simp [itemsApart]

/-- The items apart from the two holding the tables, and those two. -/
theorem perm_itemsApart {items : List JoinNode} (hjt : ∀ I ∈ items, I.isJoinTree)
    (hnd : (leavesList items).Nodup) {A B : JoinNode} (hA : A ∈ items) (hB : B ∈ items) {l r : Nat}
    (hl : l ∈ A.leaves) (hr : r ∈ B.leaves) (hrA : r ∉ A.leaves) :
    items.Perm (itemsApart items l r ++ [A, B]) := by
  have hitems := nodup_of_leaves (fun I hI h => by
    simpa [h] using JoinNode.root_mem_leaves (hjt I hI)) hnd
  have hAB : A ≠ B := fun h => hrA (h ▸ hr)
  have hpair : (items.filter fun node => !!(decide (l ∈ node.leaves) || decide (r ∈ node.leaves))).Perm
      [A, B] := by
    refine (List.perm_ext_iff_of_nodup (hitems.filter _)
      (List.nodup_cons.mpr ⟨by simpa using hAB, List.nodup_singleton B⟩)).mpr fun I => ?_
    simp only [List.mem_filter, Bool.not_not, Bool.or_eq_true, decide_eq_true_eq, List.mem_cons,
      List.mem_singleton, List.not_mem_nil, or_false]
    constructor
    · rintro ⟨hI, hlI | hrI⟩
      · exact .inl (eq_of_mem_leaves hnd hI hA hlI hl)
      · exact .inr (eq_of_mem_leaves hnd hI hB hrI hr)
    · rintro (rfl | rfl)
      exacts [⟨hA, .inl hl⟩, ⟨hB, .inr hr⟩]
  unfold itemsApart
  exact (List.filter_append_perm _ items).symm.trans (hpair.append_left _)

/-- One edge `(l, r)` over FROM items: the item holding `r` is joined by `combine` to the
item holding `l`, both leave the list and the join is appended, unless one item holds
both tables. -/
def joinItems (combine : JoinNode → JoinNode → JoinNode) (items : List JoinNode) (l r : Nat) :
    List JoinNode :=
  match items.find? (fun node => decide (l ∈ node.leaves)),
      items.find? (fun node => decide (r ∈ node.leaves)) with
  | some larg, some rarg =>
    if r ∈ larg.leaves then items else itemsApart items l r ++ [combine larg rarg]
  | _, _ => items

/-- An edge inside one item changes nothing. -/
theorem joinItems_of_mem {combine : JoinNode → JoinNode → JoinNode} {items : List JoinNode}
    (hnd : (leavesList items).Nodup) {A : JoinNode} (hA : A ∈ items) {l r : Nat}
    (hl : l ∈ A.leaves) (hr : r ∈ A.leaves) : joinItems combine items l r = items := by
  rw [joinItems, find?_mem_leaves hnd hA hl, find?_mem_leaves hnd hA hr]
  exact if_pos hr

/-- An edge between two items joins them. -/
theorem joinItems_of_apart {combine : JoinNode → JoinNode → JoinNode} {items : List JoinNode}
    (hnd : (leavesList items).Nodup) {A B : JoinNode} (hA : A ∈ items) (hB : B ∈ items)
    {l r : Nat} (hl : l ∈ A.leaves) (hr : r ∈ B.leaves) (hrA : r ∉ A.leaves) :
    joinItems combine items l r = itemsApart items l r ++ [combine A B] := by
  rw [joinItems, find?_mem_leaves hnd hA hl, find?_mem_leaves hnd hB hr]
  exact if_neg hrA

/-- An item after one edge was an item before, or the join of the item holding `l` with
the item holding `r`. -/
theorem mem_joinItems {combine : JoinNode → JoinNode → JoinNode} {items : List JoinNode}
    {l r : Nat} {I : JoinNode} (hI : I ∈ joinItems combine items l r) :
    I ∈ items ∨
      ∃ A ∈ items, ∃ B ∈ items, l ∈ A.leaves ∧ r ∈ B.leaves ∧ I = combine A B := by
  unfold joinItems at hI
  split at hI
  · next A B hA hB =>
    split_ifs at hI
    · exact .inl hI
    rcases List.mem_append.mp hI with hI | hI
    · exact .inl (mem_itemsApart.mp hI).1
    · refine .inr ⟨A, List.mem_of_find?_eq_some hA, B, List.mem_of_find?_eq_some hB, ?_, ?_,
        List.mem_singleton.mp hI⟩
      · simpa using List.find?_some hA
      · simpa using List.find?_some hB
  · exact .inl hI

/-- The items a list of edges makes of `items`, edge by edge. -/
def joinEdges (combine : Nat → Nat → JoinNode → JoinNode → JoinNode) :
    List JoinNode → List (Nat × Nat) → List JoinNode
  | items, [] => items
  | items, (l, r) :: edges => joinEdges combine (joinItems (combine l r) items l r) edges

theorem joinEdges_append_singleton (combine : Nat → Nat → JoinNode → JoinNode → JoinNode) :
    ∀ (items : List JoinNode) (edges : List (Nat × Nat)) (l r : Nat),
      joinEdges combine items (edges ++ [(l, r)]) =
        joinItems (combine l r) (joinEdges combine items edges) l r
  | _, [], _, _ => rfl
  | _, (_, _) :: edges, l, r => joinEdges_append_singleton combine _ edges l r

/-- The FROM items the `(+)` rewrite builds from the marker edges, as shapes: each item
holding a marked table is LEFT JOINed to the whole item holding its preserving table. -/
def rewriteForest (items : List JoinNode) (edges : List (Nat × Nat)) : List JoinNode :=
  joinEdges (fun _ _ larg rarg => .joinExpr .left larg rarg none 0) items edges

/-- The reference FROM list of the marker edges: each marked table's tree LEFT JOINed
under its preserving table `l`, on `pairOn l r`. -/
def outerJoinForest (pairOn : Nat → Nat → Expr) (items : List JoinNode)
    (edges : List (Nat × Nat)) : List JoinNode :=
  joinEdges (fun l r larg rarg => larg.attachAt l rarg (pairOn l r)) items edges

/-! ## What the rewrite's items keep -/

/-- What the rewrite's items keep while the edges `done` are processed, over the tables
`ts` ranked by `depth`. -/
structure ForestInv (ts : List Nat) (depth : Nat → Nat) (done : List (Nat × Nat))
    (items : List JoinNode) : Prop where
  leaves_perm : (leavesList items).Perm ts
  isLeftTree : ∀ I ∈ items, I.isLeftTree
  edge_mem : ∀ e ∈ done, ∃ I ∈ items, e.1 ∈ I.leaves ∧ e.2 ∈ I.leaves
  root_of_unreached : ∀ I ∈ items, ∀ t ∈ I.leaves, (∀ l, (l, t) ∉ done) → t = I.root
  depth_root : ∀ I ∈ items, ∀ t ∈ I.leaves, depth I.root ≤ depth t
  separates : ∀ I ∈ items, I.Separates fun l r => (l, r) ∈ done

section Forest

variable {ts : List Nat} {depth : Nat → Nat}

/-- Before any edge: one item per table. -/
theorem ForestInv.init (ts : List Nat) (depth : Nat → Nat) :
    ForestInv ts depth [] (ts.map .rangeTblRef) where
  leaves_perm := by
    rw [leavesList_eq_flatMap, List.flatMap_map]
    exact .of_eq (List.flatMap_singleton' ts)
  isLeftTree I hI := by
    obtain ⟨_, -, rfl⟩ := List.mem_map.mp hI
    rfl
  edge_mem _ h := absurd h (List.not_mem_nil _)
  root_of_unreached I hI t ht _ := by
    obtain ⟨_, -, rfl⟩ := List.mem_map.mp hI
    simpa only [JoinNode.leaves, List.mem_singleton] using ht
  depth_root I hI t ht := by
    obtain ⟨_, -, rfl⟩ := List.mem_map.mp hI
    simp only [JoinNode.leaves, List.mem_singleton] at ht
    rw [ht, JoinNode.root]
  separates I hI := by
    obtain ⟨_, -, rfl⟩ := List.mem_map.mp hI
    trivial

variable {done : List (Nat × Nat)} {items : List JoinNode}

theorem ForestInv.nodup (hinv : ForestInv ts depth done items) (hts : ts.Nodup) :
    (leavesList items).Nodup :=
  hinv.leaves_perm.nodup_iff.mpr hts

theorem ForestInv.isJoinTree (hinv : ForestInv ts depth done items) :
    ∀ I ∈ items, I.isJoinTree :=
  fun I hI => JoinNode.isJoinTree_of_isLeftTree (hinv.isLeftTree I hI)

/-- A table of `ts` lies in an item. -/
theorem ForestInv.exists_mem (hinv : ForestInv ts depth done items) {t : Nat} (ht : t ∈ ts) :
    ∃ I ∈ items, t ∈ I.leaves := by
  simpa using hinv.leaves_perm.mem_iff.mpr ht

/-- The rewrite's items are distinct. -/
theorem ForestInv.items_nodup (hinv : ForestInv ts depth done items) (hts : ts.Nodup) :
    items.Nodup :=
  nodup_of_leaves (fun I hI h => by
    simpa [h] using JoinNode.root_mem_leaves (hinv.isJoinTree I hI)) (hinv.nodup hts)

/-- A table marking a join of an item was reached by an edge. -/
theorem ForestInv.reached_of_mem_keys (hinv : ForestInv ts depth done items) (hts : ts.Nodup)
    {I : JoinNode} (hI : I ∈ items) {r : Nat} (hr : r ∈ I.keys) : ∃ l, (l, r) ∈ done := by
  by_contra hun
  push_neg at hun
  have hnd : I.leaves.Nodup := by
    have := hinv.nodup hts
    rw [leavesList_eq_flatMap, List.nodup_flatMap] at this
    exact this.1 I hI
  have hroot := hinv.root_of_unreached I hI r
    (JoinNode.mem_leaves_of_mem_keys (hinv.isJoinTree I hI) r hr) hun
  exact JoinNode.root_not_mem_keys (hinv.isJoinTree I hI) hnd (hroot ▸ hr)

/-- A table of an item marks no join of another. -/
theorem ForestInv.not_mem_keys_of_ne (hinv : ForestInv ts depth done items) (hts : ts.Nodup)
    {I K : JoinNode} (hI : I ∈ items) (hK : K ∈ items) (hne : K ≠ I) {r : Nat}
    (hr : r ∈ I.leaves) : r ∉ K.keys := fun hk =>
  hne (eq_of_mem_leaves (hinv.nodup hts) hK hI
    (JoinNode.mem_leaves_of_mem_keys (hinv.isJoinTree K hK) r hk) hr)

/-- An edge whose tables lie in one item was processed already. -/
theorem ForestInv.mem_done_of_mem (hinv : ForestInv ts depth done items) {l r : Nat}
    (hdepth : depth l < depth r) (hparent : ∀ l', (l', r) ∈ done → l' = l) {A : JoinNode}
    (hA : A ∈ items) (hl : l ∈ A.leaves) (hr : r ∈ A.leaves) : (l, r) ∈ done := by
  by_contra hnew
  have hroot := hinv.root_of_unreached A hA r hr fun l' h => hnew (hparent l' h ▸ h)
  have := hinv.depth_root A hA l hl
  rw [← hroot] at this
  omega

/-- An edge between two items is new, and its marked table is the first of its item. -/
theorem ForestInv.unreached_of_apart (hinv : ForestInv ts depth done items) (hts : ts.Nodup)
    {l r : Nat} (hparent : ∀ l', (l', r) ∈ done → l' = l) {A B : JoinNode} (hA : A ∈ items)
    (hB : B ∈ items) (hl : l ∈ A.leaves) (hr : r ∈ B.leaves) (hrA : r ∉ A.leaves) :
    (∀ l', (l', r) ∉ done) ∧ r = B.root := by
  have hunreached : ∀ l', (l', r) ∉ done := fun l' h => by
    obtain ⟨I, hI, hlI, hrI⟩ := hinv.edge_mem _ h
    rw [hparent l' h] at hlI
    exact hrA (eq_of_mem_leaves (hinv.nodup hts) hI hA hlI hl ▸ hrI)
  exact ⟨hunreached, hinv.root_of_unreached B hB r hr hunreached⟩

/-- **Step lemma**: one edge keeps the invariant. -/
theorem ForestInv.joinItems (hinv : ForestInv ts depth done items) (hts : ts.Nodup) {l r : Nat}
    (hl : l ∈ ts) (hr : r ∈ ts) (hdepth : depth l < depth r)
    (hparent : ∀ l', (l', r) ∈ done → l' = l) :
    ForestInv ts depth (done ++ [(l, r)])
      (joinItems (fun larg rarg => .joinExpr .left larg rarg none 0) items l r) := by
  have hnd := hinv.nodup hts
  obtain ⟨A, hA, hlA⟩ := hinv.exists_mem hl
  obtain ⟨B, hB, hrB⟩ := hinv.exists_mem hr
  have hdone : ∀ {l' r'}, (l', r') ∈ done ++ [(l, r)] ↔ (l', r') ∈ done ∨ (l' = l ∧ r' = r) := by
    simp
  by_cases hrA : r ∈ A.leaves
  · -- one item holds both tables: the edge was processed, nothing changes
    have hmem := hinv.mem_done_of_mem hdepth hparent hA hlA hrA
    have hsame : ∀ {l' r'}, (l', r') ∈ done ++ [(l, r)] ↔ (l', r') ∈ done := fun {l' r'} => by
      rw [hdone]
      exact ⟨fun h => h.elim id fun ⟨h₁, h₂⟩ => h₁ ▸ h₂ ▸ hmem, .inl⟩
    rw [joinItems_of_mem hnd hA hlA hrA]
    exact ⟨hinv.leaves_perm, hinv.isLeftTree, fun e he => hinv.edge_mem e (hsame.mp he),
      fun I hI t ht hun => hinv.root_of_unreached I hI t ht fun l' h => hun l' (hsame.mpr h),
      hinv.depth_root, fun I hI => (hinv.separates I hI).mono fun _ _ h _ _ => hsame.mp h⟩
  -- two items: they are joined
  have hAB : A ≠ B := fun h => hrA (h ▸ hrB)
  obtain ⟨hunreached, hroot⟩ := hinv.unreached_of_apart hts hparent hA hB hlA hrB hrA
  have hperm := perm_itemsApart hinv.isJoinTree hnd hA hB hlA hrB hrA
  have hlB : l ∉ B.leaves := fun h => hAB (eq_of_mem_leaves hnd hA hB hlA h)
  -- an item is one apart, or one of the two
  have hcases : ∀ I ∈ items, I ∈ itemsApart items l r ∨ I = A ∨ I = B := fun I hI => by
    simpa using hperm.mem_iff.mp hI
  have hdisj : A.leaves.Disjoint B.leaves := fun t htA htB => hAB (eq_of_mem_leaves hnd hA hB htA htB)
  rw [joinItems_of_apart hnd hA hB hlA hrB hrA]
  have hnew : ∀ I ∈ itemsApart items l r ++ [.joinExpr .left A B none 0],
      I ∈ itemsApart items l r ∨ I = .joinExpr .left A B none 0 := by simp
  refine ⟨?_, fun I hI => ?_, fun e he => ?_, fun I hI t ht hun => ?_, fun I hI t ht => ?_,
    fun I hI => ?_⟩
  · exact (List.Perm.of_eq (by simp [JoinNode.leaves])).trans
      ((leavesList_perm hperm).symm.trans hinv.leaves_perm)
  · rcases hnew I hI with hI | rfl
    · exact hinv.isLeftTree I (mem_itemsApart.mp hI).1
    · simp [JoinNode.isLeftTree, hinv.isLeftTree A hA, hinv.isLeftTree B hB]
  · rcases hdone.mp he with he | ⟨he₁, he₂⟩
    · obtain ⟨I, hI, h₁, h₂⟩ := hinv.edge_mem e he
      rcases hcases I hI with hI' | rfl | rfl
      · exact ⟨I, by simp [hI'], h₁, h₂⟩
      all_goals exact ⟨_, List.mem_append_right _ (List.mem_singleton_self _),
        by simp [JoinNode.leaves, h₁], by simp [JoinNode.leaves, h₂]⟩
    · exact ⟨_, List.mem_append_right _ (List.mem_singleton_self _),
        by simp [JoinNode.leaves, he₁, hlA], by simp [JoinNode.leaves, he₂, hrB]⟩
  · have hun' : ∀ l', (l', t) ∉ done := fun l' h => hun l' (List.mem_append_left _ h)
    rcases hnew I hI with hI | rfl
    · exact hinv.root_of_unreached I (mem_itemsApart.mp hI).1 t ht hun'
    rw [JoinNode.leaves, List.mem_append] at ht
    rcases ht with ht | ht
    · exact hinv.root_of_unreached A hA t ht hun'
    · have := hinv.root_of_unreached B hB t ht hun'
      exact absurd (List.mem_append_right _ (List.mem_singleton.mpr (by rw [this, ← hroot])))
        (hun l)
  · rcases hnew I hI with hI | rfl
    · exact hinv.depth_root I (mem_itemsApart.mp hI).1 t ht
    rw [JoinNode.leaves, List.mem_append] at ht
    have hlroot := hinv.depth_root A hA l hlA
    rcases ht with ht | ht
    · exact hinv.depth_root A hA t ht
    · have hB' := hinv.depth_root B hB t ht
      rw [← hroot] at hB'
      show depth A.root ≤ depth t
      omega
  · rcases hnew I hI with hI | rfl
    · obtain ⟨hI, hlI, -⟩ := mem_itemsApart.mp hI
      exact (hinv.separates I hI).mono fun l' r' h hl' _ =>
        (hdone.mp h).resolve_right fun ⟨h₁, _⟩ => hlI (h₁ ▸ hl')
    refine ⟨(hinv.separates A hA).mono fun l' r' h _ hr' =>
        (hdone.mp h).resolve_right fun ⟨_, h₂⟩ => hrA (h₂ ▸ hr'),
      (hinv.separates B hB).mono fun l' r' h hl' _ =>
        (hdone.mp h).resolve_right fun ⟨h₁, _⟩ => hlB (h₁ ▸ hl'),
      fun l' r' h hside => ?_⟩
    rcases hdone.mp h with h | ⟨rfl, rfl⟩
    · -- an edge processed before lies inside one item, so it crosses no new join
      obtain ⟨I, hI, h₁, h₂⟩ := hinv.edge_mem _ h
      rcases hside with ⟨hl', hr'⟩ | ⟨hr', hl'⟩
      · exact absurd ((eq_of_mem_leaves hnd hI hA h₁ hl').symm.trans
          (eq_of_mem_leaves hnd hI hB h₂ hr')) hAB
      · exact absurd ((eq_of_mem_leaves hnd hI hA h₂ hr').symm.trans
          (eq_of_mem_leaves hnd hI hB h₁ hl')) hAB
    · exact ⟨hlA, hroot⟩

/-- **Run lemma**: the invariant holds after every edge. -/
theorem ForestInv.run (hts : ts.Nodup) : ∀ (edges : List (Nat × Nat)) {done : List (Nat × Nat)}
    {items : List JoinNode}, ForestInv ts depth done items →
    (∀ e ∈ edges, e.1 ∈ ts ∧ e.2 ∈ ts ∧ depth e.1 < depth e.2) →
    (∀ l l' r, (l, r) ∈ done ++ edges → (l', r) ∈ done ++ edges → l = l') →
    ForestInv ts depth (done ++ edges) (rewriteForest items edges)
  | [], _, _, hinv, _, _ => by simpa [rewriteForest, joinEdges] using hinv
  | (l, r) :: edges, done, items, hinv, hedges, hparent => by
    rw [List.forall_mem_cons] at hedges
    have hstep := hinv.joinItems hts hedges.1.1 hedges.1.2.1 hedges.1.2.2 fun l' h =>
      hparent l' l r (List.mem_append_left _ h) (by simp)
    simpa using ForestInv.run hts edges hstep hedges.2
      (by simpa only [List.append_assoc, List.singleton_append] using hparent)

/-- The invariant over the rewrite's items of a list of edges. -/
theorem forestInv_rewriteForest (hts : ts.Nodup) {edges : List (Nat × Nat)}
    (hedges : ∀ e ∈ edges, e.1 ∈ ts ∧ e.2 ∈ ts ∧ depth e.1 < depth e.2)
    (hparent : ∀ l l' r, (l, r) ∈ edges → (l', r) ∈ edges → l = l') :
    ForestInv ts depth edges (rewriteForest (ts.map .rangeTblRef) edges) := by
  simpa using ForestInv.run hts edges (ForestInv.init ts depth) hedges
    (by simpa only [List.nil_append] using hparent)

/-- Tables of one item of the rewrite are linked by a chain of edges, followed either
way. -/
theorem eqvGen_of_mem_rewriteForest {E : Nat → Nat → Prop} : ∀ (edges : List (Nat × Nat))
    {items : List JoinNode}, (∀ e ∈ edges, E e.1 e.2) →
    (∀ I ∈ items, ∀ a ∈ I.leaves, ∀ b ∈ I.leaves, Relation.EqvGen E a b) →
    ∀ I ∈ rewriteForest items edges, ∀ a ∈ I.leaves, ∀ b ∈ I.leaves, Relation.EqvGen E a b
  | [], _, _, h => h
  | (l, r) :: edges, items, hE, h => by
    rw [List.forall_mem_cons] at hE
    refine eqvGen_of_mem_rewriteForest edges hE.2 fun I hI a ha b hb => ?_
    rcases mem_joinItems hI with hI | ⟨A, hA, B, hB, hl, hr, rfl⟩
    · exact h I hI a ha b hb
    have hlr : Relation.EqvGen E l r := .rel _ _ hE.1
    simp only [JoinNode.leaves, List.mem_append] at ha hb
    rcases ha with ha | ha <;> rcases hb with hb | hb
    · exact h A hA a ha b hb
    · exact ((h A hA a ha l hl).trans _ _ _ hlr).trans _ _ _ (h B hB r hr b hb)
    · exact (((h A hA b hb l hl).trans _ _ _ hlr).trans _ _ _ (h B hB r hr a ha)).symm _ _
    · exact h B hB a ha b hb

end Forest

/-! ## The rewrite's items against the reference -/

/-- Two related lists filtered alike stay related. -/
theorem forall₂_filter {α β : Type} {R : α → β → Prop} {p : α → Bool} {q : β → Bool}
    (hpq : ∀ a b, R a b → p a = q b) :
    ∀ {l : List α} {l' : List β}, List.Forall₂ R l l' → List.Forall₂ R (l.filter p) (l'.filter q)
  | [], [], .nil => .nil
  | a :: _, b :: _, .cons hab h => by
    rw [List.filter_cons, List.filter_cons, hpq a b hab]
    split
    · exact .cons hab (forall₂_filter hpq h)
    · exact forall₂_filter hpq h

/-- An element of a list has its partner in a related list. -/
theorem exists_of_forall₂_of_mem {α β : Type} {R : α → β → Prop} :
    ∀ {l : List α} {l' : List β}, List.Forall₂ R l l' → ∀ {a}, a ∈ l → ∃ b ∈ l', R a b
  | _, _, .nil, _, ha => by cases ha
  | _, _, .cons hab h, _, ha => by
    rcases List.mem_cons.mp ha with rfl | ha
    · exact ⟨_, List.mem_cons_self _ _, hab⟩
    · obtain ⟨b, hb, hab'⟩ := exists_of_forall₂_of_mem h ha
      exact ⟨b, List.mem_cons_of_mem _ hb, hab'⟩

/-- Two distinct items of a list with distinct tables have distinct tables together. -/
theorem nodup_leaves_append {items : List JoinNode} (hnd : (leavesList items).Nodup)
    {A B : JoinNode} (hA : A ∈ items) (hB : B ∈ items) {t : Nat} (htB : t ∈ B.leaves)
    (htA : t ∉ A.leaves) : (A.leaves ++ B.leaves).Nodup := by
  rw [leavesList_eq_flatMap, List.nodup_flatMap] at hnd
  exact List.nodup_append.mpr ⟨hnd.1 A hA, hnd.1 B hB, fun i hiA hiB =>
    htA (eq_of_mem_leaves (leavesList_eq_flatMap items ▸ List.nodup_flatMap.mpr hnd) hA hB hiA hiB
      ▸ htB)⟩

/-- An ON clause enters the rows only through whether it holds. -/
theorem joinRows_congr_quals {sem : ExprSem} {jointype : JoinType} {L R : List Row}
    {quals quals' : Option Expr} (h : ∀ row, qualHolds sem 0 quals row = qualHolds sem 0 quals' row) :
    joinRows sem jointype L R quals = joinRows sem jointype L R quals' := by
  have : qualHolds sem 0 quals = qualHolds sem 0 quals' := funext h
  simp only [joinRows, this]

/-- Fillings whose ON clauses hold on the same rows give the same rows. -/
theorem JoinNode.eval_withOn_congr (sem : ExprSem) (db : Database) {joinOn joinOn' : Nat → Expr} :
    ∀ {node : JoinNode}, (∀ r ∈ node.keys, ∀ row,
      (joinOn r).holds sem row 0 = (joinOn' r).holds sem row 0) →
      (node.withOn joinOn).eval sem db = (node.withOn joinOn').eval sem db
  | .joinExpr _ larg rarg _ _, h => by
    simp only [JoinNode.keys, List.mem_append, List.mem_singleton] at h
    simp only [JoinNode.withOn, JoinNode.eval,
      eval_withOn_congr sem db fun r hr => h r (.inl (.inl hr)),
      eval_withOn_congr sem db fun r hr => h r (.inl (.inr hr))]
    exact joinRows_congr_quals fun row => by simp [qualHolds, h _ (.inr rfl) row]
  | .rangeTblRef _, _ | .fromExpr _ _, _ => rfl

/-- An item of the rewrite, its ON clauses filled by `joinOn`, against an item of the
reference: the same tables and first table, the reference's rows up to order, and a
reference tree of LEFT JOINs. -/
def ForestSim (sem : ExprSem) (db : Database) (joinOn : Nat → Expr) (I J : JoinNode) : Prop :=
  I.leaves.Perm J.leaves ∧ I.root = J.root ∧
    ((I.withOn joinOn).eval sem db).Perm (J.eval sem db) ∧ J.LeftReads sem

/-- Related lists of items have the same tables. -/
theorem leavesList_perm_of_forall₂ {sem : ExprSem} {db : Database} {joinOn : Nat → Expr} :
    ∀ {items items' : List JoinNode}, List.Forall₂ (ForestSim sem db joinOn) items items' →
      (leavesList items).Perm (leavesList items')
  | _, _, .nil => .nil
  | _, _, .cons hIJ h => hIJ.1.append (leavesList_perm_of_forall₂ h)

section Sim

variable {ts : List Nat} {depth : Nat → Nat} {sem : ExprSem} {db : Database}
  {joinOn : Nat → Expr} {pairOn : Nat → Nat → Expr}

/-- **Step lemma** of the simulation: one edge keeps the items related, the rewrite's join
of two items against the reference's join under the preserving table. -/
theorem ForestSim.joinItems {done : List (Nat × Nat)} {items items' : List JoinNode}
    (hinv : ForestInv ts depth done items) (hts : ts.Nodup)
    (h : List.Forall₂ (ForestSim sem db joinOn) items items') {l r : Nat} (hl : l ∈ ts)
    (hr : r ∈ ts) (hparent : ∀ l', (l', r) ∈ done → l' = l) (hon : joinOn r = pairOn l r)
    (hreads : QualReads sem (some (pairOn l r)) [l, r])
    (hstrict : QualStrict sem (some (pairOn l r)) l) :
    List.Forall₂ (ForestSim sem db joinOn)
      (joinItems (fun larg rarg => .joinExpr .left larg rarg none 0) items l r)
      (joinItems (fun larg rarg => larg.attachAt l rarg (pairOn l r)) items' l r) := by
  have hnd := hinv.nodup hts
  have hnd' := (leavesList_perm_of_forall₂ h).nodup_iff.mp hnd
  obtain ⟨A, hA, hlA⟩ := hinv.exists_mem hl
  obtain ⟨B, hB, hrB⟩ := hinv.exists_mem hr
  obtain ⟨A', hA', hAA'⟩ := exists_of_forall₂_of_mem h hA
  obtain ⟨B', hB', hBB'⟩ := exists_of_forall₂_of_mem h hB
  have hlA' := hAA'.1.mem_iff.mp hlA
  have hrB' := hBB'.1.mem_iff.mp hrB
  by_cases hrA : r ∈ A.leaves
  · rw [joinItems_of_mem hnd hA hlA hrA, joinItems_of_mem hnd' hA' hlA' (hAA'.1.mem_iff.mp hrA)]
    exact h
  have hrA' : r ∉ A'.leaves := fun h' => hrA (hAA'.1.mem_iff.mpr h')
  rw [joinItems_of_apart hnd hA hB hlA hrB hrA, joinItems_of_apart hnd' hA' hB' hlA' hrB' hrA']
  refine List.rel_append (forall₂_filter (fun I J hIJ => by simp [hIJ.1.mem_iff]) h) (.cons ?_ .nil)
  obtain ⟨-, hroot⟩ := hinv.unreached_of_apart hts hparent hA hB hlA hrB hrA
  have hm : QualReads sem (some (pairOn l r)) (l :: B'.leaves) := hreads.mono fun i hi => by
    rcases List.mem_cons.mp hi with rfl | hi
    · exact List.mem_cons_self _ _
    · exact List.mem_cons_of_mem _ (List.mem_singleton.mp hi ▸ hrB')
  refine ⟨(hAA'.1.append hBB'.1).trans (JoinNode.leaves_attachAt l B' _ A').symm,
    hAA'.2.1.trans (JoinNode.root_attachAt l B' _ A').symm, ?_,
    JoinNode.LeftReads.attachAt hBB'.2.2.2 hm hAA'.2.2.2 hlA'⟩
  show (joinRows sem .left ((A.withOn joinOn).eval sem db) ((B.withOn joinOn).eval sem db)
    (some (joinOn B.root))).Perm _
  rw [← hroot, hon]
  exact (joinRows_left_perm hAA'.2.2.1 hBB'.2.2.1).trans (JoinNode.eval_attachAt sem db hm hstrict
    hAA'.2.2.2 (nodup_leaves_append hnd' hA' hB' hrB' hrA') hlA')

/-- **Run lemma** of the simulation. -/
theorem ForestSim.run (hts : ts.Nodup) : ∀ (edges : List (Nat × Nat)) {done : List (Nat × Nat)}
    {items items' : List JoinNode}, ForestInv ts depth done items →
    List.Forall₂ (ForestSim sem db joinOn) items items' →
    (∀ e ∈ edges, e.1 ∈ ts ∧ e.2 ∈ ts ∧ depth e.1 < depth e.2) →
    (∀ l l' r, (l, r) ∈ done ++ edges → (l', r) ∈ done ++ edges → l = l') →
    (∀ e ∈ edges, joinOn e.2 = pairOn e.1 e.2 ∧ QualReads sem (some (pairOn e.1 e.2)) [e.1, e.2] ∧
      QualStrict sem (some (pairOn e.1 e.2)) e.1) →
    List.Forall₂ (ForestSim sem db joinOn) (rewriteForest items edges)
      (outerJoinForest pairOn items' edges)
  | [], _, _, _, _, h, _, _, _ => h
  | (l, r) :: edges, done, items, items', hinv, h, hedges, hparent, hon => by
    rw [List.forall_mem_cons] at hedges hon
    have hparent' : ∀ l', (l', r) ∈ done → l' = l := fun l' h' =>
      hparent l' l r (List.mem_append_left _ h') (by simp)
    exact ForestSim.run hts edges (hinv.joinItems hts hedges.1.1 hedges.1.2.1 hedges.1.2.2 hparent')
      (ForestSim.joinItems hinv hts h hedges.1.1 hedges.1.2.1 hparent' hon.1.1 hon.1.2.1 hon.1.2.2)
      hedges.2 (by simpa only [List.append_assoc, List.singleton_append] using hparent) hon.2

end Sim

/-- **The rewrite's forest and the reference forest return the same rows.** Let every edge
`(l, r)` join two distinct tables of `ts`, go down a depth, and be the only edge into `r`;
let `pairOn l r` read only `l` and `r` and be strict in `l`. Then the rewrite's items, each
join marked `r` given the ON `pairOn l r`, and the reference items have the same cross
product, up to order. -/
theorem crossRows_rewriteForest (sem : ExprSem) (db : Database) {ts : List Nat} (hts : ts.Nodup)
    {depth : Nat → Nat} {edges : List (Nat × Nat)}
    (hedges : ∀ e ∈ edges, e.1 ∈ ts ∧ e.2 ∈ ts ∧ depth e.1 < depth e.2)
    (hparent : ∀ l l' r, (l, r) ∈ edges → (l', r) ∈ edges → l = l')
    {joinOn : Nat → Expr} {pairOn : Nat → Nat → Expr}
    (hon : ∀ e ∈ edges, joinOn e.2 = pairOn e.1 e.2 ∧
      QualReads sem (some (pairOn e.1 e.2)) [e.1, e.2] ∧ QualStrict sem (some (pairOn e.1 e.2)) e.1) :
    (crossRows sem db ((rewriteForest (ts.map .rangeTblRef) edges).map (JoinNode.withOn joinOn))).Perm
      (crossRows sem db (outerJoinForest pairOn (ts.map .rangeTblRef) edges)) := by
  have hinit : List.Forall₂ (ForestSim sem db joinOn) (ts.map .rangeTblRef) (ts.map .rangeTblRef) :=
    List.forall₂_same.mpr fun I hI => by
      obtain ⟨t, -, rfl⟩ := List.mem_map.mp hI
      exact ⟨.refl _, rfl, .refl _, trivial⟩
  have hsim := ForestSim.run hts edges (ForestInv.init ts depth) hinit hedges
    (by simpa only [List.nil_append] using hparent) hon
  refine crossRows_perm_of_forall₂ sem db ?_
  rw [List.forall₂_map_left_iff]
  exact hsim.imp fun _ _ h => h.2.2.1

end AntdbAnalyze
