import AntdbAnalyze.OuterJoin.Entries

/-!
# The rows the `(+)` rewrite returns (analyze.c:3485-3669)

`transformFromAndWhere` is meant to turn Oracle outer-join markers into joins without
changing what the query returns. This module states what it returns on a FROM list of
base relations, and proves it against a reference written from the markers' meaning:

- `outerJoinRows`: the reference. Each marked table `r` is LEFT JOINed under its
  preserving table `l` (`outerJoinForest`), on `pairQual`, the AND of every conjunct over
  exactly `l` and `r`, marker or not: a conjunct without a marker over the two tables of
  a marker conjunct joins its ON, as the comment of `get_join_qual_exprs` shows
  (analyze.c:3485-3498). The trees are cross-joined and filtered by every other conjunct.
- The loop of `transformFromAndWhere` places the marker entries first (`MarkerStage`): the
  FROM items are then the rewrite's forest of the marker edges (`rewriteForest`). It places
  the other entries next (`PlainStage`): each over the two tables of a marker edge is fused
  into that edge's ON, each over two other tables joins two items by an inner join or
  lands in the ON of one, and each over at most one table stays in WHERE.
- **`transformFromAndWhere_outerJoinRows`**: the rewrite succeeds and returns the
  reference rows, up to order, on every database.

What the theorem does not cover: a conjunct without a marker over two tables that marker
edges link, but that are not the two tables of one edge, is fused by
`pull_up_rel_for_join` into the ON of the lowest outer join between them, which the
reference does not describe; a conjunct without a marker over three or more tables makes
the classification fail; and a marked table with two preserving tables leaves the
rewrite's items unrelated to any forest (`transformFromAndWhere_wraps_preserved_table`).
-/

namespace AntdbAnalyze

/-! ## The reference -/

/-- Whether a set of tables is the pair of tables of one of the marker edges. -/
def onEdge (edges : List (Nat × Nat)) (s : Finset Nat) : Bool :=
  edges.any fun e => decide (s = {e.1, e.2})

/-- The ON the reference gives the join of the marker edge `(l, r)`: the AND of the
conjuncts over exactly `l` and `r`, marker or not, markers stripped. -/
def pairQual (cs : List Expr) (l r : Nat) : Expr :=
  makeAndExpr ((cs.filter fun c => decide (oraRels c = {l, r})).map removeColumnJoinExpr)

/-- The reference rows of the FROM list `ts` of base relations and the conjuncts `cs`
along the marker edges `edges`: each marked table LEFT JOINed under its preserving table
on `pairQual`, the trees cross-joined, and the product filtered by every conjunct over
the tables of no marker edge. -/
def outerJoinRows (sem : ExprSem) (db : Database) (ts : List Nat) (cs : List Expr)
    (edges : List (Nat × Nat)) : List Row :=
  (crossRows sem db (outerJoinForest (pairQual cs) (ts.map .rangeTblRef) edges)).filter
    fun row => (cs.filter fun c => !onEdge edges (oraRels c)).all (·.holds sem row 0)

/-! ## Edges of a forest -/

/-- Two pairs of tables that are equal as sets. -/
theorem eq_or_eq_of_pair_eq {a b c d : Nat} (h : ({a, b} : Finset Nat) = {c, d}) :
    a = c ∧ b = d ∨ a = d ∧ b = c := by
  have ha : a ∈ ({c, d} : Finset Nat) := h ▸ Finset.mem_insert_self a {b}
  have hb : b ∈ ({c, d} : Finset Nat) := h ▸ Finset.mem_insert_of_mem (Finset.mem_singleton_self b)
  have hc : c ∈ ({a, b} : Finset Nat) := h.symm ▸ Finset.mem_insert_self c {d}
  have hd : d ∈ ({a, b} : Finset Nat) := h.symm ▸ Finset.mem_insert_of_mem (Finset.mem_singleton_self d)
  simp only [Finset.mem_insert, Finset.mem_singleton] at ha hb hc hd
  omega

section Edges

variable {edges : List (Nat × Nat)} {depth : Nat → Nat}

/-- Two edges of a forest over the same two tables are one edge. -/
theorem edge_eq_of_pair_eq (hdepth : ∀ e ∈ edges, depth e.1 < depth e.2) {l r l' r' : Nat}
    (h : (l, r) ∈ edges) (h' : (l', r') ∈ edges) (hpair : ({l, r} : Finset Nat) = {l', r'}) :
    l = l' ∧ r = r' := by
  have h₁ := hdepth _ h
  have h₂ := hdepth _ h'
  rcases eq_or_eq_of_pair_eq hpair with hsame | ⟨rfl, rfl⟩
  · exact hsame
  · simp only at h₁ h₂
    omega

/-- The preserving table of a marked table: that of the first edge into it. -/
def parentOf (edges : List (Nat × Nat)) (r : Nat) : Nat :=
  ((edges.find? fun e => e.2 = r).map (·.1)).getD 0

theorem parentOf_eq (hparent : ∀ l l' r, (l, r) ∈ edges → (l', r) ∈ edges → l = l') {l r : Nat}
    (h : (l, r) ∈ edges) : parentOf edges r = l := by
  cases hf : edges.find? (fun e => e.2 = r) with
  | none => exact absurd (List.find?_eq_none.mp hf _ h) (by simp)
  | some e =>
    have he : e.2 = r := by simpa using List.find?_some hf
    have hmem : (e.1, r) ∈ edges := he ▸ List.mem_of_find?_eq_some hf
    simpa [parentOf, hf] using hparent _ _ _ hmem h

end Edges

/-! ## The ON of an edge's join -/

/-- The ON of the join marked `r` holds on a row iff the entries over `l` and `r` placed
so far do. -/
def OnHolds (sem : ExprSem) (done : List JoinExprInfo) (joinOn : Nat → Expr) (l r : Nat) : Prop :=
  ∀ row, (joinOn r).holds sem row 0 =
    (done.filter fun jinfo => decide (jinfo.rels = {l, r})).all (·.expr.holds sem row 0)

section OnHolds

variable {sem : ExprSem} {done : List JoinExprInfo} {jinfo : JoinExprInfo}
  {joinOn joinOn' : Nat → Expr} {l r : Nat}

/-- An entry over other tables leaves the ON alone. -/
theorem OnHolds.snoc_of_ne (h : OnHolds sem done joinOn l r) (hrels : jinfo.rels ≠ {l, r})
    (hon : joinOn' r = joinOn r) : OnHolds sem (done ++ [jinfo]) joinOn' l r := fun row => by
  simp [h row, hon, hrels]

/-- An entry over the edge's tables, fused into its join, is ANDed into the ON. -/
theorem OnHolds.snoc_append (h : OnHolds sem done joinOn l r) (hrels : jinfo.rels = {l, r}) :
    OnHolds sem (done ++ [jinfo])
      (Function.update joinOn r (appendJoinQual (some (joinOn r)) (removeColumnJoinExpr jinfo.expr)))
      l r := fun row => by
  have := qualHolds_appendJoinQual sem 0 (some (joinOn r)) (removeColumnJoinExpr jinfo.expr) row
  simp only [qualHolds, Option.all_some] at this
  simp [this, h row, hrels]

/-- The first entry over the edge's tables becomes the ON of a new join. -/
theorem OnHolds.snoc_new (hnone : ∀ j ∈ done, j.rels ≠ {l, r}) (hrels : jinfo.rels = {l, r}) :
    OnHolds sem (done ++ [jinfo]) (Function.update joinOn r (removeColumnJoinExpr jinfo.expr)) l r :=
  fun row => by
    rw [List.filter_append, List.filter_eq_nil_iff.mpr fun j hj => by simpa using hnone j hj]
    simp [hrels]

end OnHolds

/-! ## The marker entries -/

/-- The edge a marker entry draws: from its preserving table to its marked one. -/
def JoinExprInfo.edge (jinfo : JoinExprInfo) : Nat × Nat := (jinfo.lrtindex, jinfo.rrtindex)

/-- What the loop needs of a marker entry: `JOIN_LEFT` from one table of `ts` onto another,
down a depth. -/
structure JoinExprInfo.MarkerOver (ts : List Nat) (depth : Nat → Nat) (jinfo : JoinExprInfo) :
    Prop where
  type_eq : jinfo.type = .left
  lrtindex_pos : 0 < jinfo.lrtindex
  rrtindex_pos : 0 < jinfo.rrtindex
  lrtindex_mem : jinfo.lrtindex ∈ ts
  rrtindex_mem : jinfo.rrtindex ∈ ts
  depth_lt : depth jinfo.lrtindex < depth jinfo.rrtindex

/-- A marker entry records the two tables of its edge. -/
theorem JoinExprInfo.MarkerOver.rels {ts : List Nat} {depth : Nat → Nat} {jinfo : JoinExprInfo}
    (h : jinfo.MarkerOver ts depth) : jinfo.rels = {jinfo.lrtindex, jinfo.rrtindex} := by
  obtain ⟨expr, type, l, r, loc⟩ := jinfo
  obtain ⟨htype, hl, -⟩ := h
  simp only at htype hl
  subst htype
  ext i
  simp [JoinExprInfo.rels, Finset.erase_eq_of_not_mem (Finset.not_mem_singleton.mpr hl.ne),
    or_comm]

/-- Marker entries draw edges down a depth. -/
theorem JoinExprInfo.MarkerOver.depth_edges {ts : List Nat} {depth : Nat → Nat}
    {infos : List JoinExprInfo} (h : ∀ j ∈ infos, j.MarkerOver ts depth) :
    ∀ e ∈ infos.map JoinExprInfo.edge, depth e.1 < depth e.2 := fun e he => by
  obtain ⟨j, hj, rfl⟩ := List.mem_map.mp he
  exact (h j hj).depth_lt

/-- The FROM items after the marker entries `done`: the rewrite's items of their edges,
with ON clauses `joinOn`, where the ON of the join marked `r` of each edge `(l, r)` holds
iff the entries over `l` and `r` placed so far do. -/
structure MarkerStage (sem : ExprSem) (ts : List Nat) (done : List JoinExprInfo)
    (items : List JoinNode) (joinOn : Nat → Expr) : Prop where
  items_perm : items.Perm
    ((rewriteForest (ts.map .rangeTblRef) (done.map JoinExprInfo.edge)).map (JoinNode.withOn joinOn))
  onHolds : ∀ l r, (l, r) ∈ done.map JoinExprInfo.edge → OnHolds sem done joinOn l r

section Markers

variable {sem : ExprSem} {ts : List Nat} {depth : Nat → Nat}

/-- Before any marker entry: the FROM list of base relations. -/
theorem MarkerStage.init (sem : ExprSem) (ts : List Nat) (joinOn : Nat → Expr) :
    MarkerStage sem ts [] (ts.map .rangeTblRef) joinOn :=
  ⟨.of_eq (by
    simp only [rewriteForest, List.map_nil, joinEdges, List.map_map]
    exact List.map_congr_left fun _ _ => rfl), by simp⟩

/-- The ON clauses of the other edges, after one more entry. -/
theorem onHolds_snoc_of_ne {done : List JoinExprInfo} {jinfo : JoinExprInfo}
    (hmark : ∀ j ∈ done ++ [jinfo], j.MarkerOver ts depth) {joinOn joinOn' : Nat → Expr}
    (hold : ∀ l r, (l, r) ∈ done.map JoinExprInfo.edge → OnHolds sem done joinOn l r)
    (hother : ∀ r ≠ jinfo.rrtindex, joinOn' r = joinOn r) {l r : Nat}
    (he : (l, r) ∈ (done ++ [jinfo]).map JoinExprInfo.edge) (hr : r ≠ jinfo.rrtindex) :
    OnHolds sem (done ++ [jinfo]) joinOn' l r := by
  have hdepth := JoinExprInfo.MarkerOver.depth_edges hmark
  have hj : jinfo.MarkerOver ts depth := hmark jinfo (by simp)
  have he' : (l, r) ∈ done.map JoinExprInfo.edge := by
    simp only [List.map_append, List.map_singleton, List.mem_append, List.mem_singleton] at he
    exact he.resolve_right fun h => hr (Prod.mk.inj h).2
  refine (hold l r he').snoc_of_ne (fun hrels => hr ?_) (hother r hr)
  rw [hj.rels] at hrels
  exact (edge_eq_of_pair_eq hdepth (by simp [JoinExprInfo.edge]) he hrels).2.symm

/-- **Step lemma** of the marker entries: one more is placed, into the ON of its edge's
join when its tables lie in one item, else by a LEFT JOIN of the item holding its marked
table to the item holding its preserving one. -/
theorem MarkerStage.place (hts : ts.Nodup) {done : List JoinExprInfo} {items : List JoinNode}
    {joinOn : Nat → Expr} (hinv : MarkerStage sem ts done items joinOn) {jinfo : JoinExprInfo}
    (hmark : ∀ j ∈ done ++ [jinfo], j.MarkerOver ts depth)
    (hparent : ∀ l l' r, (l, r) ∈ (done ++ [jinfo]).map JoinExprInfo.edge →
      (l', r) ∈ (done ++ [jinfo]).map JoinExprInfo.edge → l = l')
    (rest : List JoinExprInfo) :
    ∃ items' joinOn', pullupJoinQuals ⟨.fromExpr items none, []⟩ (jinfo :: rest) =
        pullupJoinQuals ⟨.fromExpr items' none, []⟩ rest ∧
      MarkerStage sem ts (done ++ [jinfo]) items' joinOn' := by
  have hj : jinfo.MarkerOver ts depth := hmark jinfo (by simp)
  have hedges : ∀ e ∈ done.map JoinExprInfo.edge, e.1 ∈ ts ∧ e.2 ∈ ts ∧ depth e.1 < depth e.2 := by
    simp only [List.mem_map, JoinExprInfo.edge]
    rintro _ ⟨j, hjd, rfl⟩
    have := hmark j (List.mem_append_left _ hjd)
    exact ⟨this.lrtindex_mem, this.rrtindex_mem, this.depth_lt⟩
  have hparent₀ : ∀ l l' r, (l, r) ∈ done.map JoinExprInfo.edge →
      (l', r) ∈ done.map JoinExprInfo.edge → l = l' := fun l l' r h h' =>
    hparent l l' r (by simp only [List.map_append]; exact List.mem_append_left _ h)
      (by simp only [List.map_append]; exact List.mem_append_left _ h')
  have hparent' : ∀ l', (l', jinfo.rrtindex) ∈ done.map JoinExprInfo.edge → l' = jinfo.lrtindex :=
    fun l' h => hparent l' _ _ (by simp only [List.map_append]; exact List.mem_append_left _ h)
      (by simp [JoinExprInfo.edge])
  have hF := forestInv_rewriteForest hts hedges hparent₀
  have hFnd := hF.nodup hts
  set F := rewriteForest (ts.map .rangeTblRef) (done.map JoinExprInfo.edge)
  have hnd : (leavesList items).Nodup :=
    (leavesList_perm hinv.items_perm).nodup_iff.mpr (by rw [leavesList_map_withOn]; exact hFnd)
  have hmem : ∀ t ∈ ts, t ∈ leavesList items := fun t ht =>
    (leavesList_perm hinv.items_perm).mem_iff.mpr (by simpa using hF.leaves_perm.mem_iff.mpr ht)
  have hitems : ∀ I ∈ items, ∃ K ∈ F, K.withOn joinOn = I := fun I hI =>
    List.mem_map.mp (hinv.items_perm.mem_iff.mp hI)
  have hleft : ∀ I ∈ items, I.isLeftTree := fun I hI => by
    obtain ⟨K, hK, rfl⟩ := hitems I hI
    simpa using hF.isLeftTree K hK
  have hne : jinfo.rrtindex ≠ jinfo.lrtindex := fun h => by
    have := hj.depth_lt
    rw [h] at this
    exact lt_irrefl _ this
  obtain ⟨items', hloop, hstep⟩ := pullupJoinQuals_place [] rest
    (fun I hI => JoinNode.isJoinTree_of_isLeftTree (hleft I hI)) (fun _ => hleft) hnd
    (hmem _ hj.lrtindex_mem) (hmem _ hj.rrtindex_mem) hne hj.lrtindex_pos.ne' hj.rrtindex_pos.ne'
  have hsnoc : done.map JoinExprInfo.edge ++ [(jinfo.lrtindex, jinfo.rrtindex)] =
      (done ++ [jinfo]).map JoinExprInfo.edge := by simp [JoinExprInfo.edge]
  cases hstep with
  | @fuse pre post item item' happ =>
    -- both tables in one item: the edge was placed before, and the conjunct joins its ON
    obtain ⟨I, hI, rfl⟩ := hitems item (by simp)
    have hlr := happ.mem_leaves
    simp only [JoinNode.leaves_withOn] at hlr
    have hdone := hF.mem_done_of_mem hj.depth_lt hparent' hI hlr.1 hlr.2
    have hInd : I.leaves.Nodup := by
      rw [leavesList_eq_flatMap, List.nodup_flatMap] at hFnd
      exact hFnd.1 I hI
    have hpair : ({ jinfo with expr := removeColumnJoinExpr jinfo.expr } : JoinExprInfo).lrtindex =
        jinfo.lrtindex ∧ ({ jinfo with expr := removeColumnJoinExpr jinfo.expr } : JoinExprInfo).rrtindex =
        jinfo.rrtindex := ⟨rfl, rfl⟩
    obtain ⟨-, rfl⟩ := JoinNode.AppendsOn.withOn (E := fun l r => (l, r) ∈ done.map JoinExprInfo.edge)
      hdone (.inl hpair) (hF.isJoinTree I hI) hInd (hF.separates I hI) happ
    refine ⟨_, Function.update joinOn jinfo.rrtindex
      (appendJoinQual (some (joinOn jinfo.rrtindex)) (removeColumnJoinExpr jinfo.expr)), hloop,
      ⟨?_, fun l r he => ?_⟩⟩
    · rw [← hsnoc, rewriteForest, joinEdges_append_singleton, ← rewriteForest,
        joinItems_of_mem hFnd hI hlr.1 hlr.2]
      exact perm_map_of_update (w := JoinNode.withOn joinOn) (hF.items_nodup hts) hI
        (fun K hK hKI => JoinNode.withOn_congr fun k hk => Function.update_noteq
          (fun (hkr : k = jinfo.rrtindex) => hF.not_mem_keys_of_ne hts hI hK hKI hlr.2 (hkr ▸ hk))
          _ _) hinv.items_perm
    · by_cases hr : r = jinfo.rrtindex
      · subst hr
        rw [hparent l jinfo.lrtindex _ he (by simp [JoinExprInfo.edge])]
        exact (hinv.onHolds _ _ hdone).snoc_append hj.rels
      · exact onHolds_snoc_of_ne hmark hinv.onHolds
          (fun r' hr' => Function.update_noteq hr' _ _) he hr
  | @join _ rest₀ larg rarg hperm hlA hrB =>
    -- the tables in two items: the item of the marked table is LEFT JOINed to the other
    obtain ⟨A, hA, rfl⟩ := hitems larg (hperm.mem_iff.mpr (by simp))
    obtain ⟨B, hB, rfl⟩ := hitems rarg (hperm.mem_iff.mpr (by simp))
    simp only [JoinNode.leaves_withOn] at hlA hrB
    have hrA : jinfo.rrtindex ∉ A.leaves := fun hrA => by
      have := (leavesList_perm hperm).nodup_iff.mp hnd
      simp only [leavesList_eq_flatMap, List.flatMap_append, List.flatMap_cons,
        List.flatMap_nil, List.append_nil, JoinNode.leaves_withOn] at this
      exact List.disjoint_of_nodup_append (List.nodup_append.mp this).2.1 hrA hrB
    obtain ⟨hunreached, hroot⟩ := hF.unreached_of_apart hts hparent' hA hB hlA hrB hrA
    have hAB := perm_itemsApart hF.isJoinTree hFnd hA hB hlA hrB hrA
    have hrest : rest₀.Perm ((itemsApart F jinfo.lrtindex jinfo.rrtindex).map (JoinNode.withOn joinOn)) :=
      (List.perm_append_right_iff _).mp (hperm.symm.trans (hinv.items_perm.trans
        (by simpa using hAB.map (JoinNode.withOn joinOn))))
    have hoff : ∀ K ∈ F, jinfo.rrtindex ∉ K.leaves →
        K.withOn (Function.update joinOn jinfo.rrtindex (removeColumnJoinExpr jinfo.expr)) =
          K.withOn joinOn := fun K hK hrK =>
      JoinNode.withOn_congr fun k hk => Function.update_noteq
        (fun (hkr : k = jinfo.rrtindex) =>
          hrK (hkr ▸ JoinNode.mem_leaves_of_mem_keys (hF.isJoinTree K hK) k hk)) _ _
    refine ⟨_, Function.update joinOn jinfo.rrtindex (removeColumnJoinExpr jinfo.expr), hloop,
      ⟨?_, fun l r he => ?_⟩⟩
    · rw [← hsnoc, rewriteForest, joinEdges_append_singleton, ← rewriteForest,
        joinItems_of_apart hFnd hA hB hlA hrB hrA, List.map_append,
        List.map_congr_left fun K hK => hoff K (mem_itemsApart.mp hK).1 (mem_itemsApart.mp hK).2.2]
      have hBroot : jinfo.rrtindex ∉ B.keys := by
        rw [hroot]
        refine JoinNode.root_not_mem_keys (hF.isJoinTree B hB) ?_
        rw [leavesList_eq_flatMap, List.nodup_flatMap] at hFnd
        exact hFnd.1 B hB
      have hnew : (JoinNode.joinExpr .left A B none 0).withOn
          (Function.update joinOn jinfo.rrtindex (removeColumnJoinExpr jinfo.expr)) =
          .joinExpr jinfo.type (A.withOn joinOn) (B.withOn joinOn)
            (some (removeColumnJoinExpr jinfo.expr)) 0 := by
        rw [JoinNode.withOn, hoff A hA hrA, JoinNode.withOn_congr fun k hk =>
          Function.update_noteq (fun (hkr : k = jinfo.rrtindex) => hBroot (hkr ▸ hk)) _ _, ← hroot,
          Function.update_same, hj.type_eq]
      rw [List.map_singleton, hnew]
      exact hrest.append_right _
    · by_cases hr : r = jinfo.rrtindex
      · subst hr
        rw [hparent l jinfo.lrtindex _ he (by simp [JoinExprInfo.edge])]
        refine OnHolds.snoc_new (fun j hjd hrels => ?_) hj.rels
        have hj' := hmark j (List.mem_append_left _ hjd)
        rw [hj'.rels] at hrels
        have hjd' : j.edge ∈ (done ++ [jinfo]).map JoinExprInfo.edge :=
          List.mem_map_of_mem _ (List.mem_append_left _ hjd)
        obtain ⟨hl', hr'⟩ := edge_eq_of_pair_eq (JoinExprInfo.MarkerOver.depth_edges hmark) hjd'
          (by simp [JoinExprInfo.edge]) hrels
        exact hunreached j.lrtindex (by
          rw [← hr']
          exact List.mem_map_of_mem JoinExprInfo.edge hjd)
      · exact onHolds_snoc_of_ne hmark hinv.onHolds
          (fun r' hr' => Function.update_noteq hr' _ _) he hr

/-- **Run lemma** of the marker entries. -/
theorem MarkerStage.run (hts : ts.Nodup) : ∀ (todo : List JoinExprInfo) {done : List JoinExprInfo}
    {items : List JoinNode} {joinOn : Nat → Expr}, MarkerStage sem ts done items joinOn →
    (∀ j ∈ done ++ todo, j.MarkerOver ts depth) →
    (∀ l l' r, (l, r) ∈ (done ++ todo).map JoinExprInfo.edge →
      (l', r) ∈ (done ++ todo).map JoinExprInfo.edge → l = l') →
    ∃ items' joinOn', pullupJoinQuals ⟨.fromExpr items none, []⟩ todo =
        .ok ⟨.fromExpr items' none, []⟩ ∧ MarkerStage sem ts (done ++ todo) items' joinOn'
  | [], _, items, joinOn, hinv, _, _ => ⟨items, joinOn, rfl, by simpa using hinv⟩
  | jinfo :: todo, done, items, joinOn, hinv, hmark, hparent => by
    have hsplit : done ++ jinfo :: todo = (done ++ [jinfo]) ++ todo := by simp
    rw [hsplit] at hmark hparent
    obtain ⟨items₁, joinOn₁, hloop, hinv₁⟩ := hinv.place hts
      (fun j hj => hmark j (List.mem_append_left _ hj))
      (fun l l' r h h' => hparent l l' r (by rw [List.map_append]; exact List.mem_append_left _ h)
        (by rw [List.map_append]; exact List.mem_append_left _ h')) todo
    rw [hloop, hsplit]
    exact MarkerStage.run hts todo hinv₁ hmark hparent

end Markers

/-! ## The entries without a marker -/

/-- What the rows theorem asks of the tables of a conjunct without a marker: tables of the
FROM list, and, when two of them are linked by a chain of marker edges, the two tables of
one edge. -/
def PlainTables (ts : List Nat) (edges : List (Nat × Nat)) (s : Finset Nat) : Prop :=
  (∀ i ∈ s, i ∈ ts) ∧
    ∀ a ∈ s, ∀ b ∈ s, a ≠ b → Relation.EqvGen (fun l r => (l, r) ∈ edges) a b → onEdge edges s

/-- An entry over at most one table is over the tables of no edge. -/
theorem JoinExprInfo.PlainOver.onEdge_of_zero {S : Finset Nat → Prop} {jinfo : JoinExprInfo}
    (h : jinfo.PlainOver S) (h0 : jinfo.lrtindex = 0 ∨ jinfo.rrtindex = 0)
    {edges : List (Nat × Nat)} (hne : ∀ e ∈ edges, e.1 ≠ e.2) : onEdge edges jinfo.rels = false := by
  obtain ⟨expr, type, l, r, loc⟩ := jinfo
  obtain ⟨htype, hwf, -⟩ := h
  simp only at htype h0
  subst htype
  rw [JoinExprInfo.wellFormed_inner] at hwf
  have hcard : (JoinExprInfo.rels ⟨expr, .inner, l, r, loc⟩).card ≤ 1 := by
    rcases h0 with rfl | rfl
    · rw [hwf.1 rfl]
      simp [JoinExprInfo.rels]
    · have hsub : ({l, 0} : Finset Nat).erase 0 ⊆ {l} := fun x hx => by
        simp only [Finset.mem_erase, Finset.mem_insert, Finset.mem_singleton] at hx ⊢
        omega
      simpa [JoinExprInfo.rels] using (Finset.card_le_card hsub).trans (Finset.card_singleton l).le
  simp only [onEdge, List.any_eq_false, decide_eq_true_eq]
  intro e he hrels
  rw [hrels, Finset.card_pair (hne e he)] at hcard
  omega

/-- An entry over two tables records them. -/
theorem JoinExprInfo.PlainOver.rels_eq_pair {S : Finset Nat → Prop} {jinfo : JoinExprInfo}
    (h : jinfo.PlainOver S) (hl : jinfo.lrtindex ≠ 0) (hr : jinfo.rrtindex ≠ 0) :
    jinfo.rels = {jinfo.lrtindex, jinfo.rrtindex} := by
  obtain ⟨expr, type, l, r, loc⟩ := jinfo
  obtain ⟨htype, -⟩ := h
  simp only at htype hl hr
  subst htype
  rw [JoinExprInfo.rels, JoinExprInfo.markedRels_inner, JoinExprInfo.plainRels_inner,
    Finset.empty_union, Finset.erase_eq_of_not_mem]
  simp [Ne.symm hl, Ne.symm hr]

/-- The qualifiers of inner joins, up to order, hold alike. -/
theorem qualsHold_perm {sem : ExprSem} {qs qs' : List (Option Expr)} (h : qs.Perm qs') :
    qualsHold sem qs = qualsHold sem qs' := by
  funext row
  rw [qualsHold, qualsHold, Bool.eq_iff_iff, List.all_eq_true, List.all_eq_true]
  exact ⟨fun H x hx => H x (h.mem_iff.mpr hx), fun H x hx => H x (h.mem_iff.mp hx)⟩

/-- A conjunct ANDed into one inner ON is ANDed into them all. -/
theorem qualsHold_appendJoinQual (sem : ExprSem) (pre post : List (Option Expr))
    (q : Option Expr) (e : Expr) (row : Row) :
    qualsHold sem (pre ++ some (appendJoinQual q e) :: post) row =
      (qualsHold sem (pre ++ q :: post) row && e.holds sem row 0) := by
  simp only [qualsHold_append, qualsHold_cons, qualHolds_appendJoinQual]
  cases qualsHold sem pre row <;> cases qualHolds sem 0 q row <;> simp [Bool.and_comm]

/-- Trees of LEFT JOINs are their own trees of outer joins. -/
theorem flatMap_leftTrees_of_isLeftTree : ∀ {items : List JoinNode},
    (∀ I ∈ items, I.isLeftTree) → items.flatMap JoinNode.leftTrees = items
  | [], _ => rfl
  | I :: items, h => by
    rw [List.forall_mem_cons] at h
    rw [List.flatMap_cons, (JoinNode.leftTrees_of_isLeftTree h.1).1,
      flatMap_leftTrees_of_isLeftTree h.2]
    rfl

/-- A tree of LEFT JOINs has no inner join. -/
theorem JoinNode.innerReads_of_isLeftTree {sem : ExprSem} :
    ∀ {node : JoinNode}, node.isLeftTree → node.InnerReads sem
  | .rangeTblRef _, _ | .joinExpr .left _ _ _ _, _ => trivial
  | .joinExpr .inner _ _ _ _, h | .joinExpr .right _ _ _ _, h | .joinExpr .full _ _ _ _, h
  | .fromExpr _ _, h => by simp [JoinNode.isLeftTree] at h

/-- The FROM items after the entries without a marker `done`, placed after the marker
entries `infosL`: items of inner joins whose trees of outer joins are the rewrite's items
`F` of the marker edges, ON clauses filled by `joinOn`; each inner join's ON reading its
inputs; the ON of each edge's join holding iff the entries over its two tables do; and the
inner ON clauses and the kept conjuncts holding iff the entries over the tables of no edge
do. -/
structure PlainStage (sem : ExprSem) (F : List JoinNode) (edges : List (Nat × Nat))
    (infosL done : List JoinExprInfo) (items : List JoinNode) (kept : List Expr)
    (joinOn : Nat → Expr) : Prop where
  leftTrees_perm : (items.flatMap JoinNode.leftTrees).Perm (F.map (JoinNode.withOn joinOn))
  isJoinTree : ∀ I ∈ items, I.isJoinTree
  innerReads : ∀ I ∈ items, I.InnerReads sem
  onHolds : ∀ l r, (l, r) ∈ edges → OnHolds sem (infosL ++ done) joinOn l r
  where_holds : ∀ row, (qualsHold sem (items.flatMap JoinNode.innerQuals) row &&
      kept.all (·.holds sem row 0)) =
    (done.filter fun jinfo => !onEdge edges jinfo.rels).all (·.expr.holds sem row 0)

section Plain

variable {sem : ExprSem} {ts : List Nat} {depth : Nat → Nat} {edges : List (Nat × Nat)}
  {infosL : List JoinExprInfo}

/-- After the marker entries, the rewrite's items start the entries without a marker. -/
theorem MarkerStage.plainStage {items : List JoinNode} {joinOn : Nat → Expr}
    (hinv : MarkerStage sem ts infosL items joinOn)
    (hleft : ∀ I ∈ rewriteForest (ts.map .rangeTblRef) (infosL.map JoinExprInfo.edge),
      I.isLeftTree) :
    PlainStage sem (rewriteForest (ts.map .rangeTblRef) (infosL.map JoinExprInfo.edge))
      (infosL.map JoinExprInfo.edge) infosL [] items [] joinOn := by
  have hitems : ∀ I ∈ items, I.isLeftTree := fun I hI => by
    obtain ⟨K, hK, rfl⟩ := List.mem_map.mp (hinv.items_perm.mem_iff.mp hI)
    simpa using hleft K hK
  have hinner : items.flatMap JoinNode.innerQuals = [] := List.flatMap_eq_nil_iff.mpr fun I hI =>
    (JoinNode.leftTrees_of_isLeftTree (hitems I hI)).2
  refine ⟨by rw [flatMap_leftTrees_of_isLeftTree hitems]; exact hinv.items_perm,
    fun I hI => JoinNode.isJoinTree_of_isLeftTree (hitems I hI),
    fun I hI => JoinNode.innerReads_of_isLeftTree (hitems I hI),
    fun l r he => by simpa using hinv.onHolds l r he, fun row => by simp [hinner]⟩

variable {F : List JoinNode} {done : List JoinExprInfo} {items : List JoinNode}
  {kept : List Expr} {joinOn : Nat → Expr}

/-- The tree of the rewrite's items holding a table of an item lies in that item. -/
theorem PlainStage.tree_mem_leftTrees (hinv : PlainStage sem F edges infosL done items kept joinOn)
    (hFnd : (leavesList F).Nodup) {X : JoinNode} (hX : X ∈ items) {K : JoinNode} (hK : K ∈ F)
    {t : Nat} (htX : t ∈ X.leaves) (htK : t ∈ K.leaves) : K.withOn joinOn ∈ X.leftTrees := by
  rw [← X.leavesList_leftTrees, leavesList_eq_flatMap, List.mem_flatMap] at htX
  obtain ⟨T, hT, htT⟩ := htX
  obtain ⟨K', hK', rfl⟩ := List.mem_map.mp
    (hinv.leftTrees_perm.mem_iff.mp (List.mem_flatMap.mpr ⟨X, hX, hT⟩))
  rw [JoinNode.leaves_withOn] at htT
  rwa [eq_of_mem_leaves hFnd hK hK' htK htT]

/-- The items' tables are those of the rewrite's items. -/
theorem PlainStage.leaves_perm (hinv : PlainStage sem F edges infosL done items kept joinOn) :
    (leavesList items).Perm (leavesList F) := by
  have h := leavesList_perm hinv.leftTrees_perm
  rw [leavesList_map_withOn] at h
  have hlt : ∀ X : JoinNode, X.leftTrees.flatMap JoinNode.leaves = X.leaves := fun X => by
    rw [← leavesList_eq_flatMap, JoinNode.leavesList_leftTrees]
  simpa only [leavesList_eq_flatMap, List.flatMap_assoc, hlt] using h

/-- **Step lemma** of the entries without a marker. An entry over at most one table stays
in WHERE. One over the two tables of a marker edge is fused into the ON of that edge's
join. One over two other tables joins the items holding them by an inner join, or is fused
into the ON of an inner join of the item holding both. -/
theorem PlainStage.place (hts : ts.Nodup) (hF : ForestInv ts depth edges F)
    (hlinked : ∀ K ∈ F, ∀ a ∈ K.leaves, ∀ b ∈ K.leaves,
      Relation.EqvGen (fun l r => (l, r) ∈ edges) a b)
    (hdepth : ∀ e ∈ edges, depth e.1 < depth e.2)
    (hparent : ∀ l l' r, (l, r) ∈ edges → (l', r) ∈ edges → l = l')
    (hinv : PlainStage sem F edges infosL done items kept joinOn) {jinfo : JoinExprInfo}
    (hj : jinfo.PlainOver (PlainTables ts edges)) (rest : List JoinExprInfo) :
    ∃ items' kept' joinOn', pullupJoinQuals ⟨.fromExpr items none, kept⟩ (jinfo :: rest) =
        pullupJoinQuals ⟨.fromExpr items' none, kept'⟩ rest ∧
      PlainStage sem F edges infosL (done ++ [jinfo]) items' kept' joinOn' := by
  have hFnd := hF.nodup hts
  have hnd : (leavesList items).Nodup := hinv.leaves_perm.nodup_iff.mpr hFnd
  have hne_edges : ∀ e ∈ edges, e.1 ≠ e.2 := fun e he h => by
    have := hdepth e he
    rw [h] at this
    exact lt_irrefl _ this
  -- an entry over the tables of no edge leaves every edge's ON alone
  have hkeep_on : onEdge edges jinfo.rels = false → ∀ l r, (l, r) ∈ edges →
      OnHolds sem (infosL ++ (done ++ [jinfo])) joinOn l r := fun hoff l r he => by
    rw [← List.append_assoc]
    refine (hinv.onHolds l r he).snoc_of_ne (fun hrels => ?_) rfl
    simp only [onEdge, List.any_eq_false, decide_eq_true_eq] at hoff
    exact hoff _ he hrels
  by_cases h0 : jinfo.lrtindex = 0 ∨ jinfo.rrtindex = 0
  · -- at most one table: kept in WHERE
    have hoff := hj.onEdge_of_zero h0 hne_edges
    refine ⟨items, kept ++ [removeColumnJoinExpr jinfo.expr], joinOn, pullupJoinQuals_keep _ rest h0,
      ⟨hinv.leftTrees_perm, hinv.isJoinTree, hinv.innerReads, hkeep_on hoff, fun row => ?_⟩⟩
    simp [List.filter_append, hoff, ← hinv.where_holds row, Bool.and_assoc]
  push_neg at h0
  have hrels := hj.rels_eq_pair h0.1 h0.2
  have hne : jinfo.rrtindex ≠ jinfo.lrtindex := by
    have hwf := hj.wellFormed
    obtain ⟨expr, type, l, r, loc⟩ := jinfo
    obtain ⟨htype⟩ := hj
    simp only at htype h0 ⊢
    subst htype
    exact ((JoinExprInfo.wellFormed_inner expr l r loc).mp hwf).2 h0.2 |>.symm
  have hmem : ∀ t ∈ jinfo.rels, t ∈ leavesList items := fun t ht =>
    hinv.leaves_perm.mem_iff.mpr (hF.leaves_perm.mem_iff.mpr (hj.rels_ok.1 t ht))
  have hl : jinfo.lrtindex ∈ jinfo.rels := by rw [hrels]; exact Finset.mem_insert_self _ _
  have hr : jinfo.rrtindex ∈ jinfo.rels := by rw [hrels]; simp
  have hreads : QualReads sem (some (removeColumnJoinExpr jinfo.expr))
      [jinfo.lrtindex, jinfo.rrtindex] := fun row row' h => by
    have hreads₀ : QualReads sem (some jinfo.expr) [jinfo.lrtindex, jinfo.rrtindex] :=
      qualReads_some fun i hi => by
        rw [← oraRels, hj.oraRels_expr, hrels] at hi
        simpa using hi
    simpa [qualHolds] using hreads₀ row row' h
  obtain ⟨items', hloop, hstep⟩ := pullupJoinQuals_place kept rest hinv.isJoinTree
    (fun h => absurd (hj.type_eq.symm.trans h) (by decide)) hnd (hmem _ hl) (hmem _ hr) hne h0.1 h0.2
  by_cases hon : onEdge edges jinfo.rels
  · -- over the two tables of an edge `(a, b)`: fused into the ON of the join marked `b`
    obtain ⟨⟨a, b⟩, hab, hpair⟩ : ∃ e ∈ edges, jinfo.rels = {e.1, e.2} := by
      simpa [onEdge] using hon
    obtain ⟨I, hI, haI, hbI⟩ := hF.edge_mem _ hab
    have hpair' : ({ jinfo with expr := removeColumnJoinExpr jinfo.expr } : JoinExprInfo).lrtindex = a ∧
        ({ jinfo with expr := removeColumnJoinExpr jinfo.expr } : JoinExprInfo).rrtindex = b ∨
        ({ jinfo with expr := removeColumnJoinExpr jinfo.expr } : JoinExprInfo).lrtindex = b ∧
        ({ jinfo with expr := removeColumnJoinExpr jinfo.expr } : JoinExprInfo).rrtindex = a :=
      eq_or_eq_of_pair_eq (hrels.symm.trans hpair)
    have hlI : jinfo.lrtindex ∈ I.leaves := by rcases hpair' with ⟨h, -⟩ | ⟨h, -⟩ <;> rwa [h]
    have hrI : jinfo.rrtindex ∈ I.leaves := by rcases hpair' with ⟨-, h⟩ | ⟨-, h⟩ <;> rwa [h]
    cases hstep with
    | @fuse pre post item item' happ =>
      have hitem : item ∈ pre ++ item :: post := by simp
      rcases happ.leftTrees_cases (nodup_leaves_of_mem hnd hitem) with
        ⟨preT, T, T', postT, h₁, h₂, hT, hq⟩ | ⟨-, hsep, -⟩
      · have hTmem : T ∈ (pre ++ item :: post).flatMap JoinNode.leftTrees :=
          List.mem_flatMap.mpr ⟨item, hitem, by rw [h₁]; simp⟩
        obtain ⟨K, hK, rfl⟩ := List.mem_map.mp (hinv.leftTrees_perm.mem_iff.mp hTmem)
        have hlK := hT.mem_leaves.1
        rw [JoinNode.leaves_withOn] at hlK
        obtain rfl := eq_of_mem_leaves hFnd hK hI hlK hlI
        obtain ⟨-, rfl⟩ := JoinNode.AppendsOn.withOn (E := fun l r => (l, r) ∈ edges) hab hpair'
          (hF.isJoinTree K hK) (nodup_leaves_of_mem hFnd hK) (hF.separates K hK) hT
        refine ⟨pre ++ item' :: post, kept, Function.update joinOn b
          (appendJoinQual (some (joinOn b)) (removeColumnJoinExpr jinfo.expr)), hloop,
          ⟨?_, ?_, ?_, fun l r he => ?_, fun row => ?_⟩⟩
        · have hold := hinv.leftTrees_perm
          simp only [List.flatMap_append, List.flatMap_cons, h₁, List.append_assoc,
            List.cons_append] at hold ⊢
          have hw : ∀ K' ∈ F, K' ≠ K → K'.withOn (Function.update joinOn b
              (appendJoinQual (some (joinOn b)) (removeColumnJoinExpr jinfo.expr))) =
              K'.withOn joinOn := fun K' hK' hne' => JoinNode.withOn_congr fun k hk =>
            Function.update_noteq
              (fun (hkr : k = b) => hF.not_mem_keys_of_ne hts hK hK' hne' hbI (hkr ▸ hk)) _ _
          have hold' : (pre.flatMap JoinNode.leftTrees ++ preT ++
              K.withOn joinOn :: (postT ++ post.flatMap JoinNode.leftTrees)).Perm
              (F.map (JoinNode.withOn joinOn)) := by simpa using hold
          simpa [h₂] using perm_map_of_update (hF.items_nodup hts) hK hw hold'
        · intro X hX
          rcases List.mem_append.mp hX with hX | hX
          · exact hinv.isJoinTree X (List.mem_append_left _ hX)
          rcases List.mem_cons.mp hX with rfl | hX
          · exact happ.isJoinTree (hinv.isJoinTree item hitem)
          · exact hinv.isJoinTree X (by simp [hX])
        · intro X hX
          rcases List.mem_append.mp hX with hX | hX
          · exact hinv.innerReads X (List.mem_append_left _ hX)
          rcases List.mem_cons.mp hX with rfl | hX
          · exact happ.innerReads hreads (hinv.innerReads item hitem)
          · exact hinv.innerReads X (by simp [hX])
        · rw [← List.append_assoc]
          by_cases hrb : r = b
          · subst hrb
            rw [hparent l a r he hab]
            exact (hinv.onHolds a r hab).snoc_append hpair
          · exact (hinv.onHolds l r he).snoc_of_ne (fun h => hrb
              (edge_eq_of_pair_eq hdepth hab he (hpair.symm.trans h)).2.symm)
              (Function.update_noteq hrb _ _)
        · have hoff : (!onEdge edges jinfo.rels) = false := by simp [hon]
          have hold := hinv.where_holds row
          simp only [List.flatMap_append, List.flatMap_cons, hq] at hold ⊢
          rw [hold, List.filter_append, List.filter_singleton, hoff]
          simp
      · exact (hsep _ (hinv.tree_mem_leftTrees hFnd hitem hI happ.mem_leaves.1 hlI)
          ⟨by rw [JoinNode.leaves_withOn]; exact hlI, by rw [JoinNode.leaves_withOn]; exact hrI⟩).elim
    | @join _ rest₀ larg rarg hperm hlA hrB =>
      have hlarg : larg ∈ items := hperm.mem_iff.mpr (by simp)
      have hT := hinv.tree_mem_leftTrees hFnd hlarg hI hlA hlI
      exact absurd hrB (disjoint_of_perm_pair hperm hnd
        (JoinNode.mem_leaves_of_mem_leftTrees hT (by rwa [JoinNode.leaves_withOn])))
  · -- over two tables of no edge: apart in the rewrite's items
    have hoff : onEdge edges jinfo.rels = false := by simpa using hon
    have hapart : ∀ K ∈ F, jinfo.lrtindex ∈ K.leaves → jinfo.rrtindex ∉ K.leaves :=
      fun K hK hlK hrK => hon (hj.rels_ok.2 _ hl _ hr hne.symm (hlinked K hK _ hlK _ hrK))
    cases hstep with
    | @fuse pre post item item' happ =>
      have hitem : item ∈ pre ++ item :: post := by simp
      rcases happ.leftTrees_cases (nodup_leaves_of_mem hnd hitem) with
        ⟨preT, T, T', postT, h₁, -, hT, -⟩ | ⟨h₁, -, preQ, q, postQ, h₂, h₃⟩
      · have hTmem : T ∈ (pre ++ item :: post).flatMap JoinNode.leftTrees :=
          List.mem_flatMap.mpr ⟨item, hitem, by rw [h₁]; simp⟩
        obtain ⟨K, hK, rfl⟩ := List.mem_map.mp (hinv.leftTrees_perm.mem_iff.mp hTmem)
        have hlr := hT.mem_leaves
        rw [JoinNode.leaves_withOn] at hlr
        exact absurd hlr.2 (hapart K hK hlr.1)
      refine ⟨pre ++ item' :: post, kept, joinOn, hloop, ⟨?_, ?_, ?_, hkeep_on hoff, fun row => ?_⟩⟩
      · have hold := hinv.leftTrees_perm
        simp only [List.flatMap_append, List.flatMap_cons, h₁] at hold ⊢
        exact hold
      · intro X hX
        rcases List.mem_append.mp hX with hX | hX
        · exact hinv.isJoinTree X (List.mem_append_left _ hX)
        rcases List.mem_cons.mp hX with rfl | hX
        · exact happ.isJoinTree (hinv.isJoinTree item hitem)
        · exact hinv.isJoinTree X (by simp [hX])
      · intro X hX
        rcases List.mem_append.mp hX with hX | hX
        · exact hinv.innerReads X (List.mem_append_left _ hX)
        rcases List.mem_cons.mp hX with rfl | hX
        · exact happ.innerReads hreads (hinv.innerReads item hitem)
        · exact hinv.innerReads X (by simp [hX])
      · have hold := hinv.where_holds row
        simp only [List.flatMap_append, List.flatMap_cons, h₂, h₃, qualsHold_append,
          qualsHold_cons, qualHolds_appendJoinQual] at hold ⊢
        rw [List.filter_append, List.all_append, ← hold]
        simp [hoff, Bool.and_assoc, Bool.and_comm, Bool.and_left_comm]
    | @join _ rest₀ larg rarg hperm hlA hrB =>
      have hsub : ∀ X ∈ rest₀ ++ [larg, rarg], X ∈ items := fun X hX => hperm.mem_iff.mpr hX
      refine ⟨_, kept, joinOn, hloop, ⟨?_, fun X hX => ?_, fun X hX => ?_, hkeep_on hoff,
        fun row => ?_⟩⟩
      · have := (hperm.flatMap_right JoinNode.leftTrees).symm.trans hinv.leftTrees_perm
        simp only [List.flatMap_append, List.flatMap_cons, List.flatMap_nil, List.append_nil,
          hj.type_eq, JoinNode.leftTrees] at this ⊢
        simpa only [List.append_assoc] using this
      · rcases List.mem_append.mp hX with hX | hX
        · exact hinv.isJoinTree X (hsub X (List.mem_append_left _ hX))
        rw [List.mem_singleton.mp hX]
        simp [JoinNode.isJoinTree, hinv.isJoinTree larg (hsub larg (by simp)),
          hinv.isJoinTree rarg (hsub rarg (by simp))]
      · rcases List.mem_append.mp hX with hX | hX
        · exact hinv.innerReads X (hsub X (List.mem_append_left _ hX))
        rw [List.mem_singleton.mp hX]
        show JoinNode.InnerReads sem (.joinExpr jinfo.type larg rarg _ 0)
        rw [hj.type_eq]
        exact ⟨hinv.innerReads larg (hsub larg (by simp)), hinv.innerReads rarg (hsub rarg (by simp)),
          hreads.mono fun i hi => by
            simp only [List.mem_cons, List.mem_singleton, List.not_mem_nil, or_false] at hi
            rcases hi with rfl | rfl <;> simp [hlA, hrB]⟩
      · have hold := hinv.where_holds row
        rw [qualsHold_perm (hperm.flatMap_right JoinNode.innerQuals)] at hold
        simp only [List.flatMap_append, List.flatMap_cons, List.flatMap_nil, List.append_nil,
          hj.type_eq, JoinNode.innerQuals, qualsHold_append, qualsHold_cons, qualsHold_nil] at hold ⊢
        rw [List.filter_append, List.all_append, ← hold]
        simp [hoff, qualHolds, Bool.and_assoc, Bool.and_comm, Bool.and_left_comm]

/-- **Run lemma** of the entries without a marker. -/
theorem PlainStage.run (hts : ts.Nodup) (hF : ForestInv ts depth edges F)
    (hlinked : ∀ K ∈ F, ∀ a ∈ K.leaves, ∀ b ∈ K.leaves,
      Relation.EqvGen (fun l r => (l, r) ∈ edges) a b)
    (hdepth : ∀ e ∈ edges, depth e.1 < depth e.2)
    (hparent : ∀ l l' r, (l, r) ∈ edges → (l', r) ∈ edges → l = l') :
    ∀ (todo : List JoinExprInfo) {done : List JoinExprInfo} {items : List JoinNode}
      {kept : List Expr} {joinOn : Nat → Expr},
      PlainStage sem F edges infosL done items kept joinOn →
      (∀ j ∈ todo, j.PlainOver (PlainTables ts edges)) →
      ∃ items' kept' joinOn', pullupJoinQuals ⟨.fromExpr items none, kept⟩ todo =
          .ok ⟨.fromExpr items' none, kept'⟩ ∧
        PlainStage sem F edges infosL (done ++ todo) items' kept' joinOn'
  | [], _, items, kept, joinOn, hinv, _ => ⟨items, kept, joinOn, rfl, by simpa using hinv⟩
  | jinfo :: todo, done, items, kept, joinOn, hinv, hplain => by
    rw [List.forall_mem_cons] at hplain
    obtain ⟨items₁, kept₁, joinOn₁, hloop, hinv₁⟩ :=
      hinv.place hts hF hlinked hdepth hparent hplain.1 todo
    rw [hloop, show done ++ jinfo :: todo = (done ++ [jinfo]) ++ todo by simp]
    exact PlainStage.run hts hF hlinked hdepth hparent todo hinv₁ hplain.2

end Plain

/-! ## The rows -/

section Rows

variable {sem : ExprSem} {cs : List Expr} {l r : Nat}

/-- The reference ON of an edge holds iff the conjuncts over its two tables do. -/
theorem holds_pairQual (row : Row) :
    (pairQual cs l r).holds sem row 0 =
      (cs.filter fun c => decide (oraRels c = {l, r})).all (·.holds sem row 0) := by
  simp only [pairQual, makeAndExpr, holds_and, List.all_map, Function.comp_def,
    holds_removeColumnJoinExpr]

/-- The reference ON of an edge reads only the edge's two tables. -/
theorem qualReads_pairQual : QualReads sem (some (pairQual cs l r)) [l, r] := fun row row' h => by
  have hc : ∀ c ∈ cs.filter (fun c => decide (oraRels c = {l, r})),
      c.holds sem row 0 = c.holds sem row' 0 := fun c hc => by
    have hrels : oraRels c = {l, r} := by simpa using (List.mem_filter.mp hc).2
    have hreads : QualReads sem (some c) [l, r] :=
      qualReads_some fun i hi => by rw [← oraRels, hrels] at hi; simpa using hi
    simpa [qualHolds] using hreads row row' h
  simp only [qualHolds, Option.all_some, holds_pairQual]
  rw [Bool.eq_iff_iff, List.all_eq_true, List.all_eq_true]
  exact forall₂_congr fun c hm => by rw [hc c hm]

/-- The reference ON of an edge is strict in a table some conjunct over its tables is. -/
theorem qualStrict_pairQual {c : Expr} (hc : c ∈ cs) (hrels : oraRels c = {l, r})
    (hstrict : QualStrict sem (some c) l) : QualStrict sem (some (pairQual cs l r)) l :=
  fun row hrow => by
    have hfalse : c.holds sem row 0 = false := by simpa [qualHolds] using hstrict row hrow
    simp only [qualHolds, Option.all_some, holds_pairQual, List.all_eq_false]
    exact ⟨c, List.mem_filter.mpr ⟨hc, by simpa using hrels⟩, by simp [hfalse]⟩

end Rows

/-- Marker entries along the edges draw the edges. -/
theorem map_edge_of_forall₂ : ∀ {infos : List JoinExprInfo} {edges : List (Nat × Nat)},
    List.Forall₂ (fun jinfo e => jinfo.type = .left ∧ jinfo.lrtindex = e.1 ∧ jinfo.rrtindex = e.2)
      infos edges → infos.map JoinExprInfo.edge = edges
  | _, _, .nil => rfl
  | _, _, .cons h hs => by
    rw [List.map_cons, map_edge_of_forall₂ hs, JoinExprInfo.edge, h.2.1, h.2.2]

/-- **The `(+)` rewrite returns the reference rows.** Take a FROM list of two or more
distinct base relations `ts` and a WHERE with a marker, whose canonicalized conjuncts each
name only tables of `ts` and are:
- marker conjuncts, each naming one marked table `e.2` and one other table `e.1`, strict in
  `e.1`, along `edges`; the edges go down a `depth` (they form a forest) and give each
  marked table one preserving table;
- conjuncts without a marker over at most two tables, over the two tables of one edge
  whenever a chain of edges links their tables.
Then `transformFromAndWhere` succeeds, and on every database the FROM list and the WHERE it
installs return the rows of `outerJoinRows`, up to order: each marked table LEFT JOINed under
its preserving table on the AND of the conjuncts over the two, marker or not, the trees
cross-joined and filtered by the other conjuncts. -/
theorem transformFromAndWhere_outerJoinRows (canonicalizeQual : Expr → Expr) (sem : ExprSem)
    {pstate : ParseState} {ts : List Nat} (hts : ts.Nodup)
    (hjoin : pstate.p_joinlist = ts.map .rangeTblRef) (hlen : 2 ≤ ts.length) {q : Expr}
    (hq : haveOraColumnJoin q) {edges : List (Nat × Nat)} {depth : Nat → Nat}
    (hmarkers : List.Forall₂ (fun c e => oraMarkedRels c = {e.2} ∧ oraPlainRels c = {e.1} ∧
      QualStrict sem (some c) e.1) ((canonicalizeQual q).andArgs.filter haveOraColumnJoin) edges)
    (hdepth : ∀ e ∈ edges, depth e.1 < depth e.2)
    (hparent : ∀ l l' r, (l, r) ∈ edges → (l', r) ∈ edges → l = l')
    (hrels : ∀ c ∈ (canonicalizeQual q).andArgs, ∀ i ∈ oraRels c, i ∈ ts)
    (hplain : ∀ c ∈ (canonicalizeQual q).andArgs, haveOraColumnJoin c = false →
      (oraPlainRels c).card ≤ 2 ∧ ∀ a ∈ oraRels c, ∀ b ∈ oraRels c, a ≠ b →
        Relation.EqvGen (fun l r => (l, r) ∈ edges) a b → onEdge edges (oraRels c)) :
    ∃ pstate' quals', transformFromAndWhere canonicalizeQual pstate (some q) = .ok (pstate', quals') ∧
      ∀ db, (selectRows sem db pstate'.p_joinlist quals').Perm
        (outerJoinRows sem db ts (canonicalizeQual q).andArgs edges) := by
  set cs := (canonicalizeQual q).andArgs
  have hne_edges : ∀ e ∈ edges, e.1 ≠ e.2 := fun e he h => by
    have := hdepth e he
    rw [h] at this
    exact lt_irrefl _ this
  -- each edge comes from a marker conjunct over its two tables
  have hedge : ∀ e ∈ edges, ∃ c ∈ cs, oraRels c = {e.1, e.2} ∧ QualStrict sem (some c) e.1 ∧
      0 < e.1 ∧ 0 < e.2 ∧ e.1 ∈ ts ∧ e.2 ∈ ts := fun e he => by
    obtain ⟨c, hc, hM, hU, hstrict⟩ := exists_of_forall₂_of_mem hmarkers.flip he
    have hc' := (List.mem_filter.mp hc).1
    have hrc : oraRels c = {e.1, e.2} := by
      rw [oraRels, hM, hU, Finset.union_comm, ← Finset.insert_eq]
    have h₁ : e.1 ∈ oraRels c := by simp [hrc]
    have h₂ : e.2 ∈ oraRels c := by simp [hrc]
    exact ⟨c, hc', hrc, hstrict, pos_of_mem_oraRels h₁, pos_of_mem_oraRels h₂,
      hrels c hc' _ h₁, hrels c hc' _ h₂⟩
  have hedges : ∀ e ∈ edges, e.1 ∈ ts ∧ e.2 ∈ ts ∧ depth e.1 < depth e.2 := fun e he => by
    obtain ⟨-, -, -, -, -, -, h₁, h₂⟩ := hedge e he
    exact ⟨h₁, h₂, hdepth e he⟩
  -- the entries
  obtain ⟨infosL, infosP, hqual, hL, hP⟩ := getJoinQualExprs_markers_plain canonicalizeQual
    (S := PlainTables ts edges) (hmarkers.imp fun _ _ h => ⟨h.1, h.2.1⟩) hne_edges
    fun c hc h => ⟨(hplain c hc h).1, fun i hi => hrels c hc i hi, (hplain c hc h).2⟩
  have hedgesL := map_edge_of_forall₂ hL
  have hmark : ∀ j ∈ [] ++ infosL, j.MarkerOver ts depth := fun j hj => by
    obtain ⟨e, he, htype, hl, hr⟩ := exists_of_forall₂_of_mem hL (by simpa using hj)
    obtain ⟨-, -, -, -, hl0, hr0, hlt, hrt⟩ := hedge e he
    exact ⟨htype, hl ▸ hl0, hr ▸ hr0, hl ▸ hlt, hr ▸ hrt, hl ▸ hr ▸ hdepth e he⟩
  -- the loop over the marker entries, then over the others
  obtain ⟨itemsL, joinOnL, hloopL, hinvL⟩ := MarkerStage.run hts infosL
    (MarkerStage.init sem ts fun _ => makeAndExpr []) hmark (by simpa [hedgesL] using hparent)
  have hF := forestInv_rewriteForest hts hedges hparent
  rw [List.nil_append] at hinvL
  have hinvP₀ := hinvL.plainStage (by rw [hedgesL]; exact hF.isLeftTree)
  rw [hedgesL] at hinvP₀
  have hlinked : ∀ I ∈ rewriteForest (ts.map .rangeTblRef) edges, ∀ a ∈ I.leaves, ∀ b ∈ I.leaves,
      Relation.EqvGen (fun l r => (l, r) ∈ edges) a b :=
    eqvGen_of_mem_rewriteForest edges (fun e he => he) fun I hI a ha b hb => by
      obtain ⟨t, -, rfl⟩ := List.mem_map.mp hI
      simp only [JoinNode.leaves, List.mem_singleton] at ha hb
      exact ha ▸ hb ▸ .refl _
  obtain ⟨items, kept, joinOn, hloopP, hinv⟩ :=
    PlainStage.run hts hF hlinked hdepth hparent infosP hinvP₀ hP
  rw [List.nil_append] at hinv
  -- what the rewrite returns
  rw [transformFromAndWhere_of_two_le canonicalizeQual (by rw [hjoin, List.length_map]; exact hlen) hq]
  simp only [transformFromAndWhereGeneral, hqual, ok_bind_eq, hjoin, pullupJoinQuals_append,
    hloopL, hloopP, analyzeNewJoin]
  refine ⟨_, _, rfl, fun db => ?_⟩
  simp only [selectRows, JoinNode.fromlist, crossRows_analyzeNewJoinList]
  -- the conjuncts, sorted by their tables
  have hdisj : ∀ c ∈ cs, Disjoint (oraMarkedRels c) (oraPlainRels c) := fun c hc => by
    cases hc' : haveOraColumnJoin c
    · rw [oraMarkedRels_of_haveOraColumnJoin_eq_false hc']
      exact Finset.disjoint_empty_left _
    · obtain ⟨e, he, hM, hU, -⟩ :=
        exists_of_forall₂_of_mem hmarkers (List.mem_filter.mpr ⟨hc, hc'⟩)
      rw [hM, hU]
      simpa using hne_edges e he
  have hsorted := fun Q row => getJoinQualExprs_filter_holds sem row 0 Q hdisj hqual
  -- the rewrite's forest, its ON clauses replaced by the reference's, is the reference forest
  set F := rewriteForest (ts.map .rangeTblRef) edges
  set joinRef : Nat → Expr := fun r => pairQual cs (parentOf edges r) r
  have hFnd := hF.nodup hts
  have hon : ∀ K ∈ F, ((K.withOn joinOn).eval sem db).Perm ((K.withOn joinRef).eval sem db) :=
    fun K hK => .of_eq (JoinNode.eval_withOn_congr sem db fun r hr row => by
      obtain ⟨l, hlr⟩ := hF.reached_of_mem_keys hts hK hr
      have hjoinRef : joinRef r = pairQual cs l r := by
        simp only [joinRef, parentOf_eq hparent hlr]
      rw [hinv.onHolds l r hlr row, hsorted (fun s => decide (s = {l, r})) row, hjoinRef,
        holds_pairQual])
  have hforest : List.Perm (crossRows sem db (items.flatMap JoinNode.leftTrees))
      (crossRows sem db (outerJoinForest (pairQual cs) (ts.map .rangeTblRef) edges)) :=
    calc List.Perm _ (crossRows sem db (F.map (JoinNode.withOn joinOn))) :=
          crossRows_perm sem db hinv.leftTrees_perm
            ((leavesList_perm hinv.leftTrees_perm).nodup_iff.mpr (by
              rw [leavesList_map_withOn]; exact hFnd))
      List.Perm _ (crossRows sem db (F.map (JoinNode.withOn joinRef))) :=
          crossRows_perm_of_forall₂ sem db (by
            rw [List.forall₂_map_left_iff, List.forall₂_map_right_iff]
            exact List.forall₂_same.mpr hon)
      List.Perm _ _ := crossRows_rewriteForest sem db hts hedges hparent fun e he => by
          obtain ⟨c, hc, hrc, hstrict, -⟩ := hedge e he
          exact ⟨by simp only [joinRef, parentOf_eq hparent he], qualReads_pairQual,
            qualStrict_pairQual hc hrc hstrict⟩
  -- the WHERE the rewrite keeps and the ON clauses of its inner joins are the reference filter
  have hLon : (infosL.filter fun jinfo => !onEdge edges jinfo.rels) = [] :=
    List.filter_eq_nil_iff.mpr fun j hj => by
      obtain ⟨e, he, -, hl, hr⟩ := exists_of_forall₂_of_mem hL hj
      have hrj := (hmark j (by simpa using hj)).rels
      simp only [Bool.not_eq_true', Bool.not_eq_false, onEdge, List.any_eq_true, decide_eq_true_eq]
      exact ⟨e, he, by rw [hrj, hl, hr]⟩
  have hfilter : ∀ row, (qualHolds sem 0 (keptQuals kept) row &&
      qualsHold sem (items.flatMap JoinNode.innerQuals) row) =
        (cs.filter fun c => !onEdge edges (oraRels c)).all (·.holds sem row 0) := fun row => by
    have hoff := hsorted (fun s => !onEdge edges s) row
    rw [List.filter_append, hLon, List.nil_append] at hoff
    rw [qualHolds_keptQuals, Bool.and_comm, hinv.where_holds row, hoff]
  calc List.Perm _ (((crossRows sem db (items.flatMap JoinNode.leftTrees)).filter
          (qualsHold sem (items.flatMap JoinNode.innerQuals))).filter
            (qualHolds sem 0 (keptQuals kept))) :=
        (crossRows_perm_filter_innerQuals sem db hinv.innerReads
          (hinv.leaves_perm.nodup_iff.mpr hFnd)).filter _
    List.Perm _ _ := (hforest.filter _).filter _
    _ = outerJoinRows sem db ts cs edges := by
      rw [List.filter_filter, outerJoinRows]
      exact congrArg (List.filter · _) (funext hfilter)

/-- `FROM t1, t2 WHERE t1.a = t2.a(+) AND t1.b = t2.b`: both conjuncts go into the ON of
`t1 LEFT JOIN t2`, and nothing is left to filter. -/
theorem transformFromAndWhere_outerJoinRows_marker_and_plain :
    ∃ pstate' quals', transformFromAndWhere id (relationsFrom 2) (some (makeAndExpr
        [int4Eq (.var { varno := 1, varattno := 1 }) (.columnRefJoin { varno := 2, varattno := 1 } 0),
         int4Eq (.var { varno := 1, varattno := 2 }) (.var { varno := 2, varattno := 2 })])) =
        .ok (pstate', quals') ∧
      ∀ db, (selectRows (catalogSem builtinOperators) db pstate'.p_joinlist quals').Perm
        (outerJoinRows (catalogSem builtinOperators) db [1, 2]
          [int4Eq (.var { varno := 1, varattno := 1 }) (.columnRefJoin { varno := 2, varattno := 1 } 0),
           int4Eq (.var { varno := 1, varattno := 2 }) (.var { varno := 2, varattno := 2 })] [(1, 2)]) :=
  transformFromAndWhere_outerJoinRows id (catalogSem builtinOperators)
    (by decide) (by rfl) (by decide) (by decide)
    (.cons ⟨by decide, by decide, fun row hrow => by
      simp only [qualHolds, Option.all_some, Expr.holds, int4Eq, Expr.eval, exprListEval,
        columnValue, hrow, catalogSem]
      split <;> rfl⟩ .nil)
    (show ∀ e ∈ [(1, 2)], id e.1 < id e.2 by decide) (by simp)
    (List.forall_mem_cons.mpr ⟨by decide, List.forall_mem_singleton.mpr (by decide)⟩) fun c hc _ => by
      simp only [id, makeAndExpr, Expr.andArgs, List.mem_cons, List.mem_singleton] at hc
      exact ⟨by rcases hc with rfl | rfl | h <;> first | decide | simp at h,
        fun _ _ _ _ _ _ => by rcases hc with rfl | rfl | h <;> first | decide | simp at h⟩

end AntdbAnalyze
