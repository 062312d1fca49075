import AntdbAnalyze.OuterJoin.Conservation

/-!
# Entering the joins of the `(+)` rewrite (analyze.c:3393-3483, 3641-3658)

The loop of `transformFromAndWhere` leaves the joins it built in the FROM tree with
range-table index 0. `analyze_new_join` enters them bottom-up: each gets a JOIN entry
appended to the range table, holding the column names and Vars of its two inputs, and
`p_joinexprs` is padded with NULLs up to the new index and then holds the join. This
module proves that the range table, `p_joinexprs` and the FROM tree stay consistent over
every tree the loop can build.

- `JoinNode.enteredIn`: a FROM item whose tables name entries and whose joins name JOIN
  entries, as `transformFromClause` leaves it; `JoinNode.indexedIn`, one that may also
  hold new joins over such items, as the loop leaves it (`pullupJoinQuals_indexedIn`);
- `ParseState.JoinexprsPadded`: `p_joinexprs` no longer than the range table, and NULL
  at every entry that is not a JOIN;
- `JoinNode.EnteredAsJoin`: what `analyze_new_join` leaves for a join it entered;
- `EntersJoins`: one run of `analyze_new_join`, composed item by item
  (`analyzeNewJoin_entersJoins`, `analyzeNewJoinList_entersJoins`);
- **`transformFromAndWhere_enters_joins`**: the rewrite only appends to the range table
  and to `p_joinexprs`, leaves every join of the FROM list naming a JOIN entry, enters
  every join it built with the columns of its inputs concatenated, and keeps
  `p_joinexprs` padded. A join that was there before keeps its entry, which for a USING
  join is not the concatenation of its inputs (`transformFromAndWhere_keeps_using_join`);
- **`transformFromAndWhere_idempotent`**: the rewrite leaves no marker in WHERE, so a second
  run changes nothing.
-/

namespace AntdbAnalyze

/-! ## Entered FROM items -/

/-- The range-table index of a FROM node, as `analyze_new_join` reports it: a table's, a
join's (`0` while the join is new), and `0` for a `FromExpr`. -/
def JoinNode.rtindex : JoinNode → Nat
  | .rangeTblRef rtindex => rtindex
  | .joinExpr _ _ _ _ rtindex => rtindex
  | .fromExpr _ _ => 0

/-- Entry `rtindex` of the range table exists and is a JOIN entry. -/
def isJoinEntry (rtable : List RangeTblEntry) (rtindex : Nat) : Bool :=
  0 < rtindex && (rtFetch rtindex rtable).any (·.rtekind = .join)

/-- A FROM item entered in the range table, as `transformFromClause` leaves the items it
builds: every table names an entry, and every join a JOIN entry. -/
def JoinNode.enteredIn (rtable : List RangeTblEntry) : JoinNode → Bool
  | .rangeTblRef rtindex => 0 < rtindex && rtindex ≤ rtable.length
  | .joinExpr _ larg rarg _ rtindex =>
    isJoinEntry rtable rtindex && larg.enteredIn rtable && rarg.enteredIn rtable
  | .fromExpr _ _ => false

/-- A FROM item as the loop of `transformFromAndWhere` leaves it: new joins (index `0`)
over such items, or an item entered in the range table. -/
def JoinNode.indexedIn (rtable : List RangeTblEntry) : JoinNode → Bool
  | .joinExpr _ larg rarg _ 0 => larg.indexedIn rtable && rarg.indexedIn rtable
  | node => node.enteredIn rtable

/-- `isJoinEntry`, as a proposition. -/
theorem isJoinEntry_iff {rtable : List RangeTblEntry} {rtindex : Nat} :
    isJoinEntry rtable rtindex ↔
      0 < rtindex ∧ ∃ rte, rtFetch rtindex rtable = some rte ∧ rte.rtekind = .join := by
  unfold isJoinEntry
  cases rtFetch rtindex rtable <;> simp

/-- A JOIN entry lies in the range table. -/
theorem isJoinEntry_bounds {rtable : List RangeTblEntry} {rtindex : Nat}
    (h : isJoinEntry rtable rtindex) : 0 < rtindex ∧ rtindex ≤ rtable.length := by
  obtain ⟨hpos, _, hrte, _⟩ := isJoinEntry_iff.mp h
  have := (List.getElem?_eq_some_iff.mp hrte).1
  omega

namespace JoinNode

variable {rtable : List RangeTblEntry}

/-- An entered node's index names an entry. -/
theorem rtindex_bounds_of_enteredIn :
    ∀ {node : JoinNode}, node.enteredIn rtable → 0 < node.rtindex ∧ node.rtindex ≤ rtable.length
  | .rangeTblRef _, h => by simpa [enteredIn, rtindex] using h
  | .joinExpr _ _ _ _ _, h => by
    simp only [enteredIn, Bool.and_eq_true] at h
    exact isJoinEntry_bounds h.1.1
  | .fromExpr _ _, h => by simp [enteredIn] at h

/-- An entered item is one the loop may leave. -/
theorem indexedIn_of_enteredIn : ∀ {node : JoinNode}, node.enteredIn rtable → node.indexedIn rtable
  | .joinExpr _ _ _ _ 0, h => by simp [enteredIn, isJoinEntry] at h
  | .joinExpr _ _ _ _ (_ + 1), h => h
  | .rangeTblRef _, h => h
  | .fromExpr _ _, h => h

/-- An entered item has no `FromExpr` inside. -/
theorem isJoinTree_of_enteredIn : ∀ {node : JoinNode}, node.enteredIn rtable → node.isJoinTree
  | .rangeTblRef _, _ => rfl
  | .joinExpr _ _ _ _ _, h => by
    simp only [enteredIn, Bool.and_eq_true] at h
    simp [isJoinTree, isJoinTree_of_enteredIn h.1.2, isJoinTree_of_enteredIn h.2]
  | .fromExpr _ _, h => by simp [enteredIn] at h

/-- An item the loop leaves has no `FromExpr` inside. -/
theorem isJoinTree_of_indexedIn : ∀ {node : JoinNode}, node.indexedIn rtable → node.isJoinTree
  | .joinExpr _ _ _ _ 0, h => by
    simp only [indexedIn, Bool.and_eq_true] at h
    simp [isJoinTree, isJoinTree_of_indexedIn h.1, isJoinTree_of_indexedIn h.2]
  | .joinExpr _ _ _ _ (_ + 1), h => isJoinTree_of_enteredIn h
  | .rangeTblRef _, h => isJoinTree_of_enteredIn h
  | .fromExpr _ _, h => isJoinTree_of_enteredIn h

/-- A subtree of an entered item is entered. -/
theorem enteredIn_of_mem_subtrees :
    ∀ {node sub : JoinNode}, node.enteredIn rtable → sub ∈ node.subtrees → sub.enteredIn rtable
  | .rangeTblRef _, _, h, hsub => by simp_all [subtrees]
  | .joinExpr _ _ _ _ _, _, h, hsub => by
    simp only [subtrees, List.mem_cons, List.mem_append] at hsub
    rcases hsub with rfl | hsub | hsub
    · exact h
    · simp only [enteredIn, Bool.and_eq_true] at h
      exact enteredIn_of_mem_subtrees h.1.2 hsub
    · simp only [enteredIn, Bool.and_eq_true] at h
      exact enteredIn_of_mem_subtrees h.2 hsub
  | .fromExpr _ _, _, h, _ => by simp [enteredIn] at h

/-- Every index in an item the loop leaves is within the range table: the new joins still
have index `0`. -/
theorem rtindex_le_of_mem_subtrees :
    ∀ {node sub : JoinNode}, node.indexedIn rtable → sub ∈ node.subtrees →
      sub.rtindex ≤ rtable.length
  | .joinExpr _ _ _ _ 0, _, h, hsub => by
    simp only [indexedIn, Bool.and_eq_true] at h
    simp only [subtrees, List.mem_cons, List.mem_append] at hsub
    rcases hsub with rfl | hsub | hsub
    · exact Nat.zero_le _
    · exact rtindex_le_of_mem_subtrees h.1 hsub
    · exact rtindex_le_of_mem_subtrees h.2 hsub
  | .joinExpr _ _ _ _ (_ + 1), _, h, hsub
  | .rangeTblRef _, _, h, hsub
  | .fromExpr _ _, _, h, hsub => (rtindex_bounds_of_enteredIn (enteredIn_of_mem_subtrees h hsub)).2

end JoinNode

/-! ## A range table that grows at its end -/

/-- An entry of a list is an entry of every list it is a prefix of. -/
theorem getElem?_of_isPrefix {α : Type} {l l' : List α} (h : l <+: l') {n : Nat} {a : α}
    (ha : l[n]? = some a) : l'[n]? = some a := by
  obtain ⟨t, rfl⟩ := h
  rw [List.getElem?_append_left (List.getElem?_eq_some_iff.mp ha).1, ha]

section Prefix

variable {rtable rtable' : List RangeTblEntry} (h : rtable <+: rtable')
include h

/-- A JOIN entry stays one as the range table grows. -/
theorem isJoinEntry_of_isPrefix {rtindex : Nat} (he : isJoinEntry rtable rtindex) :
    isJoinEntry rtable' rtindex := by
  obtain ⟨hpos, rte, hrte, hjoin⟩ := isJoinEntry_iff.mp he
  exact isJoinEntry_iff.mpr ⟨hpos, rte, getElem?_of_isPrefix h hrte, hjoin⟩

/-- An entered item stays entered as the range table grows. -/
theorem JoinNode.enteredIn_of_isPrefix :
    ∀ {node : JoinNode}, node.enteredIn rtable → node.enteredIn rtable'
  | .rangeTblRef _, he => by
    simp only [enteredIn, Bool.and_eq_true, decide_eq_true_eq] at he ⊢
    exact ⟨he.1, he.2.trans h.length_le⟩
  | .joinExpr _ _ _ _ _, he => by
    simp only [enteredIn, Bool.and_eq_true] at he ⊢
    exact ⟨⟨isJoinEntry_of_isPrefix h he.1.1, enteredIn_of_isPrefix he.1.2⟩,
      enteredIn_of_isPrefix he.2⟩
  | .fromExpr _ _, he => he

/-- An item the loop leaves stays one as the range table grows. -/
theorem JoinNode.indexedIn_of_isPrefix :
    ∀ {node : JoinNode}, node.indexedIn rtable → node.indexedIn rtable'
  | .joinExpr _ _ _ _ 0, hi => by
    simp only [indexedIn, Bool.and_eq_true] at hi ⊢
    exact ⟨indexedIn_of_isPrefix hi.1, indexedIn_of_isPrefix hi.2⟩
  | .joinExpr _ _ _ _ (_ + 1), hi => enteredIn_of_isPrefix h hi
  | .rangeTblRef _, hi => enteredIn_of_isPrefix h hi
  | .fromExpr _ _, hi => hi

end Prefix

/-- The columns of an entry do not change as the range table grows. -/
theorem expandRTEAt_of_isPrefix {pstate pstate' : ParseState}
    (h : pstate.p_rtable <+: pstate'.p_rtable) {rtindex : Nat} (hpos : 0 < rtindex)
    (hle : rtindex ≤ pstate.p_rtable.length) :
    expandRTEAt pstate' rtindex = expandRTEAt pstate rtindex := by
  have hrte : rtFetch rtindex pstate.p_rtable = some pstate.p_rtable[rtindex - 1] :=
    List.getElem?_eq_getElem (by omega)
  simp only [expandRTEAt, hrte, show rtFetch rtindex pstate'.p_rtable = _ from
    getElem?_of_isPrefix h hrte]

/-! ## The loop leaves items `analyze_new_join` can enter -/

/-- A fuse keeps an item entered: it only changes an ON clause. -/
theorem JoinNode.AppendsOn.enteredIn {jinfo : JoinExprInfo} {node node' : JoinNode}
    {rtable : List RangeTblEntry} (h : node.AppendsOn jinfo node') (he : node.enteredIn rtable) :
    node'.enteredIn rtable := by
  induction h <;> simp_all [JoinNode.enteredIn]

/-- A fuse keeps an item one the loop may leave. -/
theorem JoinNode.AppendsOn.indexedIn {jinfo : JoinExprInfo} {node node' : JoinNode}
    {rtable : List RangeTblEntry} (h : node.AppendsOn jinfo node') (hi : node.indexedIn rtable) :
    node'.indexedIn rtable := by
  induction h with
  | @here _ _ _ _ rtindex _ => cases rtindex <;> exact hi
  | @left _ _ _ _ _ rtindex happ ih =>
    cases rtindex with
    | zero =>
      simp only [JoinNode.indexedIn, Bool.and_eq_true] at hi ⊢
      exact ⟨ih hi.1, hi.2⟩
    | succ => exact (AppendsOn.left happ).enteredIn hi
  | @right _ _ _ _ _ rtindex happ ih =>
    cases rtindex with
    | zero =>
      simp only [JoinNode.indexedIn, Bool.and_eq_true] at hi ⊢
      exact ⟨hi.1, ih hi.2⟩
    | succ => exact (AppendsOn.right happ).enteredIn hi

/-- Placing a conjunct keeps every item one the loop may leave: a fuse changes an ON
clause, and a new join has index `0`. -/
theorem PullupStep.indexedIn {jinfo : JoinExprInfo} {items items' : List JoinNode}
    {rtable : List RangeTblEntry} (h : PullupStep jinfo items items')
    (hi : ∀ item ∈ items, item.indexedIn rtable) : ∀ item ∈ items', item.indexedIn rtable := by
  cases h with
  | fuse happ =>
    simp only [List.mem_append, List.mem_cons] at hi ⊢
    rintro item (h | rfl | h)
    · exact hi item (.inl h)
    · exact happ.indexedIn (hi _ (.inr (.inl rfl)))
    · exact hi item (.inr (.inr h))
  | join hperm _ _ =>
    have hi' := fun item h => hi item (hperm.mem_iff.mpr h)
    simp only [List.mem_append, List.mem_cons, List.mem_singleton] at hi' ⊢
    rintro item (h | rfl | h)
    · exact hi' item (.inl h)
    · simp [JoinNode.indexedIn, hi' _ (.inr (.inl rfl)), hi' _ (.inr (.inr (.inl rfl)))]
    · simp at h

/-- The loop of `transformFromAndWhere` keeps every item one `analyze_new_join` can
enter. -/
theorem pullupJoinQuals_indexedIn {rtable : List RangeTblEntry} :
    ∀ {infos : List JoinExprInfo} {items : List JoinNode} {kept : List Expr}
      {loop' : FromAndWhereLoop},
    (∀ item ∈ items, item.indexedIn rtable) → (leavesList items).Nodup →
    pullupJoinQuals ⟨.fromExpr items none, kept⟩ infos = .ok loop' →
    ∃ items', loop'.from = .fromExpr items' none ∧ ∀ item ∈ items', item.indexedIn rtable
  | [], items, _, _, hi, _, h => by
    cases h
    exact ⟨items, rfl, hi⟩
  | jinfo :: rest, items, kept, loop', hi, hnd, h => by
    unfold pullupJoinQuals at h
    split_ifs at h
    · exact pullupJoinQuals_indexedIn hi hnd h
    · obtain ⟨⟨found, from', _⟩, hwalk, h⟩ := except_bind_eq_ok.mp h
      cases found
      · cases h
      obtain ⟨items₁, rfl, hstep⟩ := pullupRelForJoin_fromExpr
        (fun item h => JoinNode.isJoinTree_of_indexedIn (hi item h)) hnd hwalk
      exact pullupJoinQuals_indexedIn (hstep.indexedIn hi) (hstep.nodup hnd) h

/-! ## `p_joinexprs` -/

/-- `p_joinexprs` as `transformFromClause` and `analyze_new_join` keep it: no longer than
the range table, and NULL or past its end at every entry that is not a JOIN. -/
def ParseState.JoinexprsPadded (pstate : ParseState) : Prop :=
  pstate.p_joinexprs.length ≤ pstate.p_rtable.length ∧
    ∀ (i : Nat) (rte : RangeTblEntry), pstate.p_rtable[i]? = some rte → rte.rtekind ≠ .join →
      pstate.p_joinexprs[i]?.join = none

section Pad

variable {joinexprs : List (Option JoinNode)} {rtindex : Nat} {j : JoinNode}

/-- Padding up to a later index makes `p_joinexprs` exactly that long. -/
theorem length_padJoinexprs (h : joinexprs.length < rtindex) :
    (padJoinexprs joinexprs rtindex j).length = rtindex := by
  simp only [padJoinexprs, List.length_append, List.length_replicate, List.length_singleton]
  omega

/-- The padded list holds the join at its index. -/
theorem getElem?_padJoinexprs_self (h : joinexprs.length < rtindex) :
    (padJoinexprs joinexprs rtindex j)[rtindex - 1]? = some (some j) := by
  have hlen : (joinexprs ++ List.replicate (rtindex - 1 - joinexprs.length) none).length =
      rtindex - 1 := by
    simp only [List.length_append, List.length_replicate]
    omega
  have := List.getElem?_concat_length
    (joinexprs ++ List.replicate (rtindex - 1 - joinexprs.length) none) (some j)
  rwa [hlen] at this

/-- Padding leaves every slot before the join's index NULL or as it was. -/
theorem join_getElem?_padJoinexprs {i : Nat} (hi : i < rtindex - 1) :
    (padJoinexprs joinexprs rtindex j)[i]?.join = joinexprs[i]?.join := by
  have hlen : i < (joinexprs ++ List.replicate (rtindex - 1 - joinexprs.length) none).length := by
    simp only [List.length_append, List.length_replicate]
    omega
  rw [padJoinexprs, List.getElem?_append_left hlen, List.getElem?_append]
  split
  · rfl
  · rw [List.getElem?_replicate, if_pos (by omega), List.getElem?_eq_none (by omega)]
    rfl

end Pad

/-- `addRangeTableEntryForJoin` appends one entry. -/
@[simp] theorem length_p_rtable_addRangeTableEntryForJoin (pstate : ParseState)
    (colnames : List String) (jointype : JoinType) (aliasvars : List Expr) :
    (addRangeTableEntryForJoin pstate colnames jointype aliasvars).p_rtable.length =
      pstate.p_rtable.length + 1 := by
  simp [addRangeTableEntryForJoin]

/-- `addRangeTableEntryForJoin` appends to the range table. -/
theorem isPrefix_addRangeTableEntryForJoin {pstate : ParseState} {colnames : List String}
    {jointype : JoinType} {aliasvars : List Expr} :
    pstate.p_rtable <+: (addRangeTableEntryForJoin pstate colnames jointype aliasvars).p_rtable :=
  List.prefix_append _ _

/-- The entry `addRangeTableEntryForJoin` appends: a JOIN entry with the given columns. -/
theorem rtFetch_addRangeTableEntryForJoin {pstate : ParseState} {colnames : List String}
    {jointype : JoinType} {aliasvars : List Expr} :
    rtFetch (pstate.p_rtable.length + 1)
        (addRangeTableEntryForJoin pstate colnames jointype aliasvars).p_rtable =
      some ⟨.join, 0, false, none, "unnamed_join", colnames, 0, jointype, aliasvars⟩ :=
  List.getElem?_concat_length _ _

/-- `addRangeTableEntryForJoin` leaves `p_joinexprs` alone. -/
@[simp] theorem p_joinexprs_addRangeTableEntryForJoin (pstate : ParseState)
    (colnames : List String) (jointype : JoinType) (aliasvars : List Expr) :
    (addRangeTableEntryForJoin pstate colnames jointype aliasvars).p_joinexprs =
      pstate.p_joinexprs :=
  rfl

/-- The columns of an entry, read after a join is entered, are those read before. -/
theorem expandRTEAt_enterJoin {pstate : ParseState} {colnames : List String} {jointype : JoinType}
    {aliasvars : List Expr} {joinexprs : List (Option JoinNode)} {rtindex : Nat}
    (hpos : 0 < rtindex) (hle : rtindex ≤ pstate.p_rtable.length) :
    expandRTEAt { addRangeTableEntryForJoin pstate colnames jointype aliasvars with
      p_joinexprs := joinexprs } rtindex = expandRTEAt pstate rtindex :=
  expandRTEAt_of_isPrefix isPrefix_addRangeTableEntryForJoin hpos hle

/-- Entering a join keeps `p_joinexprs` padded: the slots it pads are NULL, and the one
it fills is the new JOIN entry's. -/
theorem ParseState.JoinexprsPadded.enterJoin {pstate : ParseState} (hpad : pstate.JoinexprsPadded)
    (colnames : List String) (jointype : JoinType) (aliasvars : List Expr) (j : JoinNode) :
    ({ addRangeTableEntryForJoin pstate colnames jointype aliasvars with
        p_joinexprs := padJoinexprs pstate.p_joinexprs (pstate.p_rtable.length + 1) j } :
      ParseState).JoinexprsPadded := by
  obtain ⟨hle, hnull⟩ := hpad
  have hlt : pstate.p_joinexprs.length < pstate.p_rtable.length + 1 := Nat.lt_succ_of_le hle
  refine ⟨by simp [addRangeTableEntryForJoin, length_padJoinexprs hlt], fun i rte hrte hkind => ?_⟩
  simp only [addRangeTableEntryForJoin] at hrte ⊢
  rcases Nat.lt_or_ge i pstate.p_rtable.length with hi | hi
  · rw [List.getElem?_append_left hi] at hrte
    rw [join_getElem?_padJoinexprs (by omega)]
    exact hnull i rte hrte hkind
  · -- the only entry past the old end is the new JOIN entry
    obtain ⟨hlt', rfl⟩ := List.getElem?_eq_some_iff.mp hrte
    simp only [List.length_append, List.length_singleton] at hlt'
    simp [List.getElem_append_right hi, show i = pstate.p_rtable.length by omega] at hkind

/-! ## What `analyze_new_join` leaves for a join it entered -/

/-- What `analyze_new_join` leaves for a join it entered: both inputs name earlier
entries; the join names a JOIN entry of its type whose column names and alias Vars are
those of its left input followed by those of its right one; and `p_joinexprs` holds the
join at its index. -/
def JoinNode.EnteredAsJoin (pstate : ParseState) : JoinNode → Prop
  | .joinExpr jointype larg rarg quals rtindex =>
    0 < larg.rtindex ∧ larg.rtindex < rtindex ∧ 0 < rarg.rtindex ∧ rarg.rtindex < rtindex ∧
    (∃ rte, rtFetch rtindex pstate.p_rtable = some rte ∧ rte.rtekind = .join ∧
      rte.jointype = jointype ∧
      rte.colnames = (expandRTEAt pstate larg.rtindex).1 ++ (expandRTEAt pstate rarg.rtindex).1 ∧
      rte.joinaliasvars =
        (expandRTEAt pstate larg.rtindex).2 ++ (expandRTEAt pstate rarg.rtindex).2) ∧
    pstate.p_joinexprs[rtindex - 1]? = some (some (.joinExpr jointype larg rarg quals rtindex))
  | _ => False

/-- A join stays entered as the range table and `p_joinexprs` grow at their ends. -/
theorem JoinNode.EnteredAsJoin.of_isPrefix {pstate pstate' : ParseState} :
    ∀ {j : JoinNode}, j.EnteredAsJoin pstate → pstate.p_rtable <+: pstate'.p_rtable →
      pstate.p_joinexprs <+: pstate'.p_joinexprs → j.EnteredAsJoin pstate'
  | .joinExpr _ _ _ _ _, ⟨hl, hlk, hr, hrk, ⟨rte, hrte, hkind, htype, hcols, hvars⟩, hslot⟩,
      hrt, hjx => by
    have hk := (List.getElem?_eq_some_iff.mp hrte).1
    refine ⟨hl, hlk, hr, hrk, ⟨rte, getElem?_of_isPrefix hrt hrte, hkind, htype, ?_, ?_⟩,
      getElem?_of_isPrefix hjx hslot⟩ <;>
    rwa [expandRTEAt_of_isPrefix hrt hl (by omega), expandRTEAt_of_isPrefix hrt hr (by omega)]

/-! ## One run of `analyze_new_join` -/

/-- The subtrees of two lists. -/
theorem subtreesList_append (xs ys : List JoinNode) :
    subtreesList (xs ++ ys) = subtreesList xs ++ subtreesList ys := by
  simp

/-- One run of `analyze_new_join` from `pstate` over the FROM items `nodes`, returning
`pstate'` and `nodes'`: the range table and `p_joinexprs` only grow at their ends,
`p_joinexprs` stays padded, the items returned are entered, and each of their subtrees is
one of the old items' or a join entered past the old end of the range table. -/
structure EntersJoins (pstate pstate' : ParseState) (nodes nodes' : List JoinNode) : Prop where
  rtable : pstate.p_rtable <+: pstate'.p_rtable
  joinexprs : pstate.p_joinexprs <+: pstate'.p_joinexprs
  padded : pstate'.JoinexprsPadded
  entered : ∀ node' ∈ nodes', node'.enteredIn pstate'.p_rtable
  built : ∀ j ∈ subtreesList nodes', j ∈ subtreesList nodes ∨
    pstate.p_rtable.length < j.rtindex ∧ j.EnteredAsJoin pstate'

namespace EntersJoins

/-- Items already entered are left as they are. -/
theorem unchanged {pstate : ParseState} {nodes : List JoinNode} (hpad : pstate.JoinexprsPadded)
    (he : ∀ node ∈ nodes, node.enteredIn pstate.p_rtable) : EntersJoins pstate pstate nodes nodes :=
  ⟨List.prefix_refl _, List.prefix_refl _, hpad, he, fun _ h => .inl h⟩

/-- Runs over two lists, one after the other, make a run over their concatenation. -/
theorem append {pstate pstate₁ pstate₂ : ParseState} {xs xs' ys ys' : List JoinNode}
    (h₁ : EntersJoins pstate pstate₁ xs xs') (h₂ : EntersJoins pstate₁ pstate₂ ys ys') :
    EntersJoins pstate pstate₂ (xs ++ ys) (xs' ++ ys') where
  rtable := h₁.rtable.trans h₂.rtable
  joinexprs := h₁.joinexprs.trans h₂.joinexprs
  padded := h₂.padded
  entered node hnode := by
    rcases List.mem_append.mp hnode with h | h
    · exact JoinNode.enteredIn_of_isPrefix h₂.rtable (h₁.entered node h)
    · exact h₂.entered node h
  built j hj := by
    rw [subtreesList_append, List.mem_append] at hj ⊢
    rcases hj with hj | hj
    · rcases h₁.built j hj with h | ⟨hlt, hj⟩
      · exact .inl (.inl h)
      · exact .inr ⟨hlt, hj.of_isPrefix h₂.rtable h₂.joinexprs⟩
    · rcases h₂.built j hj with h | ⟨hlt, hj⟩
      · exact .inl (.inr h)
      · exact .inr ⟨h₁.rtable.length_le.trans_lt hlt, hj⟩

end EntersJoins

/-- Entering a new join over two inputs a run has entered: the join gets the next entry,
holding its inputs' columns, and `p_joinexprs` holds it there. -/
theorem EntersJoins.enterJoin {pstate pstate₂ : ParseState} {jointype : JoinType}
    {larg rarg larg' rarg' : JoinNode} {quals : Option Expr}
    (h : EntersJoins pstate pstate₂ [larg, rarg] [larg', rarg']) :
    EntersJoins pstate
      { addRangeTableEntryForJoin pstate₂
          ((expandRTEAt pstate₂ larg'.rtindex).1 ++ (expandRTEAt pstate₂ rarg'.rtindex).1) jointype
          ((expandRTEAt pstate₂ larg'.rtindex).2 ++ (expandRTEAt pstate₂ rarg'.rtindex).2) with
        p_joinexprs := padJoinexprs pstate₂.p_joinexprs (pstate₂.p_rtable.length + 1)
          (.joinExpr jointype larg' rarg' quals (pstate₂.p_rtable.length + 1)) }
      [.joinExpr jointype larg rarg quals 0]
      [.joinExpr jointype larg' rarg' quals (pstate₂.p_rtable.length + 1)] := by
  obtain ⟨hrt, hjx, hpad, hent, hbuilt⟩ := h
  have hl := JoinNode.rtindex_bounds_of_enteredIn (hent larg' (by simp))
  have hr := JoinNode.rtindex_bounds_of_enteredIn (hent rarg' (by simp))
  have hlt : pstate₂.p_joinexprs.length < pstate₂.p_rtable.length + 1 := Nat.lt_succ_of_le hpad.1
  have hjx₄ : pstate₂.p_joinexprs <+: padJoinexprs pstate₂.p_joinexprs
      (pstate₂.p_rtable.length + 1)
      (.joinExpr jointype larg' rarg' quals (pstate₂.p_rtable.length + 1)) :=
    (List.prefix_append _ _).trans (List.prefix_append _ _)
  refine ⟨hrt.trans isPrefix_addRangeTableEntryForJoin, hjx.trans hjx₄, hpad.enterJoin _ _ _ _,
    List.forall_mem_singleton.mpr ?_, fun j hj => ?_⟩
  · -- the new join names the entry just appended, over inputs entered before
    simp only [JoinNode.enteredIn, Bool.and_eq_true]
    exact ⟨⟨isJoinEntry_iff.mpr ⟨Nat.succ_pos _, _, rtFetch_addRangeTableEntryForJoin, rfl⟩,
      JoinNode.enteredIn_of_isPrefix isPrefix_addRangeTableEntryForJoin (hent larg' (by simp))⟩,
      JoinNode.enteredIn_of_isPrefix isPrefix_addRangeTableEntryForJoin (hent rarg' (by simp))⟩
  simp only [subtreesList, JoinNode.subtrees, List.append_nil, List.mem_cons,
    List.mem_append] at hj hbuilt ⊢
  rcases hj with rfl | hj
  · -- the new join itself
    refine .inr ⟨by have := hrt.length_le; simp only [JoinNode.rtindex]; omega, hl.1,
      by omega, hr.1, by omega, ⟨_, rtFetch_addRangeTableEntryForJoin, rfl, rfl, ?_, ?_⟩,
      getElem?_padJoinexprs_self hlt⟩ <;>
    rw [expandRTEAt_enterJoin hl.1 hl.2, expandRTEAt_enterJoin hr.1 hr.2]
  · -- a subtree of an input
    rcases hbuilt j hj with hold | ⟨hlt', hnew⟩
    · exact .inl (.inr hold)
    · exact .inr ⟨hlt', hnew.of_isPrefix isPrefix_addRangeTableEntryForJoin hjx₄⟩

/-- **`analyze_new_join` on one item** the loop may leave: a run that enters every new
join of the item, and reports the index of the item it returns. -/
theorem analyzeNewJoin_entersJoins : ∀ {pstate : ParseState} {node : JoinNode},
    node.indexedIn pstate.p_rtable → pstate.JoinexprsPadded →
    EntersJoins pstate (analyzeNewJoin pstate node).1 [node] [(analyzeNewJoin pstate node).2.1] ∧
      (analyzeNewJoin pstate node).2.2.1 = (analyzeNewJoin pstate node).2.1.rtindex
  | _, .rangeTblRef _, hi, hpad => ⟨.unchanged hpad (List.forall_mem_singleton.mpr hi), rfl⟩
  | _, .joinExpr _ _ _ _ (_ + 1), hi, hpad =>
    ⟨.unchanged hpad (List.forall_mem_singleton.mpr hi), rfl⟩
  | _, .fromExpr _ _, hi, _ => by simp [JoinNode.indexedIn, JoinNode.enteredIn] at hi
  | pstate, .joinExpr jointype larg rarg quals 0, hi, hpad => by
    simp only [JoinNode.indexedIn, Bool.and_eq_true] at hi
    rcases hl : analyzeNewJoin pstate larg with ⟨pstate₁, larg', lIndex, _⟩
    obtain ⟨hL, rfl⟩ : EntersJoins pstate pstate₁ [larg] [larg'] ∧ lIndex = larg'.rtindex := by
      simpa only [hl] using analyzeNewJoin_entersJoins hi.1 hpad
    rcases hr : analyzeNewJoin pstate₁ rarg with ⟨pstate₂, rarg', rIndex, _⟩
    obtain ⟨hR, rfl⟩ : EntersJoins pstate₁ pstate₂ [rarg] [rarg'] ∧ rIndex = rarg'.rtindex := by
      simpa only [hr] using
        analyzeNewJoin_entersJoins (JoinNode.indexedIn_of_isPrefix hL.rtable hi.2) hL.padded
    have hbounds := JoinNode.rtindex_bounds_of_enteredIn (hL.entered larg' (List.mem_singleton_self _))
    simp only [analyzeNewJoin, hl, hr, length_p_rtable_addRangeTableEntryForJoin,
      p_joinexprs_addRangeTableEntryForJoin]
    rw [← expandRTEAt_of_isPrefix hR.rtable hbounds.1 hbounds.2]
    exact ⟨hL.append hR |>.enterJoin, rfl⟩

/-- `analyze_new_join` over the list of a `FromExpr`, whose items the loop may leave. -/
theorem analyzeNewJoinList_entersJoins : ∀ {pstate : ParseState} {items : List JoinNode},
    (∀ item ∈ items, item.indexedIn pstate.p_rtable) → pstate.JoinexprsPadded →
    EntersJoins pstate (analyzeNewJoinList pstate items).1 items (analyzeNewJoinList pstate items).2.1
  | _, [], _, hpad => .unchanged hpad (fun _ h => nomatch h)
  | pstate, item :: rest, hi, hpad => by
    rw [List.forall_mem_cons] at hi
    rcases h₁ : analyzeNewJoin pstate item with ⟨pstate₁, item', _, _⟩
    have hI : EntersJoins pstate pstate₁ [item] [item'] := by
      simpa only [h₁] using (analyzeNewJoin_entersJoins hi.1 hpad).1
    rcases h₂ : analyzeNewJoinList pstate₁ rest with ⟨pstate₂, rest', _⟩
    have hR : EntersJoins pstate₁ pstate₂ rest rest' := by
      simpa only [h₂] using analyzeNewJoinList_entersJoins
        (fun node h => JoinNode.indexedIn_of_isPrefix hI.rtable (hi.2 node h)) hI.padded
    simp only [analyzeNewJoinList, h₁, h₂]
    exact hI.append hR

/-! ## The rewrite -/

/-- **The `(+)` rewrite enters the joins it builds.** Take a FROM list of entered items
with distinct tables and a padded `p_joinexprs`, as `transformFromClause` leaves them.
After `transformFromAndWhere`, on any path: the range table and `p_joinexprs` have only
grown at their ends, so every earlier entry keeps its index; every join of the FROM list
names a JOIN entry and every table an entry; every join the rewrite built, the ones past
the old end of the range table, names a JOIN entry whose column names and alias Vars are
those of its left input followed by those of its right one, and `p_joinexprs` holds it at
its index; and `p_joinexprs` is still no longer than the range table and NULL at every
entry that is not a JOIN. -/
theorem transformFromAndWhere_enters_joins (canonicalizeQual : Expr → Expr)
    {pstate : ParseState} (hitems : ∀ item ∈ pstate.p_joinlist, item.enteredIn pstate.p_rtable)
    (hnd : (leavesList pstate.p_joinlist).Nodup) (hpad : pstate.JoinexprsPadded)
    {quals : Option Expr} {pstate' : ParseState} {quals' : Option Expr}
    (h : transformFromAndWhere canonicalizeQual pstate quals = .ok (pstate', quals')) :
    pstate.p_rtable <+: pstate'.p_rtable ∧
      (∀ item ∈ pstate'.p_joinlist, item.enteredIn pstate'.p_rtable) ∧
      (∀ j ∈ subtreesList pstate'.p_joinlist, pstate.p_rtable.length < j.rtindex →
        j.EnteredAsJoin pstate') ∧
      pstate.p_joinexprs <+: pstate'.p_joinexprs ∧ pstate'.JoinexprsPadded := by
  have hidx := fun item h => JoinNode.indexedIn_of_enteredIn (hitems item h)
  -- every path is a run of `analyze_new_join` over items the loop may leave
  obtain ⟨items, hitems', hrun⟩ : ∃ items, (∀ item ∈ items, item.indexedIn pstate.p_rtable) ∧
      EntersJoins pstate pstate' items pstate'.p_joinlist := by
    unfold transformFromAndWhere at h
    split_ifs at h
    · cases h
      exact ⟨_, hidx, .unchanged hpad hitems⟩
    · cases h
      exact ⟨_, hidx, .unchanged hpad hitems⟩
    obtain ⟨_, -, h⟩ := except_bind_eq_ok.mp h
    obtain ⟨loop, hloop, h⟩ := except_bind_eq_ok.mp h
    obtain ⟨items, hfrom, hitems'⟩ := pullupJoinQuals_indexedIn hidx hnd hloop
    rw [hfrom] at h
    cases h
    obtain ⟨hrt, hjx, hpad', hent, hbuilt⟩ := @analyzeNewJoinList_entersJoins
      { pstate with p_save_namespace := pstate.p_namespace } items hitems' hpad
    exact ⟨items, hitems', hrt, hjx, hpad', hent, hbuilt⟩
  refine ⟨hrun.rtable, hrun.entered, fun j hj hlt => ?_, hrun.joinexprs, hrun.padded⟩
  rcases hrun.built j hj with hold | ⟨-, hnew⟩
  · -- a subtree the run started from has an index within the old range table
    obtain ⟨node, hnode, hsub⟩ := mem_subtreesList.mp hold
    have := JoinNode.rtindex_le_of_mem_subtrees (hitems' node hnode) hsub
    omega
  · exact hnew

/-- `FROM t1, t2 WHERE t1.a = t2.a(+)`: the rewrite enters `t1 LEFT JOIN t2` as entry 3. -/
theorem transformFromAndWhere_enters_joins_left_join :
    ∃ pstate' quals', transformFromAndWhere id (relationsFrom 2)
        (some (int4Eq (.var { varno := 1, varattno := 1 })
          (.columnRefJoin { varno := 2, varattno := 1 } 0))) = .ok (pstate', quals') ∧
      (relationsFrom 2).p_rtable <+: pstate'.p_rtable ∧
      (∀ item ∈ pstate'.p_joinlist, item.enteredIn pstate'.p_rtable) ∧
      (∀ j ∈ subtreesList pstate'.p_joinlist, (relationsFrom 2).p_rtable.length < j.rtindex →
        j.EnteredAsJoin pstate') ∧
      (relationsFrom 2).p_joinexprs <+: pstate'.p_joinexprs ∧ pstate'.JoinexprsPadded := by
  refine ⟨_, _, rfl, ?_⟩
  exact @transformFromAndWhere_enters_joins id (relationsFrom 2) (by decide) (by decide)
    ⟨Nat.zero_le _, fun _ _ _ _ => rfl⟩ (some (int4Eq (.var { varno := 1, varattno := 1 })
      (.columnRefJoin { varno := 2, varattno := 1 } 0))) _ _ (by rfl)

/-! ## A join that was there before -/

/-- The parse state `FROM t1 JOIN t2 USING (a), t3` leaves. The join is entry 3; its columns
are the merged `a`, then the other columns of each side, the way `transformFromClauseItem`
(parse_clause.c) enters a USING join; `t3` is entry 4. -/
def usingJoinFrom : ParseState :=
  let join := JoinNode.joinExpr .inner (.rangeTblRef 1) (.rangeTblRef 2)
    (some (int4Eq (.var { varno := 1, varattno := 1 }) (.var { varno := 2, varattno := 1 }))) 3
  { relationsFrom 2 with
    p_rtable := (relationsFrom 2).p_rtable ++
      [⟨.join, 0, false, none, "unnamed_join", ["a", "b", "b"], 0, .inner,
        [.var { varno := 1, varattno := 1 }, .var { varno := 1, varattno := 2 },
         .var { varno := 2, varattno := 2 }]⟩,
       ⟨.relation, 16386, true, none, "t3", ["a", "b"], 2, .inner, []⟩]
    p_joinexprs := [none, none, some join]
    p_joinlist := [join, .rangeTblRef 4]
    p_namespace := [⟨1, true, false, false, true⟩, ⟨2, true, false, false, true⟩,
      ⟨3, false, true, false, true⟩, ⟨4, true, true, false, true⟩] }

/-- `FROM t1 JOIN t2 USING (a), t3 WHERE t1.b = t3.b(+)`, over a FROM list as
`transformFromClause` leaves it: the rewrite builds `(t1 JOIN t2 USING (a)) LEFT JOIN t3`
and keeps the USING join, entry 3, in the new tree. That entry's column names are the
merged `a, b, b`, not `a, b, a, b`, the column names of its inputs concatenated. -/
theorem transformFromAndWhere_keeps_using_join :
    (∀ item ∈ usingJoinFrom.p_joinlist, item.enteredIn usingJoinFrom.p_rtable) ∧
    (leavesList usingJoinFrom.p_joinlist).Nodup ∧ usingJoinFrom.JoinexprsPadded ∧
    ∃ pstate' quals', transformFromAndWhere id usingJoinFrom
        (some (int4Eq (.var { varno := 1, varattno := 2 })
          (.columnRefJoin { varno := 4, varattno := 2 } 0))) = .ok (pstate', quals') ∧
      .joinExpr .inner (.rangeTblRef 1) (.rangeTblRef 2)
        (some (int4Eq (.var { varno := 1, varattno := 1 }) (.var { varno := 2, varattno := 1 }))) 3
        ∈ subtreesList pstate'.p_joinlist ∧
      (rtFetch 3 pstate'.p_rtable).map (·.colnames) = some ["a", "b", "b"] ∧
      (expandRTEAt pstate' 1).1 ++ (expandRTEAt pstate' 2).1 = ["a", "b", "a", "b"] :=
  ⟨by decide, by decide, ⟨by decide, fun i rte h hk => by
    match i, h with
    | 0, _ | 1, _ | 3, _ => rfl
    | 2, h => cases h; exact absurd rfl hk
    | _ + 4, h => cases h⟩,
   _, _, rfl, by simp [subtreesList, JoinNode.subtrees], rfl, rfl⟩

/-! ## One pass is enough -/

/-- A list of expressions holds a marker iff one of them does. -/
theorem haveOraColumnJoinList_eq_false {es : List Expr} :
    haveOraColumnJoinList es = false ↔ ∀ e ∈ es, haveOraColumnJoin e = false := by
  induction es with
  | nil => simp [haveOraColumnJoinList]
  | cons e es ih => simp [haveOraColumnJoinList, ih]

/-- A WHERE without a marker is left alone. -/
theorem transformFromAndWhere_of_markerFree (canonicalizeQual : Expr → Expr)
    (pstate : ParseState) {quals : Option Expr} (h : quals.all (!haveOraColumnJoin ·) = true) :
    transformFromAndWhere canonicalizeQual pstate quals = .ok (pstate, quals) := by
  simp [transformFromAndWhere, h]

/-- The loop keeps only stripped conjuncts in WHERE. -/
theorem pullupJoinQuals_markerFree : ∀ {infos : List JoinExprInfo} {loop loop' : FromAndWhereLoop},
    pullupJoinQuals loop infos = .ok loop' → (∀ e ∈ loop.kept, haveOraColumnJoin e = false) →
    ∀ e ∈ loop'.kept, haveOraColumnJoin e = false := by
  intro infos
  induction infos with
  | nil => intro loop loop' h hkept; cases h; exact hkept
  | cons jinfo rest ih =>
    intro loop loop' h hkept
    unfold pullupJoinQuals at h
    split_ifs at h
    · refine ih h fun e he => ?_
      rcases List.mem_append.mp he with he | he
      · exact hkept e he
      · rw [List.mem_singleton.mp he, haveOraColumnJoin_removeColumnJoinExpr]
    · obtain ⟨⟨found, _, _⟩, -, h⟩ := except_bind_eq_ok.mp h
      dsimp only at h
      split_ifs at h
      · exact ih h hkept

/-- The WHERE left for stripped conjuncts holds no marker. -/
theorem keptQuals_markerFree {es : List Expr} (h : ∀ e ∈ es, haveOraColumnJoin e = false) :
    (keptQuals es).all (!haveOraColumnJoin ·) = true := by
  unfold keptQuals
  split
  · rfl
  · simpa using h _ (List.mem_singleton_self _)
  · simpa [makeAndExpr, haveOraColumnJoin] using haveOraColumnJoinList_eq_false.mpr h

/-- **The `(+)` rewrite is done in one pass.** Running `transformFromAndWhere` again on the
parse state and WHERE it returns changes nothing; and over a non-empty FROM list, the WHERE
it returns holds no marker, whichever path it took. -/
theorem transformFromAndWhere_idempotent (canonicalizeQual : Expr → Expr)
    {pstate pstate' : ParseState} {quals quals' : Option Expr}
    (h : transformFromAndWhere canonicalizeQual pstate quals = .ok (pstate', quals')) :
    (pstate.p_joinlist ≠ [] → quals'.all (!haveOraColumnJoin ·) = true) ∧
      transformFromAndWhere canonicalizeQual pstate' quals' = .ok (pstate', quals') := by
  unfold transformFromAndWhere at h
  split_ifs at h with hskip hone
  · -- the query is left alone
    cases h
    refine ⟨fun hne => ?_, by simp [transformFromAndWhere, hskip]⟩
    simpa [List.isEmpty_iff, hne] using hskip
  · -- the fast path strips the WHERE
    cases h
    have hfree : (quals.map removeColumnJoinExpr).all (!haveOraColumnJoin ·) = true := by
      cases quals <;> simp [haveOraColumnJoin_removeColumnJoinExpr]
    exact ⟨fun _ => hfree, transformFromAndWhere_of_markerFree canonicalizeQual pstate hfree⟩
  · -- the general path keeps only stripped conjuncts
    obtain ⟨_, -, h⟩ := except_bind_eq_ok.mp h
    obtain ⟨loop, hloop, h⟩ := except_bind_eq_ok.mp h
    cases h
    have hfree := keptQuals_markerFree (pullupJoinQuals_markerFree hloop (by simp))
    exact ⟨fun _ => hfree, transformFromAndWhere_of_markerFree canonicalizeQual _ hfree⟩

/-- Over the USING join: the rewrite's result is left alone by a second run. -/
theorem transformFromAndWhere_idempotent_using_join :
    ∃ pstate' quals', transformFromAndWhere id usingJoinFrom
        (some (int4Eq (.var { varno := 1, varattno := 2 })
          (.columnRefJoin { varno := 4, varattno := 2 } 0))) = .ok (pstate', quals') ∧
      (usingJoinFrom.p_joinlist ≠ [] → quals'.all (!haveOraColumnJoin ·) = true) ∧
      transformFromAndWhere id pstate' quals' = .ok (pstate', quals') := by
  refine ⟨_, _, rfl, ?_⟩
  exact @transformFromAndWhere_idempotent id usingJoinFrom _ (some (int4Eq
    (.var { varno := 1, varattno := 2 }) (.columnRefJoin { varno := 4, varattno := 2 } 0))) _ (by rfl)

end AntdbAnalyze
