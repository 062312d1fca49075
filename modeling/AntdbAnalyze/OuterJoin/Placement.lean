import AntdbAnalyze.OuterJoin.Forest

/-!
# Placing the conjuncts one by one (analyze.c:3178-3309, 3612-3640)

The loop of `transformFromAndWhere` hands each classified conjunct naming two tables to
`pull_up_rel_for_join` over the `FromExpr` of the FROM items. This module says what one
round does, in the two settings the rows theorem of the rewrite meets:

- the walk raises its one error only for a `JOIN_LEFT` conjunct meeting an inner or full
  join, so over trees of LEFT JOINs, and for any `JOIN_INNER` conjunct, it succeeds
  (`pullupRelForJoin_joinTree_ok`), and a conjunct whose two tables the FROM items hold is
  placed (`pullupJoinQuals_place`);
- an item the inner conjuncts have built is a tree of inner joins over trees of outer
  joins (`JoinNode.leftTrees`); a fuse into it lands in one of those trees, or in the ON
  of one of its inner joins when no tree holds both tables
  (`JoinNode.AppendsOn.leftTrees_cases`);
- `analyze_new_join` only numbers the new joins, so the FROM list it returns has the rows
  of the one it is given (`crossRows_analyzeNewJoinList`).
-/

namespace AntdbAnalyze

/-! ## The walk succeeds -/

/-- **No error over LEFT JOINs, nor for an inner conjunct.** On a FROM item, the walk
raises its one error only in the fuse branch, for a `JOIN_LEFT` conjunct meeting a join
that is neither LEFT nor RIGHT. -/
theorem pullupRelForJoin_joinTree_ok {jinfo : JoinExprInfo} :
    ∀ {node : JoinNode}, node.isJoinTree → (jinfo.type = .left → node.isLeftTree) →
      ∀ context, ∃ res, pullupRelForJoin jinfo node context = .ok res
  | .rangeTblRef _, _, _, _ => by
    simp only [pullupRelForJoin]
    split_ifs <;> exact ⟨_, rfl⟩
  | .joinExpr jointype larg rarg quals rtindex, hjt, hleft, context => by
    simp only [JoinNode.isJoinTree, Bool.and_eq_true] at hjt
    have hleft' : jinfo.type = .left →
        jointype = .left ∧ larg.isLeftTree ∧ rarg.isLeftTree := fun h => by
      have := hleft h
      cases jointype <;> simp_all [JoinNode.isLeftTree]
    have hcheck : ¬(jinfo.type = .left && jointype != .left && jointype != .right) = true := by
      simp only [Bool.and_eq_true, decide_eq_true_eq, bne_iff_ne, ne_eq, not_and, not_not]
      exact fun h => absurd (hleft' h.1).1 h.2
    obtain ⟨⟨foundL, larg', myL⟩, hL⟩ :=
      pullupRelForJoin_joinTree_ok hjt.1 (fun h => (hleft' h).2.1) .empty
    obtain ⟨⟨foundR, rarg', myR⟩, hR⟩ :=
      pullupRelForJoin_joinTree_ok hjt.2 (fun h => (hleft' h).2.2) .empty
    -- past the one check that can fail, every branch returns
    simp only [pullupRelForJoin, hL, hR, ok_bind_eq, pure_bind, hcheck]
    repeat' (first | exact ⟨_, rfl⟩ | apply exists_ok_ite)
  | .fromExpr _ _, hjt, _, _ => by simp [JoinNode.isJoinTree] at hjt

/-- The loop over a `FromExpr`'s list succeeds on such items. -/
theorem pullupFromlist_ok {jinfo : JoinExprInfo} : ∀ {items : List JoinNode},
    (∀ item ∈ items, item.isJoinTree ∧ (jinfo.type = .left → item.isLeftTree)) →
      ∀ context, ∃ res, pullupFromlist jinfo items context = .ok res
  | [], _, _ => ⟨_, rfl⟩
  | item :: rest, h, context => by
    rw [List.forall_mem_cons] at h
    obtain ⟨⟨found, item', my⟩, hitem⟩ := pullupRelForJoin_joinTree_ok h.1.1 h.1.2 .empty
    obtain ⟨res, hrest⟩ := pullupFromlist_ok h.2 context
    simp only [pullupFromlist, hitem, ok_bind_eq]
    split_ifs
    · exact ⟨_, rfl⟩
    · exact ⟨_, rfl⟩
    · exact pullupFromlist_ok h.2 _
    · rw [hrest]
      exact ⟨_, rfl⟩

/-- **A conjunct whose two tables the FROM items hold is placed**, into one item or by
joining two: the walk over the `FromExpr` succeeds and reports it placed. -/
theorem pullupRelForJoin_fromExpr_place (jinfo : JoinExprInfo) {items : List JoinNode}
    (hjt : ∀ item ∈ items, item.isJoinTree)
    (hleft : jinfo.type = .left → ∀ item ∈ items, item.isLeftTree)
    (hnd : (leavesList items).Nodup) (hl : jinfo.lrtindex ∈ leavesList items)
    (hr : jinfo.rrtindex ∈ leavesList items) (hne : jinfo.rrtindex ≠ jinfo.lrtindex) :
    ∃ items' context', pullupRelForJoin jinfo (.fromExpr items none) .empty =
      .ok (true, .fromExpr items' none, context') ∧ PullupStep jinfo items items' := by
  obtain ⟨⟨found, items', context'⟩, hlist⟩ :=
    pullupFromlist_ok (fun item h => ⟨hjt item h, fun hj => hleft hj item h⟩) .empty
  have hok : ∃ res, pullupRelForJoin jinfo (.fromExpr items none) .empty = .ok res := by
    simp only [pullupRelForJoin, hlist, ok_bind_eq]
    split_ifs
    · exact ⟨_, rfl⟩
    · split <;> exact ⟨_, rfl⟩
  obtain ⟨⟨found, node', context'⟩, h⟩ := hok
  cases pullupRelForJoin_fromExpr_found hjt hnd hl hr hne h
  obtain ⟨items', rfl, hstep⟩ := pullupRelForJoin_fromExpr hjt hnd h
  exact ⟨items', context', h, hstep⟩

/-- One round of the loop of `transformFromAndWhere` on a conjunct naming two tables that
the FROM items hold: the conjunct, stripped, is placed, and the loop goes on. -/
theorem pullupJoinQuals_place {items : List JoinNode} {jinfo : JoinExprInfo} (kept : List Expr)
    (rest : List JoinExprInfo) (hjt : ∀ item ∈ items, item.isJoinTree)
    (hleft : jinfo.type = .left → ∀ item ∈ items, item.isLeftTree)
    (hnd : (leavesList items).Nodup) (hl : jinfo.lrtindex ∈ leavesList items)
    (hr : jinfo.rrtindex ∈ leavesList items) (hne : jinfo.rrtindex ≠ jinfo.lrtindex)
    (hl0 : jinfo.lrtindex ≠ 0) (hr0 : jinfo.rrtindex ≠ 0) :
    ∃ items', pullupJoinQuals ⟨.fromExpr items none, kept⟩ (jinfo :: rest) =
        pullupJoinQuals ⟨.fromExpr items' none, kept⟩ rest ∧
      PullupStep { jinfo with expr := removeColumnJoinExpr jinfo.expr } items items' := by
  obtain ⟨items', context', h, hstep⟩ :=
    pullupRelForJoin_fromExpr_place { jinfo with expr := removeColumnJoinExpr jinfo.expr }
      hjt hleft hnd hl hr hne
  refine ⟨items', ?_, hstep⟩
  simp only [pullupJoinQuals, hl0, hr0, or_self, if_false, h, ok_bind_eq, if_true]

/-- One round of the loop on a conjunct naming at most one table: it stays in WHERE. -/
theorem pullupJoinQuals_keep (loop : FromAndWhereLoop) {jinfo : JoinExprInfo}
    (rest : List JoinExprInfo) (h0 : jinfo.lrtindex = 0 ∨ jinfo.rrtindex = 0) :
    pullupJoinQuals loop (jinfo :: rest) =
      pullupJoinQuals ⟨loop.from, loop.kept ++ [removeColumnJoinExpr jinfo.expr]⟩ rest := by
  simp only [pullupJoinQuals, h0, if_true]

/-- The loop over two runs of conjuncts is the loop over the first, then the second. -/
theorem pullupJoinQuals_append : ∀ (loop : FromAndWhereLoop) (infos infos' : List JoinExprInfo),
    pullupJoinQuals loop (infos ++ infos') = pullupJoinQuals loop infos >>= (pullupJoinQuals · infos')
  | loop, [], infos' => rfl
  | loop, jinfo :: rest, infos' => by
    simp only [List.cons_append, pullupJoinQuals]
    split_ifs
    · exact pullupJoinQuals_append _ rest infos'
    · cases pullupRelForJoin { jinfo with expr := removeColumnJoinExpr jinfo.expr } loop.from .empty with
      | error err => rfl
      | ok res =>
        simp only [ok_bind_eq]
        split_ifs
        · exact pullupJoinQuals_append _ rest infos'
        · rfl

/-! ## Fuses into an item of inner joins -/

@[simp] theorem qualHolds_appendJoinQual (sem : ExprSem) (rownum : Int) (quals : Option Expr)
    (e : Expr) (row : Row) :
    qualHolds sem rownum (some (appendJoinQual quals e)) row =
      (qualHolds sem rownum quals row && e.holds sem row rownum) := by
  cases quals <;> simp [appendJoinQual, qualHolds, makeAndExpr]

/-- An ON with a conjunct appended reads what both read. -/
theorem QualReads.append {sem : ExprSem} {quals : Option Expr} {e : Expr} {s : List Nat}
    (hq : QualReads sem quals s) (he : QualReads sem (some e) s) :
    QualReads sem (some (appendJoinQual quals e)) s := fun row row' h => by
  have he' : e.holds sem row 0 = e.holds sem row' 0 := he row row' h
  rw [qualHolds_appendJoinQual, qualHolds_appendJoinQual, hq row row' h, he']

/-- The tables of one of an item's trees are tables of the item. -/
theorem JoinNode.mem_leaves_of_mem_leftTrees {node T : JoinNode} (hT : T ∈ node.leftTrees)
    {t : Nat} (ht : t ∈ T.leaves) : t ∈ node.leaves := by
  rw [← node.leavesList_leftTrees, leavesList_eq_flatMap, List.mem_flatMap]
  exact ⟨T, hT, ht⟩

/-- **Where a fuse lands in an item of inner joins.** Either in one of the item's trees of
outer joins, the item's inner joins untouched; or, when no tree holds both tables, in the
ON of one of its inner joins, the trees untouched. -/
theorem JoinNode.AppendsOn.leftTrees_cases {jinfo : JoinExprInfo} {node node' : JoinNode}
    (h : node.AppendsOn jinfo node') : node.leaves.Nodup →
    (∃ pre T T' post, node.leftTrees = pre ++ T :: post ∧ node'.leftTrees = pre ++ T' :: post ∧
        T.AppendsOn jinfo T' ∧ node'.innerQuals = node.innerQuals) ∨
      (node'.leftTrees = node.leftTrees ∧
        (∀ T ∈ node.leftTrees, ¬(jinfo.lrtindex ∈ T.leaves ∧ jinfo.rrtindex ∈ T.leaves)) ∧
        ∃ pre q post, node.innerQuals = pre ++ q :: post ∧
          node'.innerQuals = pre ++ some (appendJoinQual q jinfo.expr) :: post) := by
  induction h with
  | @here jointype larg rarg quals rtindex hsides =>
    intro hnd
    cases jointype
    case inner =>
      refine .inr ⟨rfl, fun T hT hboth => ?_, larg.innerQuals ++ rarg.innerQuals, quals, [],
        by simp [JoinNode.innerQuals], by simp [JoinNode.innerQuals]⟩
      rw [JoinNode.leaves, List.nodup_append] at hnd
      simp only [JoinNode.leftTrees, List.mem_append] at hT
      rcases hT with hT | hT
      · have hl := JoinNode.mem_leaves_of_mem_leftTrees hT hboth.1
        have hr := JoinNode.mem_leaves_of_mem_leftTrees hT hboth.2
        rcases hsides with ⟨-, hr'⟩ | ⟨-, hl'⟩
        exacts [hnd.2.2 hr hr', hnd.2.2 hl hl']
      · have hl := JoinNode.mem_leaves_of_mem_leftTrees hT hboth.1
        have hr := JoinNode.mem_leaves_of_mem_leftTrees hT hboth.2
        rcases hsides with ⟨hl', -⟩ | ⟨hr', -⟩
        exacts [hnd.2.2 hl' hl, hnd.2.2 hr' hr]
    all_goals exact .inl ⟨[], _, _, [], rfl, rfl, .here hsides, rfl⟩
  | @left jointype larg larg' rarg quals rtindex happ ih =>
    intro hnd
    cases jointype
    case inner =>
      rw [JoinNode.leaves, List.nodup_append] at hnd
      rcases ih hnd.1 with
        ⟨pre, T, T', post, h₁, h₂, hT, hq⟩ | ⟨h₁, hsep, pre, q, post, h₂, h₃⟩
      · exact .inl ⟨pre, T, T', post ++ rarg.leftTrees, by simp [JoinNode.leftTrees, h₁],
          by simp [JoinNode.leftTrees, h₂], hT, by simp [JoinNode.innerQuals, hq]⟩
      refine .inr ⟨by simp [JoinNode.leftTrees, h₁], fun T hT hboth => ?_, pre, q,
        post ++ rarg.innerQuals ++ [quals], by simp [JoinNode.innerQuals, h₂],
        by simp [JoinNode.innerQuals, h₃]⟩
      simp only [JoinNode.leftTrees, List.mem_append] at hT
      rcases hT with hT | hT
      · exact hsep T hT hboth
      · exact hnd.2.2 happ.mem_leaves.1 (JoinNode.mem_leaves_of_mem_leftTrees hT hboth.1)
    all_goals exact .inl ⟨[], _, _, [], rfl, rfl, .left happ, rfl⟩
  | @right jointype larg rarg rarg' quals rtindex happ ih =>
    intro hnd
    cases jointype
    case inner =>
      rw [JoinNode.leaves, List.nodup_append] at hnd
      rcases ih hnd.2.1 with
        ⟨pre, T, T', post, h₁, h₂, hT, hq⟩ | ⟨h₁, hsep, pre, q, post, h₂, h₃⟩
      · exact .inl ⟨larg.leftTrees ++ pre, T, T', post, by simp [JoinNode.leftTrees, h₁],
          by simp [JoinNode.leftTrees, h₂], hT, by simp [JoinNode.innerQuals, hq]⟩
      refine .inr ⟨by simp [JoinNode.leftTrees, h₁], fun T hT hboth => ?_,
        larg.innerQuals ++ pre, q, post ++ [quals], by simp [JoinNode.innerQuals, h₂],
        by simp [JoinNode.innerQuals, h₃]⟩
      simp only [JoinNode.leftTrees, List.mem_append] at hT
      rcases hT with hT | hT
      · exact hnd.2.2 (JoinNode.mem_leaves_of_mem_leftTrees hT hboth.1) happ.mem_leaves.1
      · exact hsep T hT hboth
    all_goals exact .inl ⟨[], _, _, [], rfl, rfl, .right happ, rfl⟩

/-- A fuse of a conjunct reading only its two tables keeps every inner join's ON reading
only the join's inputs. -/
theorem JoinNode.AppendsOn.innerReads {sem : ExprSem} {jinfo : JoinExprInfo} {node node' : JoinNode}
    (h : node.AppendsOn jinfo node')
    (he : QualReads sem (some jinfo.expr) [jinfo.lrtindex, jinfo.rrtindex]) :
    node.InnerReads sem → node'.InnerReads sem := by
  induction h with
  | @here jointype larg rarg quals rtindex hsides =>
    intro hreads
    cases jointype
    case inner =>
      refine ⟨hreads.1, hreads.2.1, hreads.2.2.append (he.mono fun i hi => ?_)⟩
      simp only [List.mem_cons, List.mem_singleton, List.not_mem_nil, or_false] at hi
      rcases hi with rfl | rfl <;> rcases hsides with ⟨h₁, h₂⟩ | ⟨h₁, h₂⟩ <;>
        simp [h₁, h₂]
    all_goals trivial
  | @left jointype larg larg' rarg quals rtindex happ ih =>
    intro hreads
    cases jointype
    case inner => exact ⟨ih hreads.1, hreads.2.1, by rw [happ.leaves_eq]; exact hreads.2.2⟩
    all_goals trivial
  | @right jointype larg rarg rarg' quals rtindex happ ih =>
    intro hreads
    cases jointype
    case inner => exact ⟨hreads.1, ih hreads.2.1, by rw [happ.leaves_eq]; exact hreads.2.2⟩
    all_goals trivial

/-- An element of a list, given in a permutation of `F.map w`, replaced by its image under
a map `w'` that agrees with `w` on the rest of `F`, gives a permutation of `F.map w'`. -/
theorem perm_map_of_update {α β : Type} {F : List α} (hF : F.Nodup) {w w' : α → β} {I : α}
    (hI : I ∈ F) (hw : ∀ K ∈ F, K ≠ I → w' K = w K) {pre post : List β}
    (h : (pre ++ w I :: post).Perm (F.map w)) : (pre ++ w' I :: post).Perm (F.map w') := by
  obtain ⟨s, t, rfl⟩ := List.append_of_mem hI
  have hnot : I ∉ s ++ t := (List.nodup_cons.mp (List.nodup_middle.mp hF)).1
  have hmap : (s ++ t).map w' = (s ++ t).map w := List.map_congr_left fun K hK =>
    hw K (by simp only [List.mem_append, List.mem_cons] at hK ⊢; tauto) fun he => hnot (he ▸ hK)
  simp only [List.map_append, List.map_cons] at h hmap ⊢
  have hrest : (pre ++ post).Perm (s.map w ++ t.map w) :=
    (List.perm_middle.symm.trans (h.trans List.perm_middle)).cons_inv
  exact List.perm_middle.trans (((hmap ▸ hrest).cons _).trans List.perm_middle.symm)

/-! ## Numbering the new joins -/

mutual
/-- `analyze_new_join` only numbers joins: the tree it returns has the rows of the one it
is given. -/
theorem JoinNode.eval_analyzeNewJoin (sem : ExprSem) (db : Database) :
    ∀ (pstate : ParseState) (node : JoinNode),
      (analyzeNewJoin pstate node).2.1.eval sem db = node.eval sem db
  | pstate, .joinExpr jointype larg rarg quals 0 => by
    rcases hl : analyzeNewJoin pstate larg with ⟨pstate₁, larg', lIndex, _⟩
    rcases hr : analyzeNewJoin pstate₁ rarg with ⟨pstate₂, rarg', rIndex, _⟩
    have hL : larg'.eval sem db = larg.eval sem db := by
      simpa only [hl] using JoinNode.eval_analyzeNewJoin sem db pstate larg
    have hR : rarg'.eval sem db = rarg.eval sem db := by
      simpa only [hr] using JoinNode.eval_analyzeNewJoin sem db pstate₁ rarg
    simp only [analyzeNewJoin, hl, hr, JoinNode.eval, hL, hR]
  | _, .joinExpr _ _ _ _ (_ + 1) | _, .rangeTblRef _ => rfl
  | pstate, .fromExpr fromlist quals => by
    simp only [analyzeNewJoin, JoinNode.eval, crossRows_analyzeNewJoinList sem db pstate fromlist]

/-- The list form of `JoinNode.eval_analyzeNewJoin`. -/
theorem crossRows_analyzeNewJoinList (sem : ExprSem) (db : Database) :
    ∀ (pstate : ParseState) (items : List JoinNode),
      crossRows sem db (analyzeNewJoinList pstate items).2.1 = crossRows sem db items
  | _, [] => rfl
  | pstate, item :: rest => by
    rcases h₁ : analyzeNewJoin pstate item with ⟨pstate₁, item', _, _⟩
    rcases h₂ : analyzeNewJoinList pstate₁ rest with ⟨pstate₂, rest', _⟩
    have hI : item'.eval sem db = item.eval sem db := by
      simpa only [h₁] using JoinNode.eval_analyzeNewJoin sem db pstate item
    have hR : crossRows sem db rest' = crossRows sem db rest := by
      simpa only [h₂] using crossRows_analyzeNewJoinList sem db pstate₁ rest
    simp only [analyzeNewJoinList, h₁, h₂, crossRows, hI, hR]
end

end AntdbAnalyze
