import AntdbAnalyze.OuterJoin.Meaning
import Mathlib.Logic.Relation

/-!
# The `(+)` rewrite loses and duplicates nothing (analyze.c:3159-3669)

`pullup_rel_for_join` deletes items from a `FromExpr`'s list while it walks it, and hands a
whole join up in place of the table it looks for; `get_join_qual_exprs` ANDs conjuncts
into shared entries. This module follows every table, subtree and conjunct through the
rewrite, over FROM lists as `transformFromClause` leaves them: trees of `JoinExpr`s over
`RangeTblRef`s, distinct tables, every join registered.

- `pullupRelForJoin_cases`: one walk over a FROM item either ANDs the conjunct into the
  ON of one of its joins (`JoinNode.AppendsOn`), or leaves the item as it was and hands
  it back on each side whose table it holds (`JoinNode.PullupOutcome`), by induction on
  the item with one step lemma for a join (`pullupRelForJoin_joinExpr_outcome`);
- `pullupFromlist_cases`: the walk over a list fuses into one item, or moves the items
  holding the tables into the context; no deleted item is lost;
- `PullupStep`: what placing one conjunct does to the FROM list, and what it keeps;
- `getJoinQualExprs_andLeaves`: the classified entries hold the conjuncts of the
  canonicalized WHERE, ANDs flattened;
- **`transformFromAndWhere_conserves`**: the rewritten FROM list has the same tables, every
  old subtree survives up to conjuncts appended to ON clauses (`JoinNode.Extends`), and
  the conjuncts of the ON clauses and the returned WHERE are those of the old ON clauses
  and of the WHERE the path splits, stripped. The general path splits the canonicalized
  WHERE; the single-item fast path never canonicalizes
  (`transformFromAndWhere_fast_path_skips_canonical`).
-/

namespace AntdbAnalyze

/-! ## Tables, subtrees and conjuncts of a FROM tree -/

/-- A FROM item as `transformFromClause` puts one in `p_joinlist`: `JoinExpr`s over
`RangeTblRef`s, with no `FromExpr` inside. -/
def JoinNode.isJoinTree : JoinNode → Bool
  | .rangeTblRef _ => true
  | .joinExpr _ larg rarg _ _ => larg.isJoinTree && rarg.isJoinTree
  | .fromExpr _ _ => false

mutual
/-- The range-table indexes of a tree's `RangeTblRef` leaves. -/
def JoinNode.leaves : JoinNode → List Nat
  | .rangeTblRef rtindex => [rtindex]
  | .joinExpr _ larg rarg _ _ => larg.leaves ++ rarg.leaves
  | .fromExpr fromlist _ => leavesList fromlist

/-- The leaves of the trees of a list. -/
def leavesList : List JoinNode → List Nat
  | [] => []
  | node :: rest => node.leaves ++ leavesList rest
end

mutual
/-- The conjuncts of an expression, ANDs flattened at every depth. -/
def Expr.andLeaves : Expr → List Expr
  | .boolExpr .andExpr args => andLeavesList args
  | e => [e]

/-- The flattened conjuncts of a list of conjuncts. -/
def andLeavesList : List Expr → List Expr
  | [] => []
  | e :: es => e.andLeaves ++ andLeavesList es
end

/-- The flattened conjuncts of an optional qualifier. -/
def qualLeaves : Option Expr → List Expr
  | none => []
  | some e => e.andLeaves

mutual
/-- The flattened conjuncts of every ON clause (and `FromExpr` qualifier) of a tree. -/
def JoinNode.onLeaves : JoinNode → List Expr
  | .rangeTblRef _ => []
  | .joinExpr _ larg rarg quals _ => larg.onLeaves ++ rarg.onLeaves ++ qualLeaves quals
  | .fromExpr fromlist quals => onLeavesList fromlist ++ qualLeaves quals

/-- The ON conjuncts of the trees of a list. -/
def onLeavesList : List JoinNode → List Expr
  | [] => []
  | node :: rest => node.onLeaves ++ onLeavesList rest
end

mutual
/-- The subtrees of a tree, itself first. -/
def JoinNode.subtrees : JoinNode → List JoinNode
  | .rangeTblRef rtindex => [.rangeTblRef rtindex]
  | .joinExpr jointype larg rarg quals rtindex =>
    .joinExpr jointype larg rarg quals rtindex :: (larg.subtrees ++ rarg.subtrees)
  | .fromExpr fromlist quals => .fromExpr fromlist quals :: subtreesList fromlist

/-- The subtrees of the trees of a list. -/
def subtreesList : List JoinNode → List JoinNode
  | [] => []
  | node :: rest => node.subtrees ++ subtreesList rest
end

/-- The leaves of a list, as a `flatMap`. -/
@[simp] theorem leavesList_eq_flatMap (nodes : List JoinNode) :
    leavesList nodes = nodes.flatMap JoinNode.leaves := by
  induction nodes with
  | nil => rfl
  | cons node rest ih => rw [leavesList, ih, List.flatMap_cons]

/-- The flattened conjuncts of a list, as a `flatMap`. -/
@[simp] theorem andLeavesList_eq_flatMap (es : List Expr) :
    andLeavesList es = es.flatMap Expr.andLeaves := by
  induction es with
  | nil => rfl
  | cons e rest ih => rw [andLeavesList, ih, List.flatMap_cons]

/-- The ON conjuncts of a list, as a `flatMap`. -/
@[simp] theorem onLeavesList_eq_flatMap (nodes : List JoinNode) :
    onLeavesList nodes = nodes.flatMap JoinNode.onLeaves := by
  induction nodes with
  | nil => rfl
  | cons node rest ih => rw [onLeavesList, ih, List.flatMap_cons]

/-- The subtrees of a list, as a `flatMap`. -/
@[simp] theorem subtreesList_eq_flatMap (nodes : List JoinNode) :
    subtreesList nodes = nodes.flatMap JoinNode.subtrees := by
  induction nodes with
  | nil => rfl
  | cons node rest ih => rw [subtreesList, ih, List.flatMap_cons]

/-- ANDing one more conjunct on concatenates the flattened conjuncts. -/
theorem andLeaves_combineAnd (e e₂ : Expr) :
    (combineAnd e e₂).andLeaves = e.andLeaves ++ e₂.andLeaves := by
  unfold combineAnd
  split <;> simp [makeAndExpr, Expr.andLeaves, andLeavesList]

/-- The fuse branch appends the conjunct's flattened conjuncts to those of the ON. -/
@[simp] theorem qualLeaves_appendJoinQual (quals : Option Expr) (e : Expr) :
    qualLeaves (some (appendJoinQual quals e)) = qualLeaves quals ++ e.andLeaves := by
  cases quals <;> simp [appendJoinQual, qualLeaves, andLeaves_combineAnd, makeAndExpr,
    Expr.andLeaves, andLeavesList]

mutual
/-- Stripping the markers commutes with flattening the conjuncts. -/
theorem andLeaves_removeColumnJoinExpr :
    ∀ e : Expr, (removeColumnJoinExpr e).andLeaves = e.andLeaves.map removeColumnJoinExpr
  | .boolExpr .andExpr args => by
    simp only [removeColumnJoinExpr, Expr.andLeaves, andLeavesList_removeColumnJoinExprList args]
  | .boolExpr .orExpr _ | .boolExpr .notExpr _ | .var _ | .columnRefJoin _ _ | .const _ _ _
  | .opExpr _ _ _ | .funcExpr _ _ | .rownumExpr | .setToDefault _ _ _ => rfl

/-- The list form of `andLeaves_removeColumnJoinExpr`. -/
theorem andLeavesList_removeColumnJoinExprList :
    ∀ es : List Expr,
      andLeavesList (removeColumnJoinExprList es) = (andLeavesList es).map removeColumnJoinExpr
  | [] => rfl
  | e :: es => by
    simp only [removeColumnJoinExprList, andLeavesList, andLeaves_removeColumnJoinExpr e,
      andLeavesList_removeColumnJoinExprList es, List.map_append]
end

/-! ## Kept up to appended conjuncts -/

/-- `quals'` is `quals` with zero or more conjuncts appended the way the fuse branch of
`pullup_rel_for_join` appends one. -/
def OnAppended : Option Expr → Option Expr → Prop :=
  Relation.ReflTransGen fun quals quals' => ∃ e, quals' = some (appendJoinQual quals e)

/-- `node'` is the FROM tree `node` kept as it was, up to conjuncts appended to the ON
clauses of its joins: the same leaves, joins, join types and range-table indexes. -/
inductive JoinNode.Extends : JoinNode → JoinNode → Prop
  | rangeTblRef (rtindex : Nat) : JoinNode.Extends (.rangeTblRef rtindex) (.rangeTblRef rtindex)
  | joinExpr {jointype : JoinType} {larg rarg larg' rarg' : JoinNode}
      {quals quals' : Option Expr} {rtindex : Nat} :
      larg.Extends larg' → rarg.Extends rarg' → OnAppended quals quals' →
      JoinNode.Extends (.joinExpr jointype larg rarg quals rtindex)
        (.joinExpr jointype larg' rarg' quals' rtindex)

/-- A FROM item extends itself. -/
theorem JoinNode.Extends.refl : ∀ {node : JoinNode}, node.isJoinTree → node.Extends node
  | .rangeTblRef _, _ => .rangeTblRef _
  | .joinExpr _ _ _ _ _, h => by
    simp only [JoinNode.isJoinTree, Bool.and_eq_true] at h
    exact .joinExpr (Extends.refl h.1) (Extends.refl h.2) .refl
  | .fromExpr _ _, h => by simp [JoinNode.isJoinTree] at h

/-- Extensions compose. -/
theorem JoinNode.Extends.trans {node node' node'' : JoinNode} (h : node.Extends node')
    (h' : node'.Extends node'') : node.Extends node'' := by
  induction h generalizing node'' with
  | rangeTblRef => exact h'
  | joinExpr _ _ hq ihl ihr =>
    cases h' with
    | joinExpr hl' hr' hq' => exact .joinExpr (ihl hl') (ihr hr') (hq.trans hq')

/-- A subtree of a FROM item is a FROM item. -/
theorem JoinNode.isJoinTree_of_mem_subtrees :
    ∀ {node sub : JoinNode}, node.isJoinTree → sub ∈ node.subtrees → sub.isJoinTree
  | .rangeTblRef _, _, h, hsub => by simp_all [JoinNode.subtrees]
  | .joinExpr _ _ _ _ _, _, h, hsub => by
    simp only [JoinNode.isJoinTree, Bool.and_eq_true] at h
    simp only [JoinNode.subtrees, List.mem_cons, List.mem_append] at hsub
    rcases hsub with rfl | hsub | hsub
    · simpa [JoinNode.isJoinTree] using h
    · exact isJoinTree_of_mem_subtrees h.1 hsub
    · exact isJoinTree_of_mem_subtrees h.2 hsub
  | .fromExpr _ _, _, h, _ => by simp [JoinNode.isJoinTree] at h

/-! ## One walk of `pullup_rel_for_join` -/

/-- `node'` is `node` with the conjunct of `jinfo` ANDed into the ON of one of its joins,
whose two inputs hold the conjunct's two tables, one each: the work of the fuse branch of
`pullup_rel_for_join`. -/
inductive JoinNode.AppendsOn (jinfo : JoinExprInfo) : JoinNode → JoinNode → Prop
  | here {jointype : JoinType} {larg rarg : JoinNode} {quals : Option Expr} {rtindex : Nat} :
      (jinfo.lrtindex ∈ larg.leaves ∧ jinfo.rrtindex ∈ rarg.leaves ∨
        jinfo.rrtindex ∈ larg.leaves ∧ jinfo.lrtindex ∈ rarg.leaves) →
      JoinNode.AppendsOn jinfo (.joinExpr jointype larg rarg quals rtindex)
        (.joinExpr jointype larg rarg (some (appendJoinQual quals jinfo.expr)) rtindex)
  | left {jointype : JoinType} {larg larg' rarg : JoinNode} {quals : Option Expr}
      {rtindex : Nat} : JoinNode.AppendsOn jinfo larg larg' →
      JoinNode.AppendsOn jinfo (.joinExpr jointype larg rarg quals rtindex)
        (.joinExpr jointype larg' rarg quals rtindex)
  | right {jointype : JoinType} {larg rarg rarg' : JoinNode} {quals : Option Expr}
      {rtindex : Nat} : JoinNode.AppendsOn jinfo rarg rarg' →
      JoinNode.AppendsOn jinfo (.joinExpr jointype larg rarg quals rtindex)
        (.joinExpr jointype larg rarg' quals rtindex)

namespace JoinNode.AppendsOn

variable {jinfo : JoinExprInfo} {node node' : JoinNode}

/-- A fuse keeps the tables. -/
theorem leaves_eq (h : node.AppendsOn jinfo node') : node'.leaves = node.leaves := by
  induction h <;> simp_all [JoinNode.leaves]

/-- A fuse adds the conjunct's conjuncts to the ON clauses. -/
theorem onLeaves_perm (h : node.AppendsOn jinfo node') :
    node'.onLeaves.Perm (node.onLeaves ++ jinfo.expr.andLeaves) := by
  induction h with
  | here => simp [JoinNode.onLeaves]
  | left _ ih =>
    simp only [JoinNode.onLeaves, List.append_assoc]
    refine (ih.append_right _).trans ?_
    rw [List.append_assoc]
    exact .append_left _ (List.perm_append_comm.trans (by rw [List.append_assoc]))
  | right _ ih =>
    simp only [JoinNode.onLeaves, List.append_assoc]
    refine .append_left _ ((ih.append_right _).trans ?_)
    rw [List.append_assoc]
    exact .append_left _ List.perm_append_comm

/-- A fuse keeps a FROM item a FROM item. -/
theorem isJoinTree (h : node.AppendsOn jinfo node') (hjt : node.isJoinTree) : node'.isJoinTree := by
  induction h <;> simp_all [JoinNode.isJoinTree]

/-- The fused item extends the item. -/
theorem toExtends (h : node.AppendsOn jinfo node') (hjt : node.isJoinTree) : node.Extends node' := by
  induction h with
  | here =>
    simp only [JoinNode.isJoinTree, Bool.and_eq_true] at hjt
    exact .joinExpr (.refl hjt.1) (.refl hjt.2) (.single ⟨jinfo.expr, rfl⟩)
  | left _ ih =>
    simp only [JoinNode.isJoinTree, Bool.and_eq_true] at hjt
    exact .joinExpr (ih hjt.1) (.refl hjt.2) .refl
  | right _ ih =>
    simp only [JoinNode.isJoinTree, Bool.and_eq_true] at hjt
    exact .joinExpr (.refl hjt.1) (ih hjt.2) .refl

/-- Every subtree of the item survives the fuse, extended. -/
theorem extends_subtrees (h : node.AppendsOn jinfo node') (hjt : node.isJoinTree) {sub : JoinNode}
    (hsub : sub ∈ node.subtrees) : ∃ sub' ∈ node'.subtrees, sub.Extends sub' := by
  have hsubjt := JoinNode.isJoinTree_of_mem_subtrees hjt hsub
  induction h with
  | here hsides =>
    simp only [JoinNode.subtrees, List.mem_cons, List.mem_append] at hsub ⊢
    rcases hsub with rfl | hsub | hsub
    · exact ⟨_, .inl rfl, (here hsides).toExtends hjt⟩
    · exact ⟨sub, .inr (.inl hsub), .refl hsubjt⟩
    · exact ⟨sub, .inr (.inr hsub), .refl hsubjt⟩
  | left happ ih =>
    simp only [JoinNode.isJoinTree, Bool.and_eq_true] at hjt
    simp only [JoinNode.subtrees, List.mem_cons, List.mem_append] at hsub ⊢
    rcases hsub with rfl | hsub | hsub
    · exact ⟨_, .inl rfl, .joinExpr (happ.toExtends hjt.1) (.refl hjt.2) .refl⟩
    · obtain ⟨sub', hmem, hext⟩ := ih hjt.1 hsub
      exact ⟨sub', .inr (.inl hmem), hext⟩
    · exact ⟨sub, .inr (.inr hsub), .refl hsubjt⟩
  | right happ ih =>
    simp only [JoinNode.isJoinTree, Bool.and_eq_true] at hjt
    simp only [JoinNode.subtrees, List.mem_cons, List.mem_append] at hsub ⊢
    rcases hsub with rfl | hsub | hsub
    · exact ⟨_, .inl rfl, .joinExpr (.refl hjt.1) (happ.toExtends hjt.2) .refl⟩
    · exact ⟨sub, .inr (.inl hsub), .refl hsubjt⟩
    · obtain ⟨sub', hmem, hext⟩ := ih hjt.2 hsub
      exact ⟨sub', .inr (.inr hmem), hext⟩

end JoinNode.AppendsOn

/-- The context a walk over `node` that places nothing hands back: `node` itself on each
side whose table it holds. The `RangeTblRef` branch tests `lrtindex` first, so a table
named on both sides counts for the left one only. -/
def JoinNode.foundContext (jinfo : JoinExprInfo) (node : JoinNode) : PullupRelForJoinContext :=
  ⟨if jinfo.lrtindex ∈ node.leaves then some node else none,
   if jinfo.rrtindex ∈ node.leaves ∧ jinfo.rrtindex ≠ jinfo.lrtindex then some node else none⟩

/-- `combin_pullup_context` finds the left table when either context has it. -/
@[simp] theorem combinPullupContext_larg_isSome (dest src : PullupRelForJoinContext) :
    (combinPullupContext dest src).2.larg.isSome = (src.larg.isSome || dest.larg.isSome) := by
  cases h : src.larg <;> simp [combinPullupContext, h]

/-- `combin_pullup_context` finds the right table when either context has it. -/
@[simp] theorem combinPullupContext_rarg_isSome (dest src : PullupRelForJoinContext) :
    (combinPullupContext dest src).2.rarg.isSome = (src.rarg.isSome || dest.rarg.isSome) := by
  cases h : src.rarg <;> simp [combinPullupContext, h]

/-- A walk that places nothing finds the left table iff the tree holds it. -/
@[simp] theorem foundContext_larg_isSome (jinfo : JoinExprInfo) (node : JoinNode) :
    (node.foundContext jinfo).larg.isSome = decide (jinfo.lrtindex ∈ node.leaves) := by
  by_cases h : jinfo.lrtindex ∈ node.leaves <;> simp [JoinNode.foundContext, h]

/-- A walk that places nothing finds the right table iff the tree holds it and it is not
also the left one. -/
@[simp] theorem foundContext_rarg_isSome (jinfo : JoinExprInfo) (node : JoinNode) :
    (node.foundContext jinfo).rarg.isSome =
      decide (jinfo.rrtindex ∈ node.leaves ∧ jinfo.rrtindex ≠ jinfo.lrtindex) := by
  by_cases h : jinfo.rrtindex ∈ node.leaves ∧ jinfo.rrtindex ≠ jinfo.lrtindex
  · simp only [JoinNode.foundContext, if_pos h, Option.isSome_some, decide_eq_true h]
  · simp only [JoinNode.foundContext, if_neg h, Option.isSome_none, decide_eq_false h]

/-- Combining into the empty context copies the source. -/
@[simp] theorem combinPullupContext_empty (src : PullupRelForJoinContext) :
    (combinPullupContext .empty src).2 = src := by
  rcases src with ⟨_ | _, _ | _⟩ <;> rfl

/-- The context the two inputs of a join hand back when neither places the conjunct. -/
theorem combinPullupContext_foundContext (jinfo : JoinExprInfo) (larg rarg : JoinNode) :
    (combinPullupContext (larg.foundContext jinfo) (rarg.foundContext jinfo)).2 =
      ⟨if jinfo.lrtindex ∈ rarg.leaves then some rarg
        else if jinfo.lrtindex ∈ larg.leaves then some larg else none,
       if jinfo.rrtindex ∈ rarg.leaves ∧ jinfo.rrtindex ≠ jinfo.lrtindex then some rarg
        else if jinfo.rrtindex ∈ larg.leaves ∧ jinfo.rrtindex ≠ jinfo.lrtindex then some larg
        else none⟩ := by
  simp only [combinPullupContext, JoinNode.foundContext]
  by_cases hl : jinfo.lrtindex ∈ rarg.leaves <;>
    by_cases hr : jinfo.rrtindex ∈ rarg.leaves ∧ jinfo.rrtindex ≠ jinfo.lrtindex <;> simp [hl, hr]

/-- What one walk of `pullup_rel_for_join` over `node` returns: the conjunct ANDed into
the ON of one join of the node, which then holds both tables, or the node as it was,
handed back on each side whose table it holds, which are not both. -/
def JoinNode.PullupOutcome (jinfo : JoinExprInfo) (node : JoinNode) (found : Bool)
    (node' : JoinNode) (context' : PullupRelForJoinContext) : Prop :=
  (found = true ∧ node.AppendsOn jinfo node' ∧ jinfo.lrtindex ∈ node.leaves ∧
      jinfo.rrtindex ∈ node.leaves ∧ jinfo.rrtindex ≠ jinfo.lrtindex) ∨
  (found = false ∧ node = node' ∧ context' = node.foundContext jinfo ∧
      ¬(jinfo.lrtindex ∈ node.leaves ∧ jinfo.rrtindex ∈ node.leaves ∧
        jinfo.rrtindex ≠ jinfo.lrtindex))

/-- The walk over a join, from what the walks over its two inputs return. -/
theorem pullupRelForJoin_joinExpr_outcome {jinfo : JoinExprInfo} {jointype : JoinType}
    {larg rarg : JoinNode} {quals : Option Expr} {rtindex : Nat}
    (ihl : ∀ {found node' context'}, pullupRelForJoin jinfo larg .empty = .ok (found, node', context') →
      larg.PullupOutcome jinfo found node' context')
    (ihr : ∀ {found node' context'}, pullupRelForJoin jinfo rarg .empty = .ok (found, node', context') →
      rarg.PullupOutcome jinfo found node' context')
    {found : Bool} {node' : JoinNode} {context' : PullupRelForJoinContext}
    (h : pullupRelForJoin jinfo (.joinExpr jointype larg rarg quals rtindex) .empty =
      .ok (found, node', context')) :
    (JoinNode.joinExpr jointype larg rarg quals rtindex).PullupOutcome jinfo found node' context' := by
  have hleaves : ∀ i, i ∈ (JoinNode.joinExpr jointype larg rarg quals rtindex).leaves ↔
      i ∈ rarg.leaves ∨ i ∈ larg.leaves := fun i => by
    rw [JoinNode.leaves, List.mem_append, or_comm]
  obtain ⟨⟨foundL, larg', myL⟩, hL, h⟩ := except_bind_eq_ok.mp h
  rcases ihl hL with ⟨rfl, happ, hl, hr, hne⟩ | ⟨rfl, rfl, rfl, hnotL⟩
  · -- placed in the left input
    cases h
    exact .inl ⟨rfl, .left happ, (hleaves _).mpr (.inr hl), (hleaves _).mpr (.inr hr), hne⟩
  have hcond : ((larg.foundContext jinfo).larg.isNone ||
      (larg.foundContext jinfo).rarg.isNone) = true := by
    by_cases hl : jinfo.lrtindex ∈ larg.leaves <;> simp [JoinNode.foundContext, hl]
    exact fun hr => Classical.byContradiction fun hne => hnotL ⟨hl, hr, hne⟩
  simp only [Bool.false_eq_true, if_false, combinPullupContext_empty, pure_bind] at h
  rw [if_pos hcond] at h
  obtain ⟨⟨foundR, rarg', myR⟩, hR, h⟩ := except_bind_eq_ok.mp h
  rcases ihr hR with ⟨rfl, happ, hl, hr, hne⟩ | ⟨rfl, rfl, rfl, hnotR⟩
  · -- placed in the right input
    cases h
    exact .inl ⟨rfl, .right happ, (hleaves _).mpr (.inl hl), (hleaves _).mpr (.inl hr), hne⟩
  -- what the two inputs found, read on the join
  have hlboth : (jinfo.lrtindex ∈ rarg.leaves ∨ jinfo.lrtindex ∈ larg.leaves) ↔
      jinfo.lrtindex ∈ (JoinNode.joinExpr jointype larg rarg quals rtindex).leaves :=
    (hleaves _).symm
  have hrboth : ((jinfo.rrtindex ∈ rarg.leaves ∧ jinfo.rrtindex ≠ jinfo.lrtindex) ∨
      (jinfo.rrtindex ∈ larg.leaves ∧ jinfo.rrtindex ≠ jinfo.lrtindex)) ↔
      (jinfo.rrtindex ∈ (JoinNode.joinExpr jointype larg rarg quals rtindex).leaves ∧
        jinfo.rrtindex ≠ jinfo.lrtindex) := by
    rw [hleaves, or_and_right]
  simp only [Bool.false_eq_true, if_false, combinPullupContext_larg_isSome,
    combinPullupContext_rarg_isSome, foundContext_larg_isSome, foundContext_rarg_isSome,
    Bool.or_eq_true, decide_eq_true_eq, Bool.and_eq_true, hlboth, hrboth] at h
  rw [combinPullupContext_foundContext] at h
  by_cases hl : jinfo.lrtindex ∈ (JoinNode.joinExpr jointype larg rarg quals rtindex).leaves <;>
    by_cases hr : jinfo.rrtindex ∈ (JoinNode.joinExpr jointype larg rarg quals rtindex).leaves ∧
      jinfo.rrtindex ≠ jinfo.lrtindex
  · -- both tables below, on different sides: the fuse branch
    rw [if_pos ⟨hl, hr⟩] at h
    cases eq_of_ite_throw_eq_ok h
    have hsides : jinfo.lrtindex ∈ larg.leaves ∧ jinfo.rrtindex ∈ rarg.leaves ∨
        jinfo.rrtindex ∈ larg.leaves ∧ jinfo.lrtindex ∈ rarg.leaves := by
      rcases (hleaves _).mp hl with hlR | hlL <;> rcases (hleaves _).mp hr.1 with hrR | hrL
      · exact absurd ⟨hlR, hrR, hr.2⟩ hnotR
      · exact .inr ⟨hrL, hlR⟩
      · exact .inl ⟨hlL, hrR⟩
      · exact absurd ⟨hlL, hrL, hr.2⟩ hnotL
    exact .inl ⟨rfl, .here hsides, hl, hr⟩
  · -- only the `lrtindex` table: this whole join is handed up for it
    rw [if_neg (fun h => hr h.2), if_pos hl] at h
    cases h
    obtain ⟨hrR, hrL⟩ := not_or.mp (mt hrboth.mp hr)
    refine .inr ⟨rfl, rfl, ?_, fun h => hr h.2⟩
    simp only [JoinNode.foundContext, if_pos hl, if_neg hr, if_neg hrR, if_neg hrL]
  · -- only the `rrtindex` table
    rw [if_neg (fun h => hl h.1), if_neg hl, if_pos hr] at h
    cases h
    obtain ⟨hlR, hlL⟩ := not_or.mp (mt hlboth.mp hl)
    refine .inr ⟨rfl, rfl, ?_, fun h => hl h.1⟩
    simp only [JoinNode.foundContext, if_neg hl, if_pos hr, if_neg hlR, if_neg hlL]
  · -- neither table
    rw [if_neg (fun h => hl h.1), if_neg hl, if_neg hr] at h
    cases h
    obtain ⟨hlR, hlL⟩ := not_or.mp (mt hlboth.mp hl)
    obtain ⟨hrR, hrL⟩ := not_or.mp (mt hrboth.mp hr)
    refine .inr ⟨rfl, rfl, ?_, fun h => hl h.1⟩
    simp only [JoinNode.foundContext, if_neg hl, if_neg hr, if_neg hlR, if_neg hlL, if_neg hrR,
      if_neg hrL]

/-- **One walk over a FROM item.** `pullup_rel_for_join` either ANDs the conjunct into the
ON of one join of the item, which then holds both tables, or leaves the item as it was
and hands it back on each side whose table it holds, which are not both. -/
theorem pullupRelForJoin_cases {jinfo : JoinExprInfo} :
    ∀ {node : JoinNode}, node.isJoinTree → ∀ {found node' context'},
    pullupRelForJoin jinfo node .empty = .ok (found, node', context') →
    node.PullupOutcome jinfo found node' context'
  | .rangeTblRef rtindex, _, found, node', context', h => by
    simp only [pullupRelForJoin] at h
    right
    split_ifs at h with hl hr <;> cases h
    · subst hl
      simp [JoinNode.foundContext, JoinNode.leaves, PullupRelForJoinContext.empty]
    · subst hr
      simp [JoinNode.foundContext, JoinNode.leaves, PullupRelForJoinContext.empty, hl, Ne.symm hl]
    · simp [JoinNode.foundContext, JoinNode.leaves, PullupRelForJoinContext.empty, Ne.symm hl,
        Ne.symm hr]
  | .joinExpr _ _ _ _ _, hjt, _, _, _, h => by
    simp only [JoinNode.isJoinTree, Bool.and_eq_true] at hjt
    exact pullupRelForJoin_joinExpr_outcome (pullupRelForJoin_cases hjt.1)
      (pullupRelForJoin_cases hjt.2) h
  | .fromExpr _ _, hjt, _, _, _, _ => by simp [JoinNode.isJoinTree] at hjt

/-- The walk context as a list: the subtrees found so far. -/
def PullupRelForJoinContext.toList (context : PullupRelForJoinContext) : List JoinNode :=
  context.larg.toList ++ context.rarg.toList

/-- Each subtree of the context holds the table of its side. -/
def PullupRelForJoinContext.Oriented (jinfo : JoinExprInfo) (context : PullupRelForJoinContext) :
    Prop :=
  (∀ x, context.larg = some x → jinfo.lrtindex ∈ x.leaves) ∧
    ∀ x, context.rarg = some x → jinfo.rrtindex ∈ x.leaves

/-- `combin_pullup_context` reports whether the source found anything. -/
@[simp] theorem combinPullupContext_fst (dest src : PullupRelForJoinContext) :
    (combinPullupContext dest src).1 = (src.larg.isSome || src.rarg.isSome) := rfl

/-- **One walk over a FROM list.** With the items' tables distinct, the loop of
`pullup_rel_for_join` over a `FromExpr`'s list either fuses the conjunct into one item,
which then holds both tables, or deletes the items holding a table, each moving into the
context on the side of the table it holds. No deleted item is lost: the fuse case cannot
follow a deletion; and no table of the list is missed. -/
theorem pullupFromlist_cases {jinfo : JoinExprInfo} {items : List JoinNode} :
    ∀ {context : PullupRelForJoinContext},
    (∀ item ∈ items, item.isJoinTree) → (leavesList items).Nodup →
    (context.larg.isSome → jinfo.lrtindex ∉ leavesList items) →
    (context.rarg.isSome → jinfo.rrtindex ∉ leavesList items) → context.Oriented jinfo →
    ∀ {found items' context'}, pullupFromlist jinfo items context = .ok (found, items', context') →
    (found = true ∧ jinfo.lrtindex ∈ leavesList items ∧ jinfo.rrtindex ∈ leavesList items ∧
      ∃ pre item item' post, items = pre ++ item :: post ∧ items' = pre ++ item' :: post ∧
        item.AppendsOn jinfo item') ∨
    (found = false ∧ (items ++ context.toList).Perm (items' ++ context'.toList) ∧
      context'.Oriented jinfo ∧
      (jinfo.lrtindex ∈ leavesList items ∨ context.larg.isSome → context'.larg.isSome) ∧
      (jinfo.rrtindex ∈ leavesList items ∧ jinfo.rrtindex ≠ jinfo.lrtindex ∨ context.rarg.isSome →
        context'.rarg.isSome)) := by
  induction items with
  | nil =>
    intro _ _ _ _ _ hor _ _ _ h
    cases h
    exact .inr ⟨rfl, .refl _, hor, fun h => h.resolve_left (by simp),
      fun h => h.resolve_left (by simp)⟩
  | cons item rest ih =>
    intro context hjt hnd hl hr hor found items' context' h
    rw [List.forall_mem_cons] at hjt
    simp only [leavesList, List.nodup_append, List.mem_append] at hnd hl hr ⊢
    obtain ⟨⟨foundI, item', my⟩, hI, h⟩ := except_bind_eq_ok.mp h
    rcases pullupRelForJoin_cases hjt.1 hI with ⟨rfl, happ, hlI, hrI, -⟩ | ⟨rfl, rfl, rfl, hnotI⟩
    · -- the item places the conjunct
      cases h
      exact .inl ⟨rfl, .inl hlI, .inl hrI, [], item, item', rest, rfl, rfl, happ⟩
    simp only [Bool.false_eq_true, if_false, pure_bind, combinPullupContext_fst,
      foundContext_larg_isSome, foundContext_rarg_isSome, Bool.or_eq_true, decide_eq_true_eq] at h
    by_cases hlI : jinfo.lrtindex ∈ item.leaves
    · -- the item holds the `lrtindex` table: deleted, it moves into the context
      have hrI : ¬(jinfo.rrtindex ∈ item.leaves ∧ jinfo.rrtindex ≠ jinfo.lrtindex) :=
        fun h => hnotI ⟨hlI, h⟩
      have hctx : context.larg = none :=
        Option.not_isSome_iff_eq_none.mp fun h => hl h (.inl hlI)
      have hcomb : (combinPullupContext context (item.foundContext jinfo)).2 =
          ⟨some item, context.rarg⟩ := by
        simp [combinPullupContext, JoinNode.foundContext, hlI, hrI, hctx]
      have hperm : ((item :: rest) ++ context.toList).Perm
          (rest ++ PullupRelForJoinContext.toList ⟨some item, context.rarg⟩) := by
        simp only [PullupRelForJoinContext.toList, hctx, Option.toList_some, Option.toList_none,
          List.nil_append, List.singleton_append, List.cons_append]
        exact List.perm_middle.symm
      have hor' : PullupRelForJoinContext.Oriented jinfo ⟨some item, context.rarg⟩ :=
        ⟨fun x hx => Option.some_inj.mp hx ▸ hlI, hor.2⟩
      rw [if_pos (.inl hlI), hcomb] at h
      split at h
      next hboth =>
        cases h
        exact .inr ⟨rfl, hperm, hor', fun _ => rfl, fun _ => ((Bool.and_eq_true _ _).mp hboth).2⟩
      next =>
        rcases @ih ⟨some item, context.rarg⟩ hjt.2 hnd.2.1
          (fun _ hl' => hnd.2.2 hlI hl') (fun h' hr' => hr h' (.inr hr')) hor' _ _ _ h with
          ⟨-, hl', -⟩ | ⟨rfl, hperm', hor'', hlfound, hrfound⟩
        · exact absurd hl' (hnd.2.2 hlI)
        · refine .inr ⟨rfl, hperm.trans hperm', hor'', fun _ => hlfound (.inr rfl), ?_⟩
          rintro (⟨hr' | hr', hne⟩ | hr')
          · exact absurd ⟨hr', hne⟩ hrI
          · exact hrfound (.inl ⟨hr', hne⟩)
          · exact hrfound (.inr hr')
    by_cases hrI : jinfo.rrtindex ∈ item.leaves ∧ jinfo.rrtindex ≠ jinfo.lrtindex
    · -- the item holds the `rrtindex` table
      have hctx : context.rarg = none :=
        Option.not_isSome_iff_eq_none.mp fun h => hr h (.inl hrI.1)
      have hcomb : (combinPullupContext context (item.foundContext jinfo)).2 =
          ⟨context.larg, some item⟩ := by
        simp [combinPullupContext, JoinNode.foundContext, hlI, hrI, hctx]
      have hperm : ((item :: rest) ++ context.toList).Perm
          (rest ++ PullupRelForJoinContext.toList ⟨context.larg, some item⟩) := by
        simp only [PullupRelForJoinContext.toList, hctx, Option.toList_some, Option.toList_none,
          List.append_nil, List.cons_append, ← List.append_assoc]
        exact (List.perm_append_singleton item _).symm
      have hor' : PullupRelForJoinContext.Oriented jinfo ⟨context.larg, some item⟩ :=
        ⟨hor.1, fun x hx => Option.some_inj.mp hx ▸ hrI.1⟩
      rw [if_pos (.inr hrI), hcomb] at h
      split at h
      next hboth =>
        cases h
        exact .inr ⟨rfl, hperm, hor', fun _ => ((Bool.and_eq_true _ _).mp hboth).1, fun _ => rfl⟩
      next =>
        rcases @ih ⟨context.larg, some item⟩ hjt.2 hnd.2.1
          (fun h' hl' => hl h' (.inr hl')) (fun _ hr' => hnd.2.2 hrI.1 hr') hor' _ _ _ h with
          ⟨-, -, hr', -⟩ | ⟨rfl, hperm', hor'', hlfound, hrfound⟩
        · exact absurd hr' (hnd.2.2 hrI.1)
        · refine .inr ⟨rfl, hperm.trans hperm', hor'', ?_, fun _ => hrfound (.inr rfl)⟩
          rintro ((hl' | hl') | hl')
          · exact absurd hl' hlI
          · exact hlfound (.inl hl')
          · exact hlfound (.inr hl')
    · -- the item holds neither table and stays
      rw [if_neg (not_or.mpr ⟨hlI, hrI⟩)] at h
      obtain ⟨⟨found', rest', context''⟩, hrest, h⟩ := except_bind_eq_ok.mp h
      cases h
      rcases ih hjt.2 hnd.2.1 (fun h' hl' => hl h' (.inr hl'))
          (fun h' hr' => hr h' (.inr hr')) hor hrest with
        ⟨rfl, hl', hr', pre, it, it', post, rfl, rfl, happ⟩ | ⟨rfl, hperm, hor'', hlfound, hrfound⟩
      · exact .inl ⟨rfl, .inr hl', .inr hr', item :: pre, it, it', post, rfl, rfl, happ⟩
      · refine .inr ⟨rfl, hperm.cons item, hor'', ?_, ?_⟩
        · rintro ((hl' | hl') | hl')
          · exact absurd hl' hlI
          · exact hlfound (.inl hl')
          · exact hlfound (.inr hl')
        · rintro (⟨hr' | hr', hne⟩ | hr')
          · exact absurd ⟨hr', hne⟩ hrI
          · exact hrfound (.inl ⟨hr', hne⟩)
          · exact hrfound (.inr hr')

/-! ## Placing one conjunct -/

/-- What placing one conjunct does to the FROM list: AND it into the ON of one join
inside one item, or replace the two items holding its tables by a new join of them,
appended to the list with range-table index 0, the item holding `lrtindex` on the left. -/
inductive PullupStep (jinfo : JoinExprInfo) : List JoinNode → List JoinNode → Prop
  | fuse {pre post : List JoinNode} {item item' : JoinNode} :
      item.AppendsOn jinfo item' →
      PullupStep jinfo (pre ++ item :: post) (pre ++ item' :: post)
  | join {items rest : List JoinNode} {larg rarg : JoinNode} :
      items.Perm (rest ++ [larg, rarg]) → jinfo.lrtindex ∈ larg.leaves →
      jinfo.rrtindex ∈ rarg.leaves →
      PullupStep jinfo items (rest ++ [.joinExpr jinfo.type larg rarg (some jinfo.expr) 0])

/-- The empty context is oriented. -/
theorem PullupRelForJoinContext.oriented_empty (jinfo : JoinExprInfo) :
    PullupRelForJoinContext.empty.Oriented jinfo := by
  constructor <;> rintro _ ⟨⟩

/-- A walk from a `FromExpr` whose items have distinct tables, when it places the
conjunct, takes one `PullupStep`. -/
theorem pullupRelForJoin_fromExpr {jinfo : JoinExprInfo} {items : List JoinNode}
    {quals : Option Expr} (hjt : ∀ item ∈ items, item.isJoinTree)
    (hnd : (leavesList items).Nodup) {node' : JoinNode} {context' : PullupRelForJoinContext}
    (h : pullupRelForJoin jinfo (.fromExpr items quals) .empty = .ok (true, node', context')) :
    ∃ items', node' = .fromExpr items' quals ∧ PullupStep jinfo items items' := by
  obtain ⟨⟨found, items₁, context₁⟩, hlist, h⟩ := except_bind_eq_ok.mp h
  rcases pullupFromlist_cases hjt hnd (fun h => by cases h) (fun h => by cases h)
      (PullupRelForJoinContext.oriented_empty jinfo) hlist with
    ⟨rfl, -, -, pre, item, item', post, rfl, rfl, happ⟩ | ⟨rfl, hperm, hor, -⟩
  · cases h
    exact ⟨_, rfl, .fuse happ⟩
  simp only [Bool.false_eq_true, if_false, pure_bind] at h
  rcases hl : context₁.larg with _ | larg <;> rcases hr : context₁.rarg with _ | rarg <;>
    simp only [hl, hr] at h <;> cases h
  refine ⟨_, rfl, .join ?_ (hor.1 _ hl) (hor.2 _ hr)⟩
  simpa [PullupRelForJoinContext.toList, PullupRelForJoinContext.empty, hl, hr] using hperm

/-- A walk from a `FromExpr` whose items hold both tables never reports them missing. -/
theorem pullupRelForJoin_fromExpr_found {jinfo : JoinExprInfo} {items : List JoinNode}
    {quals : Option Expr} (hjt : ∀ item ∈ items, item.isJoinTree)
    (hnd : (leavesList items).Nodup) (hl : jinfo.lrtindex ∈ leavesList items)
    (hr : jinfo.rrtindex ∈ leavesList items) (hne : jinfo.rrtindex ≠ jinfo.lrtindex)
    {found : Bool} {node' : JoinNode} {context' : PullupRelForJoinContext}
    (h : pullupRelForJoin jinfo (.fromExpr items quals) .empty = .ok (found, node', context')) :
    found = true := by
  obtain ⟨⟨found₁, items₁, context₁⟩, hlist, h⟩ := except_bind_eq_ok.mp h
  rcases pullupFromlist_cases hjt hnd (fun h => by cases h) (fun h => by cases h)
      (PullupRelForJoinContext.oriented_empty jinfo) hlist with
    ⟨rfl, -⟩ | ⟨rfl, -, -, hlfound, hrfound⟩
  · cases h
    rfl
  simp only [Bool.false_eq_true, if_false, pure_bind] at h
  obtain ⟨larg, hlarg⟩ := Option.isSome_iff_exists.mp (hlfound (.inl hl))
  obtain ⟨rarg, hrarg⟩ := Option.isSome_iff_exists.mp (hrfound (.inl ⟨hr, hne⟩))
  simp only [hlarg, hrarg] at h
  cases h
  rfl

/-- A subtree of a list is a subtree of one of its trees. -/
theorem mem_subtreesList {sub : JoinNode} {nodes : List JoinNode} :
    sub ∈ subtreesList nodes ↔ ∃ node ∈ nodes, sub ∈ node.subtrees := by
  simp

namespace PullupStep

variable {jinfo : JoinExprInfo} {items items' : List JoinNode}

/-- A step keeps every item a FROM item. -/
theorem isJoinTree (h : PullupStep jinfo items items') (hjt : ∀ item ∈ items, item.isJoinTree) :
    ∀ item ∈ items', item.isJoinTree := by
  cases h with
  | fuse happ =>
    simp only [List.mem_append, List.mem_cons] at hjt ⊢
    rintro item (h | rfl | h)
    · exact hjt item (.inl h)
    · exact happ.isJoinTree (hjt _ (.inr (.inl rfl)))
    · exact hjt item (.inr (.inr h))
  | join hperm _ _ =>
    have hjt' := fun item h => hjt item (hperm.mem_iff.mpr h)
    simp only [List.mem_append, List.mem_cons, List.mem_singleton] at hjt' ⊢
    rintro item (h | rfl | h)
    · exact hjt' item (.inl h)
    · simp [JoinNode.isJoinTree, hjt' _ (.inr (.inl rfl)), hjt' _ (.inr (.inr (.inl rfl)))]
    · simp at h

/-- A step keeps the tables of the list. -/
theorem leaves_perm (h : PullupStep jinfo items items') :
    (leavesList items').Perm (leavesList items) := by
  cases h with
  | fuse happ => simp [happ.leaves_eq]
  | join hperm _ _ => simpa [JoinNode.leaves] using (hperm.flatMap_right JoinNode.leaves).symm

/-- A step adds the conjunct to the ON clauses of the list. -/
theorem onLeaves_perm (h : PullupStep jinfo items items') :
    (onLeavesList items').Perm (onLeavesList items ++ jinfo.expr.andLeaves) := by
  cases h with
  | fuse happ =>
    simp only [onLeavesList_eq_flatMap, List.flatMap_append, List.flatMap_cons, List.append_assoc]
    refine .append_left _ ((happ.onLeaves_perm.append_right _).trans ?_)
    rw [List.append_assoc]
    exact .append_left _ List.perm_append_comm
  | join hperm _ _ =>
    have := (hperm.flatMap_right JoinNode.onLeaves).append_right jinfo.expr.andLeaves
    simp only [onLeavesList_eq_flatMap, List.flatMap_append, List.flatMap_cons, List.flatMap_nil,
      List.append_nil, JoinNode.onLeaves, qualLeaves, List.append_assoc] at this ⊢
    exact this.symm

/-- A step keeps every subtree of the list, up to conjuncts appended to ON clauses. -/
theorem extends_subtrees (h : PullupStep jinfo items items')
    (hjt : ∀ item ∈ items, item.isJoinTree) {sub : JoinNode} (hsub : sub ∈ subtreesList items) :
    ∃ sub' ∈ subtreesList items', sub.Extends sub' := by
  obtain ⟨node, hnode, hsubnode⟩ := mem_subtreesList.mp hsub
  have hsubjt := JoinNode.isJoinTree_of_mem_subtrees (hjt node hnode) hsubnode
  cases h with
  | fuse happ =>
    simp only [List.mem_append, List.mem_cons] at hnode
    rcases hnode with hnode | rfl | hnode
    · exact ⟨sub, mem_subtreesList.mpr ⟨node, by simp [hnode], hsubnode⟩, .refl hsubjt⟩
    · obtain ⟨sub', hsub', hext⟩ := happ.extends_subtrees (hjt _ (by simp)) hsubnode
      exact ⟨sub', mem_subtreesList.mpr ⟨_, by simp, hsub'⟩, hext⟩
    · exact ⟨sub, mem_subtreesList.mpr ⟨node, by simp [hnode], hsubnode⟩, .refl hsubjt⟩
  | @join _ rest larg rarg hperm _ _ =>
    refine ⟨sub, mem_subtreesList.mpr ?_, .refl hsubjt⟩
    have := hperm.mem_iff.mp hnode
    simp only [List.mem_append, List.mem_cons, List.mem_singleton] at this
    rcases this with hnode | hl | hr | h
    · exact ⟨node, by simp [hnode], hsubnode⟩
    · exact ⟨.joinExpr jinfo.type larg rarg (some jinfo.expr) 0, by simp,
        by simp [JoinNode.subtrees, ← hl, hsubnode]⟩
    · exact ⟨.joinExpr jinfo.type larg rarg (some jinfo.expr) 0, by simp,
        by simp [JoinNode.subtrees, ← hr, hsubnode]⟩
    · simp at h

/-- A step keeps the tables distinct. -/
theorem nodup (h : PullupStep jinfo items items') (hnd : (leavesList items).Nodup) :
    (leavesList items').Nodup :=
  h.leaves_perm.nodup_iff.mpr hnd

end PullupStep

/-- A FROM item extends itself, with every subtree. -/
theorem extends_self_of_mem {nodes : List JoinNode} (hjt : ∀ node ∈ nodes, node.isJoinTree)
    {sub : JoinNode} (hsub : sub ∈ subtreesList nodes) : ∃ sub' ∈ subtreesList nodes, sub.Extends sub' := by
  obtain ⟨node, hnode, hsubnode⟩ := mem_subtreesList.mp hsub
  exact ⟨sub, hsub, .refl (JoinNode.isJoinTree_of_mem_subtrees (hjt node hnode) hsubnode)⟩

/-- **The loop of `transformFromAndWhere`.** Over a FROM list of FROM items with distinct
tables, the loop that keeps or places each classified conjunct keeps the tables, keeps
every subtree up to appended ON conjuncts, and puts every conjunct, stripped, either in
WHERE or in an ON clause. -/
theorem pullupJoinQuals_conserves :
    ∀ {infos : List JoinExprInfo} {items : List JoinNode} {kept : List Expr}
      {loop' : FromAndWhereLoop},
    (∀ item ∈ items, item.isJoinTree) → (leavesList items).Nodup →
    pullupJoinQuals ⟨.fromExpr items none, kept⟩ infos = .ok loop' →
    ∃ items', loop'.from = .fromExpr items' none ∧ (∀ item ∈ items', item.isJoinTree) ∧
      (leavesList items').Perm (leavesList items) ∧
      (onLeavesList items' ++ andLeavesList loop'.kept).Perm (onLeavesList items ++
        andLeavesList kept ++ andLeavesList (infos.map (removeColumnJoinExpr ·.expr))) ∧
      ∀ sub ∈ subtreesList items, ∃ sub' ∈ subtreesList items', sub.Extends sub'
  | [], items, kept, loop', hjt, hnd, h => by
    cases h
    exact ⟨items, rfl, hjt, .refl _, by simp, fun _ => extends_self_of_mem hjt⟩
  | jinfo :: rest, items, kept, loop', hjt, hnd, h => by
    unfold pullupJoinQuals at h
    split_ifs at h with hzero
    · -- a conjunct on at most one table stays in WHERE
      obtain ⟨items', hfrom, hjt', hleaves, hon, hsub⟩ := pullupJoinQuals_conserves hjt hnd h
      refine ⟨items', hfrom, hjt', hleaves, hon.trans ?_, hsub⟩
      simp [List.append_assoc]
    · obtain ⟨⟨found, from', _⟩, hwalk, h⟩ := except_bind_eq_ok.mp h
      cases found
      · cases h
      obtain ⟨items₁, rfl, hstep⟩ := pullupRelForJoin_fromExpr hjt hnd hwalk
      obtain ⟨items', hfrom, hjt', hleaves, hon, hsub⟩ :=
        pullupJoinQuals_conserves (hstep.isJoinTree hjt) (hstep.nodup hnd) h
      refine ⟨items', hfrom, hjt', hleaves.trans hstep.leaves_perm, hon.trans ?_, fun sub hs => ?_⟩
      · have := (hstep.onLeaves_perm.append_right (andLeavesList kept)).append_right
          (andLeavesList (rest.map (removeColumnJoinExpr ·.expr)))
        refine this.trans ?_
        simp only [List.map_cons, andLeavesList_eq_flatMap, List.flatMap_cons, List.append_assoc]
        exact .append_left _ (List.perm_append_comm_assoc _ _ _)
      · obtain ⟨sub₁, hs₁, hext₁⟩ := hstep.extends_subtrees hjt hs
        obtain ⟨sub', hs', hext'⟩ := hsub sub₁ hs₁
        exact ⟨sub', hs', hext₁.trans hext'⟩

/-! ## The conjuncts `get_join_qual_exprs` classifies -/

/-- The top-level conjuncts of an expression flatten to its conjuncts. -/
theorem andLeavesList_andArgs : ∀ e : Expr, andLeavesList e.andArgs = e.andLeaves
  | .boolExpr .andExpr _ => rfl
  | .boolExpr .orExpr _ | .boolExpr .notExpr _ | .var _ | .columnRefJoin _ _ | .const _ _ _
  | .opExpr _ _ _ | .funcExpr _ _ | .rownumExpr | .setToDefault _ _ _ => List.append_nil _

/-- Merging or appending a classified conjunct adds its conjuncts to the entries'. -/
theorem addJoinQual_andLeaves (jinfo₂ : JoinExprInfo) : ∀ infos : List JoinExprInfo,
    (andLeavesList ((addJoinQual jinfo₂ infos).map (·.expr))).Perm
      (andLeavesList (infos.map (·.expr)) ++ jinfo₂.expr.andLeaves)
  | [] => by simp [addJoinQual]
  | jinfo :: rest => by
    unfold addJoinQual
    split_ifs
    · simp only [List.map_cons, andLeavesList_eq_flatMap, List.flatMap_cons, andLeaves_combineAnd,
        List.append_assoc]
      exact .append_left _ List.perm_append_comm
    · simpa [List.append_assoc] using
        (addJoinQual_andLeaves jinfo₂ rest).append_left jinfo.expr.andLeaves

/-- Classifying conjuncts in order records each as it is. -/
theorem mapM_getOraColumnJoin_exprs {es : List Expr} {infos : List JoinExprInfo}
    (h : es.mapM getOraColumnJoin = .ok infos) : infos.map (·.expr) = es := by
  have h₂ := forall₂_of_mapM_eq_ok h
  clear h
  induction h₂ with
  | nil => rfl
  | cons he _ ih => rw [List.map_cons, getOraColumnJoin_expr he, ih]

/-- The combining loop adds every conjunct it classifies to the entries. -/
theorem foldlM_addClassifiedQual_andLeaves : ∀ {es : List Expr} {acc infos : List JoinExprInfo},
    es.foldlM addClassifiedQual acc = .ok infos →
    (andLeavesList (infos.map (·.expr))).Perm (andLeavesList (acc.map (·.expr)) ++ andLeavesList es)
  | [], acc, infos, h => by cases h; simp
  | e :: es, acc, infos, h => by
    rw [List.foldlM_cons] at h
    obtain ⟨acc', hacc, h⟩ := except_bind_eq_ok.mp h
    obtain ⟨info, hinfo, hacc'⟩ := except_bind_eq_ok.mp hacc
    cases hacc'
    refine (foldlM_addClassifiedQual_andLeaves h).trans ?_
    have := (addJoinQual_andLeaves info acc).append_right (andLeavesList es)
    rw [getOraColumnJoin_expr hinfo] at this
    simpa [List.append_assoc] using this

/-- **`get_join_qual_exprs` loses no conjunct.** The entries it returns hold the conjuncts
of the canonicalized WHERE, ANDs flattened, each once. -/
theorem getJoinQualExprs_andLeaves (canonicalizeQual : Expr → Expr) {q : Expr}
    {infos : List JoinExprInfo} (h : getJoinQualExprs canonicalizeQual (some q) = .ok infos) :
    (andLeavesList (infos.map (·.expr))).Perm (canonicalizeQual q).andLeaves := by
  obtain ⟨marked, hmarked, h⟩ := except_bind_eq_ok.mp h
  refine (foldlM_addClassifiedQual_andLeaves h).trans ?_
  rw [mapM_getOraColumnJoin_exprs hmarked, ← andLeavesList_andArgs]
  simpa using (List.filter_append_perm haveOraColumnJoin (canonicalizeQual q).andArgs).flatMap_right
    Expr.andLeaves

/-! ## Numbering the new joins -/

mutual
/-- `analyze_new_join` only numbers the joins the rewrite built: it keeps the tables and
the ON clauses of a tree, and every registered subtree. -/
theorem analyzeNewJoin_keeps (pstate : ParseState) : ∀ node : JoinNode,
    (analyzeNewJoin pstate node).2.1.leaves = node.leaves ∧
      (analyzeNewJoin pstate node).2.1.onLeaves = node.onLeaves ∧
      ∀ sub ∈ node.subtrees, sub.registered → sub ∈ (analyzeNewJoin pstate node).2.1.subtrees
  | .rangeTblRef _ => ⟨rfl, rfl, fun _ h _ => h⟩
  | .joinExpr jointype larg rarg quals 0 => by
    obtain ⟨hl₁, hl₂, hl₃⟩ := analyzeNewJoin_keeps pstate larg
    rcases hL : analyzeNewJoin pstate larg with ⟨pstate₁, larg', lIndex, lNames⟩
    obtain ⟨hr₁, hr₂, hr₃⟩ := analyzeNewJoin_keeps pstate₁ rarg
    rcases hR : analyzeNewJoin pstate₁ rarg with ⟨pstate₂, rarg', rIndex, rNames⟩
    rw [hL] at hl₁ hl₂ hl₃
    rw [hR] at hr₁ hr₂ hr₃
    simp only [analyzeNewJoin, hL, hR, JoinNode.leaves, JoinNode.onLeaves, JoinNode.subtrees,
      hl₁, hl₂, hr₁, hr₂, List.mem_cons, List.mem_append, true_and]
    rintro sub (rfl | hsub | hsub) hreg
    · simp [JoinNode.registered] at hreg
    · exact .inr (.inl (hl₃ sub hsub hreg))
    · exact .inr (.inr (hr₃ sub hsub hreg))
  | .joinExpr _ _ _ _ (_ + 1) => ⟨rfl, rfl, fun _ h _ => h⟩
  | .fromExpr fromlist quals => by
    obtain ⟨h₁, h₂, h₃⟩ := analyzeNewJoinList_keeps pstate fromlist
    refine ⟨by simp only [analyzeNewJoin, JoinNode.leaves, h₁],
      by simp only [analyzeNewJoin, JoinNode.onLeaves, h₂], fun sub hsub hreg => ?_⟩
    rw [JoinNode.subtrees, List.mem_cons] at hsub
    rcases hsub with rfl | hsub
    · -- a registered list is left as it is
      obtain ⟨_, _, hnode⟩ := analyzeNewJoin_of_registered pstate _ hreg
      rw [hnode, JoinNode.subtrees]
      exact List.mem_cons_self _ _
    · simp only [analyzeNewJoin, JoinNode.subtrees]
      exact List.mem_cons_of_mem _ (h₃ sub hsub hreg)

/-- The list form of `analyzeNewJoin_keeps`. -/
theorem analyzeNewJoinList_keeps (pstate : ParseState) : ∀ fromlist : List JoinNode,
    leavesList (analyzeNewJoinList pstate fromlist).2.1 = leavesList fromlist ∧
      onLeavesList (analyzeNewJoinList pstate fromlist).2.1 = onLeavesList fromlist ∧
      ∀ sub ∈ subtreesList fromlist, sub.registered →
        sub ∈ subtreesList (analyzeNewJoinList pstate fromlist).2.1
  | [] => ⟨rfl, rfl, fun _ h _ => h⟩
  | node :: rest => by
    obtain ⟨hn₁, hn₂, hn₃⟩ := analyzeNewJoin_keeps pstate node
    rcases hN : analyzeNewJoin pstate node with ⟨pstate₁, node', nIndex, nNames⟩
    obtain ⟨hr₁, hr₂, hr₃⟩ := analyzeNewJoinList_keeps pstate₁ rest
    rcases hR : analyzeNewJoinList pstate₁ rest with ⟨pstate₂, rest', rNames⟩
    rw [hN] at hn₁ hn₂ hn₃
    rw [hR] at hr₁ hr₂ hr₃
    simp only [analyzeNewJoinList, hN, hR, leavesList, onLeavesList, subtreesList, hn₁, hn₂, hr₁,
      hr₂, List.mem_append, true_and]
    rintro sub (hsub | hsub) hreg
    · exact .inl (hn₃ sub hsub hreg)
    · exact .inr (hr₃ sub hsub hreg)
end

/-- An extension keeps a tree registered: it keeps every range-table index. -/
theorem JoinNode.Extends.registered {node node' : JoinNode} (h : node.Extends node')
    (hreg : node.registered) : node'.registered := by
  induction h with
  | rangeTblRef => exact hreg
  | joinExpr _ _ _ ihl ihr =>
    simp only [JoinNode.registered, Bool.and_eq_true] at hreg ⊢
    exact ⟨⟨hreg.1.1, ihl hreg.1.2⟩, ihr hreg.2⟩

/-- A subtree of a registered FROM item is registered. -/
theorem JoinNode.registered_of_mem_subtrees :
    ∀ {node sub : JoinNode}, node.isJoinTree → node.registered → sub ∈ node.subtrees →
      sub.registered
  | .rangeTblRef _, _, _, hreg, hsub => by simp_all [JoinNode.subtrees]
  | .joinExpr _ _ _ _ _, _, hjt, hreg, hsub => by
    simp only [JoinNode.isJoinTree, Bool.and_eq_true] at hjt
    simp only [JoinNode.subtrees, List.mem_cons, List.mem_append] at hsub
    rcases hsub with rfl | hsub | hsub
    · exact hreg
    · simp only [JoinNode.registered, Bool.and_eq_true] at hreg
      exact registered_of_mem_subtrees hjt.1 hreg.1.2 hsub
    · simp only [JoinNode.registered, Bool.and_eq_true] at hreg
      exact registered_of_mem_subtrees hjt.2 hreg.2 hsub
  | .fromExpr _ _, _, hjt, _, _ => by simp [JoinNode.isJoinTree] at hjt

/-- The WHERE left for the kept conjuncts holds their conjuncts. -/
theorem qualLeaves_keptQuals (es : List Expr) : qualLeaves (keptQuals es) = andLeavesList es := by
  unfold keptQuals
  split <;> simp [qualLeaves, makeAndExpr, Expr.andLeaves]

/-- Stripping the markers of each conjunct strips them from the flattened conjuncts. -/
theorem andLeavesList_map_removeColumnJoinExpr (es : List Expr) :
    andLeavesList (es.map removeColumnJoinExpr) = (andLeavesList es).map removeColumnJoinExpr := by
  induction es with
  | nil => rfl
  | cons e es ih =>
    simp only [List.map_cons, andLeavesList, andLeaves_removeColumnJoinExpr, ih, List.map_append]

/-! ## The rewrite -/

/-- **The `(+)` rewrite loses and duplicates nothing.** Take a FROM list of FROM items with
distinct tables and registered joins, as `transformFromClause` leaves it, and a WHERE with
a marker that `transformFromAndWhere` rewrites. The new FROM list holds the same tables;
every subtree of the old list survives in the new one, up to conjuncts appended to ON
clauses; and the conjuncts of the ON clauses and of the returned WHERE are those of the
old ON clauses and of the WHERE the path splits, markers stripped, each as often as
before. The general path splits the canonicalized WHERE; the single-item fast path never
calls `canonicalize_qual` and splits the WHERE as it is. -/
theorem transformFromAndWhere_conserves (canonicalizeQual : Expr → Expr) {pstate : ParseState}
    (hitems : ∀ item ∈ pstate.p_joinlist, item.isJoinTree ∧ item.registered)
    (hnd : (leavesList pstate.p_joinlist).Nodup) (hjoin : pstate.p_joinlist ≠ [])
    {q : Expr} (hq : haveOraColumnJoin q) {pstate' : ParseState} {quals' : Option Expr}
    (h : transformFromAndWhere canonicalizeQual pstate (some q) = .ok (pstate', quals')) :
    (leavesList pstate'.p_joinlist).Perm (leavesList pstate.p_joinlist) ∧
    (∀ sub ∈ subtreesList pstate.p_joinlist, ∃ sub' ∈ subtreesList pstate'.p_joinlist,
      sub.Extends sub') ∧
    (qualLeaves quals' ++ onLeavesList pstate'.p_joinlist).Perm (onLeavesList pstate.p_joinlist ++
      (if pstate.p_joinlist.length = 1 then q else canonicalizeQual q).andLeaves.map
        removeColumnJoinExpr) := by
  have hjt : ∀ item ∈ pstate.p_joinlist, item.isJoinTree := fun item h => (hitems item h).1
  by_cases hone : pstate.p_joinlist.length = 1
  · -- the fast path
    obtain ⟨item, hitem⟩ := List.length_eq_one.mp hone
    rw [transformFromAndWhere_single_item canonicalizeQual hitem hq] at h
    cases h
    refine ⟨.refl _, fun _ => extends_self_of_mem hjt, ?_⟩
    rw [if_pos hone, qualLeaves, andLeaves_removeColumnJoinExpr]
    exact List.perm_append_comm
  -- the general path
  have htwo : 2 ≤ pstate.p_joinlist.length := by
    have := List.length_pos.mpr hjoin
    omega
  rw [transformFromAndWhere_of_two_le canonicalizeQual htwo hq] at h
  obtain ⟨infos, hinfos, h⟩ := except_bind_eq_ok.mp h
  obtain ⟨loop, hloop, h⟩ := except_bind_eq_ok.mp h
  obtain ⟨items', hfrom, -, hleaves, hon, hsub⟩ := pullupJoinQuals_conserves hjt hnd hloop
  rw [hfrom] at h
  cases h
  obtain ⟨h₁, h₂, h₃⟩ := analyzeNewJoinList_keeps
    { pstate with p_save_namespace := pstate.p_namespace } items'
  refine ⟨h₁ ▸ hleaves, fun sub hs => ?_, ?_⟩
  · obtain ⟨sub', hs', hext⟩ := hsub sub hs
    obtain ⟨node, hnode, hsubnode⟩ := mem_subtreesList.mp hs
    exact ⟨sub', h₃ sub' hs' (hext.registered (JoinNode.registered_of_mem_subtrees
      (hitems node hnode).1 (hitems node hnode).2 hsubnode)), hext⟩
  · rw [if_neg hone]
    simp only [JoinNode.fromlist]
    rw [h₂, qualLeaves_keptQuals]
    refine List.perm_append_comm.trans (hon.trans ?_)
    rw [show infos.map (fun jinfo => removeColumnJoinExpr jinfo.expr) =
      (infos.map (·.expr)).map removeColumnJoinExpr by simp, andLeavesList_map_removeColumnJoinExpr]
    simpa using ((getJoinQualExprs_andLeaves canonicalizeQual hinfos).map
      removeColumnJoinExpr).append_left (onLeavesList pstate.p_joinlist)

/-- `FROM t1, t2 WHERE t1.a = t2.a(+)`: the rewrite builds `t1 LEFT JOIN t2 ON t1.a = t2.a`
and keeps both tables and the conjunct. -/
theorem transformFromAndWhere_conserves_left_join :
    ∃ pstate' quals', transformFromAndWhere id (relationsFrom 2)
        (some (int4Eq (.var { varno := 1, varattno := 1 })
          (.columnRefJoin { varno := 2, varattno := 1 } 0))) = .ok (pstate', quals') ∧
      (leavesList pstate'.p_joinlist).Perm (leavesList (relationsFrom 2).p_joinlist) ∧
      (∀ sub ∈ subtreesList (relationsFrom 2).p_joinlist, ∃ sub' ∈ subtreesList pstate'.p_joinlist,
        sub.Extends sub') ∧
      (qualLeaves quals' ++ onLeavesList pstate'.p_joinlist).Perm
        (onLeavesList (relationsFrom 2).p_joinlist ++
          (if (relationsFrom 2).p_joinlist.length = 1 then
            int4Eq (.var { varno := 1, varattno := 1 }) (.columnRefJoin { varno := 2, varattno := 1 } 0)
          else id (int4Eq (.var { varno := 1, varattno := 1 })
            (.columnRefJoin { varno := 2, varattno := 1 } 0))).andLeaves.map removeColumnJoinExpr) :=
  ⟨_, _, rfl, transformFromAndWhere_conserves id
    (fun item h => by
      simp only [relationsFrom, List.mem_map, List.mem_range] at h
      obtain ⟨i, -, rfl⟩ := h
      exact ⟨rfl, rfl⟩)
    (by decide) (by simp [relationsFrom]) (by rfl) rfl⟩

/-! ## The fast path skips `canonicalize_qual` -/

mutual
/-- Structural equality of expression trees, as `equal()` compares nodes. -/
def Expr.sameAs : Expr → Expr → Bool
  | .var v, e' => match e' with
    | .var v' => v == v'
    | _ => false
  | .columnRefJoin v location, e' => match e' with
    | .columnRefJoin v' location' => v == v' && location == location'
    | _ => false
  | .const t value isnull, e' => match e' with
    | .const t' value' isnull' => t == t' && value == value' && isnull == isnull'
    | _ => false
  | .opExpr opno fid args, e' => match e' with
    | .opExpr opno' fid' args' => opno == opno' && fid == fid' && sameAsList args args'
    | _ => false
  | .funcExpr fid args, e' => match e' with
    | .funcExpr fid' args' => fid == fid' && sameAsList args args'
    | _ => false
  | .boolExpr op args, e' => match e' with
    | .boolExpr op' args' => op == op' && sameAsList args args'
    | _ => false
  | .rownumExpr, e' => match e' with
    | .rownumExpr => true
    | _ => false
  | .setToDefault t m c, e' => match e' with
    | .setToDefault t' m' c' => t == t' && m == m' && c == c'
    | _ => false

/-- Structural equality of argument lists. -/
def sameAsList : List Expr → List Expr → Bool
  | [], es' => es'.isEmpty
  | e :: es, es' => match es' with
    | [] => false
    | e' :: es' => e.sameAs e' && sameAsList es es'
end

mutual
/-- Structurally equal expressions are equal. -/
theorem Expr.eq_of_sameAs : ∀ {e e' : Expr}, e.sameAs e' → e = e'
  | .opExpr _ _ args, e', h => by
    cases e' <;> simp only [Expr.sameAs, Bool.and_eq_true, beq_iff_eq, Bool.false_eq_true] at h
    obtain ⟨⟨rfl, rfl⟩, h⟩ := h
    rw [eq_of_sameAsList h]
  | .funcExpr _ args, e', h => by
    cases e' <;> simp only [Expr.sameAs, Bool.and_eq_true, beq_iff_eq, Bool.false_eq_true] at h
    obtain ⟨rfl, h⟩ := h
    rw [eq_of_sameAsList h]
  | .boolExpr _ args, e', h => by
    cases e' <;> simp only [Expr.sameAs, Bool.and_eq_true, beq_iff_eq, Bool.false_eq_true] at h
    obtain ⟨rfl, h⟩ := h
    rw [eq_of_sameAsList h]
  | .var _, e', h | .columnRefJoin _ _, e', h | .const _ _ _, e', h | .rownumExpr, e', h
  | .setToDefault _ _ _, e', h => by
    cases e' <;> simp_all [Expr.sameAs]

/-- The list form of `Expr.eq_of_sameAs`. -/
theorem eq_of_sameAsList : ∀ {es es' : List Expr}, sameAsList es es' → es = es'
  | [], es', h => (List.isEmpty_iff.mp h).symm
  | _ :: _, [], h => nomatch h
  | _ :: _, _ :: _, h => by
    rw [sameAsList, Bool.and_eq_true] at h
    rw [Expr.eq_of_sameAs h.1, eq_of_sameAsList h.2]
end

/-- Three-valued OR is TRUE iff some argument is. -/
theorem datumIsTrue_boolOrDatum (ds : List Datum) :
    datumIsTrue (boolOrDatum ds) = ds.any datumIsTrue := by
  unfold boolOrDatum
  split_ifs with h₁ h₂ <;> simp_all [datumIsTrue]

/-- An OR of expressions holds iff one of them does. -/
theorem holds_or (sem : ExprSem) (row : Row) (rownum : Int) (es : List Expr) :
    (Expr.boolExpr .orExpr es).holds sem row rownum = es.any (·.holds sem row rownum) := by
  rw [Expr.holds, Expr.eval, datumIsTrue_boolOrDatum]
  induction es with
  | nil => rfl
  | cons e es ih => simp [exprListEval, Expr.holds, ih]

/-- A `canonicalize_qual` that factors the conjunct both arms of an OR start with out of
the OR, `(A AND B) OR (A AND C)` to `A AND (B OR C)`, as PostgreSQL's does. -/
def factorCommonConjunct : Expr → Expr
  | .boolExpr .orExpr [.boolExpr .andExpr [a, b], .boolExpr .andExpr [a', c]] =>
    if a.sameAs a' then makeAndExpr [a, .boolExpr .orExpr [b, c]]
    else .boolExpr .orExpr [.boolExpr .andExpr [a, b], .boolExpr .andExpr [a', c]]
  | e => e

/-- Factoring a shared conjunct out of an OR keeps the meaning of every WHERE. -/
theorem holds_factorCommonConjunct (sem : ExprSem) (row : Row) (rownum : Int) (e : Expr) :
    (factorCommonConjunct e).holds sem row rownum = e.holds sem row rownum := by
  unfold factorCommonConjunct
  split
  · split_ifs with h
    · obtain rfl := Expr.eq_of_sameAs h
      simp only [makeAndExpr, holds_and, holds_or, List.all_cons, List.all_nil, List.any_cons,
        List.any_nil, Bool.and_true, Bool.or_false, Bool.and_or_distrib_left]
    · rfl
  · rfl

/-- `(t1.a(+) = 1 AND t1.b = 2) OR (t1.a(+) = 1 AND t1.b = 3)`, as the parser builds it. -/
def sharedMarkerOrWhere : Expr :=
  .boolExpr .orExpr
    [makeAndExpr [int4Eq (.columnRefJoin { varno := 1, varattno := 1 } 0) (.const 23 1 false),
       int4Eq (.var { varno := 1, varattno := 2 }) (.const 23 2 false)],
     makeAndExpr [int4Eq (.columnRefJoin { varno := 1, varattno := 1 } 0) (.const 23 1 false),
       int4Eq (.var { varno := 1, varattno := 2 }) (.const 23 3 false)]]

/-- `FROM t1 WHERE (t1.a(+) = 1 AND t1.b = 2) OR (t1.a(+) = 1 AND t1.b = 3)`, with a
`canonicalize_qual` that factors `t1.a(+) = 1` out of the OR: the canonicalized WHERE has
the conjunct `t1.a = 1`, but the fast path returns the WHERE as it was, stripped, in
which `t1.a = 1` is no conjunct, and the FROM list has no ON clause to hold it. -/
theorem transformFromAndWhere_fast_path_skips_canonical :
    transformFromAndWhere factorCommonConjunct (relationsFrom 1) (some sharedMarkerOrWhere) =
        .ok (relationsFrom 1, some (removeColumnJoinExpr sharedMarkerOrWhere)) ∧
      (factorCommonConjunct sharedMarkerOrWhere).andLeaves.map removeColumnJoinExpr =
        [int4Eq (.var { varno := 1, varattno := 1 }) (.const 23 1 false),
         .boolExpr .orExpr [int4Eq (.var { varno := 1, varattno := 2 }) (.const 23 2 false),
           int4Eq (.var { varno := 1, varattno := 2 }) (.const 23 3 false)]] ∧
      int4Eq (.var { varno := 1, varattno := 1 }) (.const 23 1 false) ∉
        qualLeaves (some (removeColumnJoinExpr sharedMarkerOrWhere)) ++
          onLeavesList (relationsFrom 1).p_joinlist := by
  refine ⟨rfl, rfl, ?_⟩
  rw [show qualLeaves (some (removeColumnJoinExpr sharedMarkerOrWhere)) ++
    onLeavesList (relationsFrom 1).p_joinlist = [removeColumnJoinExpr sharedMarkerOrWhere] from rfl]
  simp [sharedMarkerOrWhere, int4Eq, removeColumnJoinExpr]

end AntdbAnalyze
