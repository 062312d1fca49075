import AntdbAnalyze.SetOp.Tree

/-!
# The output columns of a set-operation query

Every node of the tree `transformSetOperationStmt` builds has as many output columns as each
leaf below it has non-junk entries, and the outer query's target list reads them off the
leftmost leaf.

- `SetOpNode.hasColumns`: the column invariant of a tree over a range table, which survives
  every later change the analysis makes to the range table (`RtableExtends`).
- `transformSetOpNode_result`: one operation node keeps it, given that its two inputs do.
- `transformSetOperationTree_result`: by induction over the statement, every tree the
  recursion returns has it.
- **`transformSetOperationStmt_columns`**: the query of a set-operation statement.

Two facts about the functions the code calls are assumed (`SetOpCallees.WellBehaved`): a
leaf's junk entries come after the others, and `transformSortClause` only appends, to the
range table and to the target list.
-/

namespace AntdbAnalyze

variable {σ ρ : Type}

/-! ## The invariant -/

/-- The junk flags of the target list of the sub-query of range-table entry `r`. -/
def subqueryJunkFlags (rtable : List RangeTblEntry) (r : Nat) : Option (List Bool) :=
  (rtFetch r rtable).bind fun rte => rte.subquery.map fun query => query.targetList.map (·.resjunk)

/-- The number of non-junk entries. -/
def nonJunkCount (flags : List Bool) : Nat :=
  (flags.filter (!·)).length

/-- Whether the junk entries all come after the others. -/
def trailingJunk (flags : List Bool) : Bool :=
  (flags.dropWhile (!·)).all id

/-- Every node below has `k` output columns: an operation node has `k` types, typmods and
collations, and `k` grouping clauses unless it is UNION ALL; a leaf's query has `k`
non-junk entries. -/
def SetOpNode.hasColumns (rtable : List RangeTblEntry) (k : Nat) : SetOpNode → Bool
  | .rangeTblRef r _ => (subqueryJunkFlags rtable r).any (nonJunkCount · == k)
  | .setOperationStmt op all larg rarg colTypes colTypmods colCollations groupClauses =>
    colTypes.length == k && colTypmods.length == k && colCollations.length == k &&
      groupClauses.length == (if op = .union ∧ all then 0 else k) &&
      larg.hasColumns rtable k && rarg.hasColumns rtable k

/-- An operation node's own three column lists have `k` entries. -/
def SetOpNode.RootColumns (node : SetOpNode) (k : Nat) : Prop :=
  node.colTypes.length = k ∧ node.colTypmods.length = k ∧ node.colCollations.length = k

/-- `rtable'` keeps every sub-query entry of `rtable`, up to the expressions of its target
list. -/
def RtableExtends (rtable rtable' : List RangeTblEntry) : Prop :=
  ∀ r, (subqueryJunkFlags rtable r).isSome → subqueryJunkFlags rtable' r = subqueryJunkFlags rtable r

/-- What `transformSetOperationTree` leaves, from the range table `rtable` it started with:
the range table extended, every node below with as many columns as the entries handed up,
and the leftmost leaf's junk entries after the others. -/
structure TreeResult (rtable : List RangeTblEntry) (pstate : ParseState) (node : SetOpNode)
    (targetlist : List TargetEntry) : Prop where
  rtable_extends : RtableExtends rtable pstate.p_rtable
  hasColumns : node.hasColumns pstate.p_rtable targetlist.length = true
  leftmost_trailingJunk : (subqueryJunkFlags pstate.p_rtable node.leftmostRTI).any trailingJunk = true

/-- The output columns of a set-operation query, `k` being the length of its target list:
every node of its tree has `k` columns, the root's type lists too, and the `i`-th entry is
the `Var` of the leftmost leaf's `i`-th non-junk entry, typed with the root's `i`-th type,
typmod and collation. -/
def SetOpQueryColumns (query : Query) : Prop :=
  ∃ sostmt leftmostQuery, query.setOperations = some sostmt ∧
    sostmt.hasColumns query.rtable query.targetList.length = true ∧
    sostmt.RootColumns query.targetList.length ∧
    (rtFetch sostmt.leftmostRTI query.rtable).bind (·.subquery) = some leftmostQuery ∧
    query.targetList.map (·.expr) =
      ((leftmostQuery.targetList.filter (!·.resjunk)).zip
          (sostmt.colTypes.zip (sostmt.colTypmods.zip sostmt.colCollations))).map
        fun (tle, colType, colTypmod, colCollation) =>
          .var (makeVar sostmt.leftmostRTI sostmt.leftmostRTI_pos tle.resno colType colTypmod
            colCollation 0)

/-- What the set-operation code relies on from the functions it calls:
`transformSelectStmt` and `transformValuesClause` put a leaf's junk entries (the ORDER BY and
GROUP BY items missing from its select list) after the others, and `transformSortClause`
only appends, to the range table and to the target list. -/
structure SetOpCallees.WellBehaved (callees : SetOpCallees σ ρ) : Prop where
  transformSelect_trailingJunk : ∀ body clauses query,
    callees.transformSelect body clauses = .ok query →
      trailingJunk (query.targetList.map (·.resjunk)) = true
  transformSortClause_appends : ∀ pstate sortClause targetList pstate' sortGroup targetList',
    callees.transformSortClause pstate sortClause targetList =
        .ok (pstate', sortGroup, targetList') →
      pstate.p_rtable <+: pstate'.p_rtable ∧ targetList <+: targetList'

/-! ## The range table -/

theorem RtableExtends.refl (rtable : List RangeTblEntry) : RtableExtends rtable rtable :=
  fun _ _ => rfl

theorem RtableExtends.trans {rtable₁ rtable₂ rtable₃ : List RangeTblEntry}
    (h₁₂ : RtableExtends rtable₁ rtable₂) (h₂₃ : RtableExtends rtable₂ rtable₃) :
    RtableExtends rtable₁ rtable₃ := fun r hr =>
  (h₂₃ r (by rw [h₁₂ r hr]; exact hr)).trans (h₁₂ r hr)

/-- An entry with a sub-query lies within the range table. -/
theorem lt_length_of_subqueryJunkFlags {rtable : List RangeTblEntry} {r : Nat}
    (hr : (subqueryJunkFlags rtable r).isSome) : r - 1 < rtable.length := by
  unfold subqueryJunkFlags rtFetch at hr
  by_contra hlt
  rw [List.getElem?_eq_none (Nat.le_of_not_lt hlt)] at hr
  simp at hr

theorem rtableExtends_append (rtable extra : List RangeTblEntry) :
    RtableExtends rtable (rtable ++ extra) := fun r hr => by
  simp only [subqueryJunkFlags, rtFetch,
    List.getElem?_append_left (lt_length_of_subqueryJunkFlags hr)]

/-- Storing coerced expressions into a sub-query keeps its junk flags. -/
theorem replaceNonJunkExprs_resjunk :
    ∀ (targetList : List TargetEntry) (exprs : List Expr),
      (replaceNonJunkExprs targetList exprs).map (·.resjunk) = targetList.map (·.resjunk)
  | [], _ => rfl
  | tle :: rest, exprs => by
    unfold replaceNonJunkExprs
    split
    · simp [replaceNonJunkExprs_resjunk rest exprs]
    · split <;> simp [replaceNonJunkExprs_resjunk]

/-- Storing coerced expressions into an entry's sub-query keeps its junk flags. -/
theorem replaceSubqueryExprs_junkFlags (exprs : List Expr) (rte : RangeTblEntry) :
    (replaceSubqueryExprs exprs rte).subquery.map (fun query => query.targetList.map (·.resjunk)) =
      rte.subquery.map fun query => query.targetList.map (·.resjunk) := by
  rcases rte with ⟨_, _, _, _ | query, _, _, _, _, _⟩ <;>
    simp [replaceSubqueryExprs, replaceNonJunkExprs_resjunk]

@[simp] theorem subqueryJunkFlags_storeCoercedExprs (pstate : ParseState) (node : SetOpNode)
    (exprs : List Expr) (r : Nat) :
    subqueryJunkFlags (storeCoercedExprs pstate node exprs).p_rtable r =
      subqueryJunkFlags pstate.p_rtable r := by
  cases node with
  | setOperationStmt => rfl
  | rangeTblRef rtindex _ =>
    simp only [storeCoercedExprs, subqueryJunkFlags, rtFetch, List.getElem?_modify]
    cases (pstate.p_rtable)[r - 1]? with
    | none => rfl
    | some rte =>
      split
      · exact replaceSubqueryExprs_junkFlags exprs rte
      · rfl

/-- A lookup that satisfies a test found something. -/
theorem isSome_of_any_eq_true {α : Type} {p : α → Bool} :
    ∀ {o : Option α}, o.any p = true → o.isSome = true
  | some _, _ => rfl

/-- A tree's column invariant survives an extension of the range table. -/
theorem SetOpNode.hasColumns_of_extends {rtable rtable' : List RangeTblEntry} {k : Nat}
    (hext : RtableExtends rtable rtable') :
    ∀ {node : SetOpNode}, node.hasColumns rtable k = true → node.hasColumns rtable' k = true
  | .rangeTblRef r _, h => by
    simp only [hasColumns] at h ⊢
    rw [hext r (isSome_of_any_eq_true h)]
    exact h
  | .setOperationStmt .., h => by
    simp only [hasColumns, Bool.and_eq_true] at h ⊢
    exact ⟨⟨h.1.1, hasColumns_of_extends hext h.1.2⟩, hasColumns_of_extends hext h.2⟩

/-- The leftmost leaf's flags survive an extension of the range table. -/
theorem leftmost_of_extends {rtable rtable' : List RangeTblEntry} {r : Nat} {p : List Bool → Bool}
    (hext : RtableExtends rtable rtable') (h : (subqueryJunkFlags rtable r).any p = true) :
    (subqueryJunkFlags rtable' r).any p = true := by
  rw [hext r (isSome_of_any_eq_true h)]
  exact h

/-- A tree with `k` columns everywhere has a leftmost leaf with `k` non-junk entries. -/
theorem SetOpNode.hasColumns_leftmost {rtable : List RangeTblEntry} {k : Nat} :
    ∀ {node : SetOpNode}, node.hasColumns rtable k = true →
      (subqueryJunkFlags rtable node.leftmostRTI).any (nonJunkCount · == k) = true
  | .rangeTblRef _ _, h => h
  | .setOperationStmt .., h => by
    simp only [hasColumns, Bool.and_eq_true] at h
    have hlarg := hasColumns_leftmost h.1.2
    exact hlarg

/-! ## Leaves -/

/-- The non-junk entries of a target list are as many as its non-junk flags. -/
theorem length_filter_nonJunk (targetList : List TargetEntry) :
    (targetList.filter (!·.resjunk)).length = nonJunkCount (targetList.map (·.resjunk)) := by
  simp [nonJunkCount, List.filter_map, Function.comp_def]

/-- A leaf is entered at the end of the range table, with the flags of its query. -/
theorem addSetOpLeaf_result {callees : SetOpCallees σ ρ} {pstate pstate' : ParseState}
    {selectQuery : Query} {node : SetOpNode} {targetlist : List TargetEntry}
    (h : addSetOpLeaf callees pstate selectQuery = .ok (pstate', node, targetlist))
    (hjunk : trailingJunk (selectQuery.targetList.map (·.resjunk)) = true) :
    TreeResult pstate.p_rtable pstate' node targetlist := by
  unfold addSetOpLeaf at h
  split at h
  · cases h
  · cases h
    refine ⟨rtableExtends_append _ _, ?_, ?_⟩
    · simp [SetOpNode.hasColumns, subqueryJunkFlags, rtFetch, length_filter_nonJunk]
    · simp [SetOpNode.leftmostRTI, subqueryJunkFlags, rtFetch, hjunk]

/-! ## Operation nodes -/

/-- There is a grouping clause exactly when the operation is not UNION ALL. -/
theorem setOpGroupClause_isSome {callees : SetOpCallees σ ρ} {op : SetOperation} {all : Bool}
    {rescoltype : Oid} {groupClause : Option SortGroupClause}
    (h : setOpGroupClause callees op all rescoltype = .ok groupClause) :
    groupClause.isSome = !(op == .union && all) := by
  unfold setOpGroupClause at h
  split at h
  · obtain ⟨_, -, h⟩ := except_bind_eq_ok.mp h
    cases h
    cases op <;> cases all <;> simp_all
  · cases h
    cases op <;> cases all <;> simp_all

/-- A column has a grouping clause exactly when the operation is not UNION ALL. -/
theorem transformSetOpColumn_groupClause {callees : SetOpCallees σ ρ} {op : SetOperation}
    {all : Bool} {ltle rtle : TargetEntry} {column : SetOpColumn}
    (h : transformSetOpColumn callees op all ltle rtle = .ok column) :
    column.groupClause.isSome = !(op == .union && all) := by
  simp only [transformSetOpColumn] at h
  obtain ⟨_, -, h⟩ := except_bind_eq_ok.mp h
  obtain ⟨_, -, h⟩ := except_bind_eq_ok.mp h
  obtain ⟨_, -, h⟩ := except_bind_eq_ok.mp h
  obtain ⟨_, -, h⟩ := except_bind_eq_ok.mp h
  obtain ⟨groupClause, hgroup, h⟩ := except_bind_eq_ok.mp h
  cases h
  exact setOpGroupClause_isSome hgroup

/-- The grouping clauses of a node: one per column, or none at all. -/
theorem length_filterMap_groupClause (b : Bool) :
    ∀ {columns : List SetOpColumn}, (∀ c ∈ columns, c.groupClause.isSome = b) →
      (columns.filterMap (·.groupClause)).length = if b then columns.length else 0
  | [], _ => by split <;> rfl
  | c :: cs, h => by
    have ih := length_filterMap_groupClause b fun c' hc' => h c' (List.mem_cons_of_mem _ hc')
    have hc := h c (List.mem_cons_self _ _)
    cases hg : c.groupClause <;> cases b <;> simp_all [List.filterMap_cons]

/-- Every right-hand element of a `Forall₂` is related to some left-hand one. -/
theorem forall_mem_right_of_forall₂ {α β : Type} {R : α → β → Prop} {P : β → Prop}
    (hP : ∀ a b, R a b → P b) : ∀ {l₁ : List α} {l₂ : List β}, List.Forall₂ R l₁ l₂ → ∀ b ∈ l₂, P b
  | _, _, .nil => by simp
  | _, _, .cons hab h => List.forall_mem_cons.mpr ⟨hP _ _ hab, forall_mem_right_of_forall₂ hP h⟩

/-- The CTE step leaves the range table alone. -/
theorem recursiveColTypesAtTop_rtable {callees : SetOpCallees σ ρ} {pstate pstate' : ParseState}
    {isTopLevel : Bool} {larg : SetOpNode} {ltargetlist : List TargetEntry}
    (h : recursiveColTypesAtTop callees pstate isTopLevel larg ltargetlist = .ok pstate') :
    pstate'.p_rtable = pstate.p_rtable := by
  unfold recursiveColTypesAtTop at h
  split at h
  · split at h
    · obtain ⟨_, -, h⟩ := except_bind_eq_ok.mp h
      cases h
      rfl
    · cases h
      rfl
  · cases h
    rfl

/-- **One operation node keeps the invariant**, given that both inputs do: its inputs have
as many columns as each other, the node as many as they, and its leftmost leaf is the left
input's. -/
theorem transformSetOpNode_result {callees : SetOpCallees σ ρ} {pstate : ParseState}
    {op : SetOperation} {all isTopLevel : Bool}
    {transformLarg transformRarg :
      ParseState → Except ErrorData (ParseState × SetOpNode × List TargetEntry)}
    (hlarg : ∀ {ps ps' node tl}, transformLarg ps = .ok (ps', node, tl) →
      TreeResult ps.p_rtable ps' node tl)
    (hrarg : ∀ {ps ps' node tl}, transformRarg ps = .ok (ps', node, tl) →
      TreeResult ps.p_rtable ps' node tl)
    {pstate' : ParseState} {node : SetOpNode} {targetlist : List TargetEntry}
    (h : transformSetOpNode callees pstate op all isTopLevel transformLarg transformRarg =
      .ok (pstate', node, targetlist)) :
    TreeResult pstate.p_rtable pstate' node targetlist ∧ node.RootColumns targetlist.length := by
  unfold transformSetOpNode at h
  obtain ⟨⟨ps₁, larg, ltargetlist⟩, hl, h⟩ := except_bind_eq_ok.mp h
  obtain ⟨ps₂, hcte, h⟩ := except_bind_eq_ok.mp h
  obtain ⟨⟨ps₃, rarg, rtargetlist⟩, hr, h⟩ := except_bind_eq_ok.mp h
  dsimp only at h
  split at h
  · cases h
  next hk =>
  rw [not_not] at hk
  obtain ⟨_, -, h⟩ := except_bind_eq_ok.mp h
  obtain ⟨columns, hcolumns, h⟩ := except_bind_eq_ok.mp h
  cases h
  have L := hlarg hl
  have R := hrarg hr
  have hcols := forall₂_of_mapM_eq_ok hcolumns
  have hn : columns.length = ltargetlist.length := by
    rw [← hcols.length_eq, List.length_zip, hk, min_self]
  have hgroup : ∀ c ∈ columns, c.groupClause.isSome = !(op == .union && all) :=
    forall_mem_right_of_forall₂ (fun _ _ h => transformSetOpColumn_groupClause h) hcols
  -- the left input's entries survive the right input, the stores keep every flag
  have hext₁ : RtableExtends ps₁.p_rtable ps₃.p_rtable := by
    rw [← recursiveColTypesAtTop_rtable hcte]
    exact R.rtable_extends
  have hext : RtableExtends ps₃.p_rtable (storeCoercedExprs (storeCoercedExprs ps₃ larg
      (columns.map (·.lexpr))) rarg (columns.map (·.rexpr))).p_rtable := fun r _ => by simp
  refine ⟨⟨L.rtable_extends.trans (hext₁.trans hext), ?_, ?_⟩, ?_⟩
  · simp only [SetOpNode.hasColumns, List.length_map, beq_self_eq_true, Bool.true_and,
      Bool.and_eq_true, beq_iff_eq]
    refine ⟨⟨?_, ?_⟩, ?_⟩
    · rw [length_filterMap_groupClause _ hgroup]
      cases op <;> cases all <;> rfl
    · exact SetOpNode.hasColumns_of_extends (hext₁.trans hext) (hn ▸ L.hasColumns)
    · exact SetOpNode.hasColumns_of_extends hext (by rw [hn, hk]; exact R.hasColumns)
  · exact leftmost_of_extends (hext₁.trans hext) L.leftmost_trailingJunk
  · simp [SetOpNode.RootColumns, SetOpNode.colTypes, SetOpNode.colTypmods,
      SetOpNode.colCollations]

/-! ## The outer query -/

section TargetList

variable (varno : Nat) (hvarno : 0 < varno)

/-- The outer target list reads as many entries as there are column types, from the head. -/
theorem setOpTargetList_append :
    ∀ (nextResno : Nat) (colTypes : List Oid) (colTypmods : List Int) (colCollations : List Oid)
      (l₁ l₂ : List TargetEntry), colTypes.length ≤ l₁.length →
      setOpTargetList varno hvarno nextResno colTypes colTypmods colCollations (l₁ ++ l₂) =
        setOpTargetList varno hvarno nextResno colTypes colTypmods colCollations l₁
  | _, [], _, _, _, _, _ => rfl
  | _, _ :: _, _, _, [], _, h => absurd h (by simp)
  | _, _ :: _, [], _, _ :: _, _, _ => rfl
  | _, _ :: _, _ :: _, [], _ :: _, _, _ => rfl
  | n, _ :: colTypes, _ :: colTypmods, _ :: colCollations, _ :: l₁, l₂, h => by
    simp only [List.cons_append, setOpTargetList, List.append_eq,
      setOpTargetList_append (n + 1) colTypes colTypmods colCollations l₁ l₂
        (Nat.le_of_succ_le_succ h)]

/-- The outer target list's expressions: one `Var` per column, as far as the column lists
and the entries read all go. -/
theorem setOpTargetList_expr :
    ∀ (nextResno : Nat) (colTypes : List Oid) (colTypmods : List Int) (colCollations : List Oid)
      (l : List TargetEntry),
      (setOpTargetList varno hvarno nextResno colTypes colTypmods colCollations l).map (·.expr) =
        (l.zip (colTypes.zip (colTypmods.zip colCollations))).map
          fun (tle, colType, colTypmod, colCollation) =>
            .var (makeVar varno hvarno tle.resno colType colTypmod colCollation 0)
  | _, [], _, _, _ => by simp [setOpTargetList]
  | _, _ :: _, [], _, _ => by simp [setOpTargetList]
  | _, _ :: _, _ :: _, [], _ => by simp [setOpTargetList]
  | _, _ :: _, _ :: _, _ :: _, [] => by simp [setOpTargetList]
  | n, _ :: colTypes, _ :: colTypmods, _ :: colCollations, _ :: l => by
    simp only [setOpTargetList, List.map_cons, List.zip_cons_cons,
      setOpTargetList_expr (n + 1) colTypes colTypmods colCollations l]

/-- The outer target list has no junk entry. -/
theorem setOpTargetList_resjunk :
    ∀ (nextResno : Nat) (colTypes : List Oid) (colTypmods : List Int) (colCollations : List Oid)
      (l : List TargetEntry),
      (setOpTargetList varno hvarno nextResno colTypes colTypmods colCollations l).all
        (!·.resjunk) = true
  | _, [], _, _, _ | _, _ :: _, [], _, _ | _, _ :: _, _ :: _, [], _
  | _, _ :: _, _ :: _, _ :: _, [] => rfl
  | n, _ :: colTypes, _ :: colTypmods, _ :: colCollations, _ :: l => by
    simp only [setOpTargetList, List.all_cons, Bool.not_false, Bool.true_and,
      setOpTargetList_resjunk (n + 1) colTypes colTypmods colCollations l]

end TargetList

/-- With the junk entries last, the non-junk entries are a prefix of the target list. -/
theorem eq_filter_append_of_trailingJunk :
    ∀ {targetList : List TargetEntry}, trailingJunk (targetList.map (·.resjunk)) = true →
      targetList = targetList.filter (!·.resjunk) ++ targetList.dropWhile (!·.resjunk)
  | [], _ => rfl
  | tle :: rest, h => by
    cases hjunk : tle.resjunk
    · simp only [trailingJunk, List.map_cons, hjunk, List.dropWhile_cons, Bool.not_false,
        if_true] at h
      simp only [List.filter_cons, List.dropWhile_cons, hjunk, Bool.not_false, if_true,
        List.cons_append, ← eq_filter_append_of_trailingJunk h]
    · simp only [trailingJunk, List.map_cons, hjunk, List.dropWhile_cons, Bool.not_true,
        Bool.false_eq_true, if_false, List.all_cons, id, Bool.true_and] at h
      have hrest : rest.filter (!·.resjunk) = [] := List.filter_eq_nil_iff.mpr fun x hx => by
        have := List.all_eq_true.mp h _ (List.mem_map_of_mem _ hx)
        simp_all
      simp [List.filter_cons, List.dropWhile_cons, hjunk, hrest]

/-- Over a target list with its junk entries last, `k` of them not junk, and `k` columns,
the outer target list reads the non-junk entries, one `Var` each, and has `k` entries. -/
theorem setOpTargetList_of_trailingJunk (varno : Nat) (hvarno : 0 < varno) (nextResno : Nat)
    {colTypes : List Oid} {colTypmods : List Int} {colCollations : List Oid}
    {targetList : List TargetEntry} {k : Nat}
    (htrail : trailingJunk (targetList.map (·.resjunk)) = true)
    (hcount : nonJunkCount (targetList.map (·.resjunk)) = k)
    (hct : colTypes.length = k) (hcm : colTypmods.length = k) (hcc : colCollations.length = k) :
    (setOpTargetList varno hvarno nextResno colTypes colTypmods colCollations targetList).map
        (·.expr) =
      ((targetList.filter (!·.resjunk)).zip (colTypes.zip (colTypmods.zip colCollations))).map
        (fun (tle, colType, colTypmod, colCollation) =>
          .var (makeVar varno hvarno tle.resno colType colTypmod colCollation 0)) ∧
    (setOpTargetList varno hvarno nextResno colTypes colTypmods colCollations
      targetList).length = k := by
  have hF : (targetList.filter (!·.resjunk)).length = k := by rw [length_filter_nonJunk, hcount]
  have hread := setOpTargetList_append varno hvarno nextResno colTypes colTypmods colCollations
    _ (targetList.dropWhile (!·.resjunk)) (by rw [hct, hF])
  rw [← eq_filter_append_of_trailingJunk htrail] at hread
  have hexpr := hread ▸ setOpTargetList_expr varno hvarno nextResno colTypes colTypmods
    colCollations (targetList.filter (!·.resjunk))
  refine ⟨hexpr, ?_⟩
  rw [← List.length_map _ (·.expr), hexpr]
  simp [List.length_zip, hF, hct, hcm, hcc]

/-- The flags of an entry's sub-query, read off the sub-query itself. -/
theorem subqueryJunkFlags_eq {rtable : List RangeTblEntry} {r : Nat} {query : Query}
    (h : (rtFetch r rtable).bind (·.subquery) = some query) :
    subqueryJunkFlags rtable r = some (query.targetList.map (·.resjunk)) := by
  unfold subqueryJunkFlags
  cases hrte : rtFetch r rtable with
  | none => simp [hrte] at h
  | some rte => simp_all

/-- `leftmostSubquery` finds the query of the leftmost leaf. -/
theorem leftmostSubquery_eq_ok {rtable : List RangeTblEntry} {node : SetOpNode} {query : Query}
    (h : leftmostSubquery rtable node = .ok query) :
    (rtFetch node.leftmostRTI rtable).bind (·.subquery) = some query := by
  unfold leftmostSubquery at h
  split at h
  · cases h
    assumption
  · cases h

/-- **The outer query.** Given a tree with `k` columns everywhere, whose leftmost leaf has
its junk entries last, `transformSetOperationStmt` returns a query with `k` output columns
read off that leaf, and none of them junk. -/
theorem transformSetOperationStmtWith_columns {callees : SetOpCallees σ ρ}
    (hcallees : callees.WellBehaved) {pstate : ParseState} {larg : SelectStmt σ ρ}
    {clauses : SelectClauses ρ}
    {transformTree : ParseState → Except ErrorData (ParseState × SetOpNode × List TargetEntry)}
    (htree : ∀ {ps ps' node tl}, transformTree ps = .ok (ps', node, tl) →
      TreeResult ps.p_rtable ps' node tl ∧ node.RootColumns tl.length)
    {query : Query}
    (h : transformSetOperationStmtWith callees pstate larg clauses transformTree = .ok query) :
    SetOpQueryColumns query ∧ query.targetList.all (!·.resjunk) = true := by
  unfold transformSetOperationStmtWith at h
  split at h
  · cases h
  obtain ⟨_, -, h⟩ := except_bind_eq_ok.mp h
  obtain ⟨_, -, h⟩ := except_bind_eq_ok.mp h
  obtain ⟨⟨ps₁, sostmt, tl⟩, htr, h⟩ := except_bind_eq_ok.mp h
  obtain ⟨leftmostQuery, hleft, h⟩ := except_bind_eq_ok.mp h
  obtain ⟨⟨ps₂, sortClause, targetList'⟩, hsort, h⟩ := except_bind_eq_ok.mp h
  dsimp only at h
  split at h
  · cases h
  next hlen =>
  obtain ⟨_, -, h⟩ := except_bind_eq_ok.mp h
  obtain ⟨_, -, h⟩ := except_bind_eq_ok.mp h
  obtain ⟨_, -, h⟩ := except_bind_eq_ok.mp h
  cases h
  obtain ⟨T, hct, hcm, hcc⟩ := htree htr
  have hlq := leftmostSubquery_eq_ok hleft
  have hflags := subqueryJunkFlags_eq hlq
  have hcount := SetOpNode.hasColumns_leftmost T.hasColumns
  have htrail := T.leftmost_trailingJunk
  rw [hflags] at hcount htrail
  simp only [Option.any_some, beq_iff_eq] at hcount htrail
  -- the outer target list reads the leftmost leaf's non-junk entries
  obtain ⟨hexpr, hk⟩ := setOpTargetList_of_trailingJunk sostmt.leftmostRTI
    sostmt.leftmostRTI_pos ps₁.p_next_resno htrail hcount hct hcm hcc
  have hjunk := setOpTargetList_resjunk sostmt.leftmostRTI sostmt.leftmostRTI_pos
    ps₁.p_next_resno sostmt.colTypes sostmt.colTypmods sostmt.colCollations
    leftmostQuery.targetList
  generalize setOpTargetList sostmt.leftmostRTI sostmt.leftmostRTI_pos ps₁.p_next_resno
    sostmt.colTypes sostmt.colTypmods sostmt.colCollations leftmostQuery.targetList = targetList
    at hsort hlen hexpr hjunk hk ⊢
  -- ORDER BY only appends, and the entry it resolves against is truncated away
  obtain ⟨hrt, hprefix⟩ := hcallees.transformSortClause_appends _ _ _ _ _ _ hsort
  obtain rfl := hprefix.eq_of_length (not_not.mp hlen)
  obtain ⟨extra, hextra⟩ := hrt
  simp only [addRangeTableEntryForJoin] at hextra
  have hrtable : ps₂.p_rtable.take ps₁.p_rtable.length = ps₁.p_rtable := by
    rw [← hextra, List.append_assoc, List.take_left]
  dsimp only
  rw [hrtable]
  refine ⟨⟨sostmt, leftmostQuery, rfl, ?_, ?_, hlq, hexpr⟩, hjunk⟩ <;> rw [hk]
  · exact T.hasColumns
  · exact ⟨hct, hcm, hcc⟩

/-! ## The whole tree -/

/-- A target list with no junk entry has its junk entries last. -/
theorem trailingJunk_of_all_nonJunk :
    ∀ {targetList : List TargetEntry}, targetList.all (!·.resjunk) = true →
      trailingJunk (targetList.map (·.resjunk)) = true
  | [], _ => rfl
  | tle :: rest, h => by
    simp only [List.all_cons, Bool.and_eq_true, Bool.not_eq_true'] at h
    simp only [trailingJunk, List.map_cons, h.1, List.dropWhile_cons, Bool.not_false, if_true]
    exact trailingJunk_of_all_nonJunk h.2

/-- **Every tree `transformSetOperationTree` returns keeps the invariant**, by induction over
the statement: a leaf's query has its junk entries last, an operation node keeps the
invariant of its inputs, and an operation node with leaf clauses is a query of its own
with no junk entry. -/
theorem transformSetOperationTree_result {callees : SetOpCallees σ ρ}
    (hcallees : callees.WellBehaved) :
    ∀ (stmt : SelectStmt σ ρ) {pstate pstate' : ParseState} {isTopLevel : Bool} {node : SetOpNode}
      {targetlist : List TargetEntry},
      transformSetOperationTree callees pstate stmt isTopLevel = .ok (pstate', node, targetlist) →
        TreeResult pstate.p_rtable pstate' node targetlist
  | .leaf body clauses, _, _, _, _, _, h => by
    obtain ⟨_, -, h⟩ := except_bind_eq_ok.mp h
    obtain ⟨query, hquery, h⟩ := except_bind_eq_ok.mp h
    exact addSetOpLeaf_result h (hcallees.transformSelect_trailingJunk _ _ _ hquery)
  | .setOp op all larg rarg clauses, _, _, _, _, _, h => by
    obtain ⟨_, -, h⟩ := except_bind_eq_ok.mp h
    dsimp only at h
    split at h
    · obtain ⟨query, hquery, h⟩ := except_bind_eq_ok.mp h
      have hq := transformSetOperationStmtWith_columns hcallees (fun htr => by
        obtain ⟨_, -, htr⟩ := except_bind_eq_ok.mp htr
        exact transformSetOpNode_result (transformSetOperationTree_result hcallees larg)
          (transformSetOperationTree_result hcallees rarg) htr) hquery
      exact addSetOpLeaf_result h (trailingJunk_of_all_nonJunk hq.2)
    · exact (transformSetOpNode_result (transformSetOperationTree_result hcallees larg)
        (transformSetOperationTree_result hcallees rarg) h).1

/-- **The output columns of a set-operation statement.** For every set-operation
statement `transformSetOperationStmt` analyzes, of any depth and any mix of UNION, INTERSECT
and EXCEPT with or without ALL, every operation node of the tree it builds has as many
types, typmods and collations as each leaf below has non-junk entries, and as many grouping
clauses unless it is UNION ALL; the query's target list has that many entries, the `i`-th
being the `Var` of the leftmost leaf's `i`-th non-junk entry, typed with the root's `i`-th
type, typmod and collation. -/
theorem transformSetOperationStmt_columns {callees : SetOpCallees σ ρ}
    (hcallees : callees.WellBehaved) (pstate : ParseState) (op : SetOperation) (all : Bool)
    (larg rarg : SelectStmt σ ρ) (clauses : SelectClauses ρ) {query : Query}
    (h : transformSetOperationStmt callees pstate op all larg rarg clauses = .ok query) :
    SetOpQueryColumns query :=
  (transformSetOperationStmtWith_columns hcallees (fun htr => by
    rw [transformSetOperationTree_withoutTopLevel] at htr
    obtain ⟨_, -, htr⟩ := except_bind_eq_ok.mp htr
    exact transformSetOpNode_result (transformSetOperationTree_result hcallees larg)
      (transformSetOperationTree_result hcallees rarg) htr) h).1

/-- Leaves that are one `int4` literal each, `SELECT v AS a`, resolved with the type of the
left input and no coercion. -/
def literalCallees : SetOpCallees Int Unit where
  transformSelect value _ :=
    .ok { makeQuery with targetList := [⟨.const int4Oid value false, 1, some "a", false⟩] }
  exprType
    | .const consttype _ _ => consttype
    | .setToDefault typeId _ _ => typeId
    | _ => unknownOid
  exprTypmod _ := -1
  selectCommonType
    | [.const consttype _ _, _] | [.setToDefault consttype _ _, _] => fun _ => .ok consttype
    | _ => fun _ => .ok unknownOid
  coerceToCommonType expr _ _ := .ok expr
  selectCommonCollation _ _ := .ok 0
  getSortGroupOperators _ := .ok (97, 96, true)
  containVarsOfLevel _ _ := false
  transformSortClause pstate _ targetList := .ok (pstate, [], targetList)
  transformLimitClause _ _ := .ok none
  analyzeCTETargetList cte _ := cte

theorem literalCallees_wellBehaved : literalCallees.WellBehaved where
  transformSelect_trailingJunk _ _ _ h := by
    cases h
    rfl
  transformSortClause_appends _ _ _ _ _ _ h := by
    cases h
    exact ⟨List.prefix_refl _, List.prefix_refl _⟩

/-- A statement with no clauses. -/
def noClauses : SelectClauses Unit :=
  ⟨none, [], none, none, [], false⟩

/-- `(SELECT 1 UNION ALL SELECT 2) INTERSECT SELECT 3`. -/
theorem transformSetOperationStmt_columns_intersect_union :
    ∃ query, transformSetOperationStmt literalCallees (makeParsestate .postgres) .intersect false
        (.setOp .union true (.leaf 1 noClauses) (.leaf 2 noClauses) noClauses)
        (.leaf 3 noClauses) noClauses = .ok query ∧ SetOpQueryColumns query :=
  ⟨_, rfl, transformSetOperationStmt_columns literalCallees_wellBehaved (makeParsestate .postgres)
    .intersect false (.setOp .union true (.leaf 1 noClauses) (.leaf 2 noClauses) noClauses)
    (.leaf 3 noClauses) noClauses rfl⟩

end AntdbAnalyze
