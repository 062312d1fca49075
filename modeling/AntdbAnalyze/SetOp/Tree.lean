import AntdbAnalyze.OuterJoin.FromAndWhere

/-!
# Set-operation trees (analyze.c:1461-1699, 1701-2035, 2041-2090)

`transformSetOperationStmt` analyzes a UNION/INTERSECT/EXCEPT statement. It turns the tree
of `SelectStmt`s into a tree of `SetOperationStmt` nodes whose leaves are sub-queries of
the range table, gives every operation node the type, typmod and collation of each output
column, and builds the outer query's target list from the leftmost leaf.

- `transformSetOperationTree`: the recursion over the tree. A leaf, and an operation node
  carrying ORDER BY, LIMIT, FOR UPDATE or WITH, is analyzed on its own and entered in the
  range table (`addSetOpLeaf`); any other operation node is built column by column
  (`transformSetOpNode`, `transformSetOpColumn`).
- `transformSetOperationStmt`: the outer query of the statement.
- `determineRecursiveColTypes`: the output columns of a recursive CTE, from the left input
  of its top-most operation.

The functions of other files the code calls are the fields of `SetOpCallees`. The calls
the tree makes back into itself through `parse_sub_analyze` and
`transformSetOperationStmt` are passed to the two non-recursive helpers as functions, so
that the recursion is structural and the model computes;
`transformSetOperationTree_leafClauses` and `transformSetOperationTree_withoutTopLevel`
state that the calls are the source's.
-/

namespace AntdbAnalyze

variable {σ ρ : Type}

/-! ## Raw statements -/

/-- The `IntoClause` of a SELECT INTO, with the one thing the analysis reads of it: whether
the table it creates is UNLOGGED (`rel->relpersistence == RELPERSISTENCE_UNLOGGED`). -/
structure IntoClause where
  unlogged : Bool
deriving DecidableEq, Repr

/-- The clauses of a raw `SelectStmt` that the set-operation code reads or moves, over the
type `ρ` of raw clause items. `intoClause` is `none` where the pointer is NULL;
`lockingClause` holds the strengths of its FOR UPDATE/SHARE clauses; `withClause` says
whether a WITH is attached. -/
structure SelectClauses (ρ : Type) where
  intoClause : Option IntoClause
  sortClause : List ρ
  limitOffset : Option ρ
  limitCount : Option ρ
  lockingClause : List Nat
  withClause : Bool

/-- Whether an operation node is analyzed as a leaf, as a query of its own. -/
def SelectClauses.hasLeafClauses (clauses : SelectClauses ρ) : Bool :=
  !clauses.sortClause.isEmpty || clauses.limitOffset.isSome || clauses.limitCount.isSome ||
    !clauses.lockingClause.isEmpty || clauses.withClause

/-- The clauses once `transformSetOperationStmt` has moved the top-level ones out. -/
def SelectClauses.withoutTopLevel (clauses : SelectClauses ρ) : SelectClauses ρ :=
  { clauses with sortClause := [], limitOffset := none, limitCount := none,
                 lockingClause := [], withClause := false }

/-- The clauses `transformSetOperationStmt` has moved out do not make a leaf. -/
@[simp] theorem hasLeafClauses_withoutTopLevel (clauses : SelectClauses ρ) :
    clauses.withoutTopLevel.hasLeafClauses = false :=
  rfl

/-- A raw `SelectStmt`: a leaf (`op = SETOP_NONE`: a plain SELECT or a VALUES list, whose
body is of type `σ`), or a set-operation node. -/
inductive SelectStmt (σ ρ : Type) where
  | leaf (body : σ) (clauses : SelectClauses ρ)
  | setOp (op : SetOperation) (all : Bool) (larg rarg : SelectStmt σ ρ)
      (clauses : SelectClauses ρ)

/-- The clauses of the leftmost leaf: the `while` loop down `larg`. -/
def SelectStmt.leftmostClauses : SelectStmt σ ρ → SelectClauses ρ
  | .leaf _ clauses => clauses
  | .setOp _ _ larg _ _ => larg.leftmostClauses

/-! ## What the code calls -/

/-- The functions of other files (parse_coerce.c, parse_oper.c, nodeFuncs.c,
parse_clause.c, parse_cte.c, var.c) that the set-operation code calls. -/
structure SetOpCallees (σ ρ : Type) where
  /-- `parse_sub_analyze` of a leaf: `transformSelectStmt` or `transformValuesClause` in a
  child parse state -/
  transformSelect : σ → SelectClauses ρ → Except ErrorData Query
  exprType : Expr → Oid
  exprTypmod : Expr → Int
  selectCommonType : List Expr → String → Except ErrorData Oid
  coerceToCommonType : Expr → Oid → String → Except ErrorData Expr
  /-- `select_common_collation(pstate, exprs, none_ok)` -/
  selectCommonCollation : List Expr → Bool → Except ErrorData Oid
  /-- the `sortop`, `eqop` and `hashable` of `get_sort_group_operators` -/
  getSortGroupOperators : Oid → Except ErrorData (Oid × Oid × Bool)
  containVarsOfLevel : Query → Nat → Bool
  /-- the state, the sort clause, and the target list with the entries ORDER BY adds -/
  transformSortClause : ParseState → List ρ → List TargetEntry →
    Except ErrorData (ParseState × List SortGroupClause × List TargetEntry)
  transformLimitClause : Option ρ → String → Except ErrorData (Option Expr)
  analyzeCTETargetList : CommonTableExpr → List TargetEntry → CommonTableExpr

/-! ## Errors -/

/-- A FOR UPDATE/SHARE clause on a set operation or one of its members. -/
def lockingNotAllowedError (strength : Nat) : ErrorData :=
  ⟨.featureNotSupported, lcsAsString strength ++ " is not allowed with UNION/INTERSECT/EXCEPT"⟩

/-- INTO on a member that is not the leftmost. -/
def intoNotFirstError : ErrorData :=
  ⟨.syntaxError, "INTO is only allowed on first SELECT of UNION/INTERSECT/EXCEPT"⟩

/-- INTO on the leftmost member, where the statement is not at the top. -/
def selectIntoError : ErrorData :=
  ⟨.syntaxError, "SELECT ... INTO is not allowed here"⟩

/-- A member that refers to a table of the query level it is part of. -/
def memberReferenceError : ErrorData :=
  ⟨.invalidColumnReference,
    "UNION/INTERSECT/EXCEPT member statement cannot refer to other relations of same query level"⟩

/-- Two inputs of an operation with different numbers of columns. -/
def columnCountError (context : String) : ErrorData :=
  ⟨.syntaxError, "each " ++ context ++ " query must have the same number of columns"⟩

/-- An ORDER BY of a set operation that adds an entry to the target list. -/
def setOpOrderByError : ErrorData :=
  ⟨.featureNotSupported, "invalid UNION/INTERSECT/EXCEPT ORDER BY clause"⟩

/-- `Assert(leftmostQuery != NULL)`; `leftmostSubquery_of_leftmostFound` shows it holds. -/
def leftmostQueryAssertion : ErrorData :=
  ⟨.internalError, "leftmostQuery != NULL"⟩

/-- The name of an operation in its errors and type resolution. -/
def SetOperation.context : SetOperation → String
  | .union => "UNION"
  | .intersect => "INTERSECT"
  | .except => "EXCEPT"

/-- The FOR UPDATE/SHARE check: the first clause's strength names the error. -/
def checkNoLockingClause : List Nat → Except ErrorData Unit
  | strength :: _ => .error (lockingNotAllowedError strength)
  | [] => .ok ()

/-- The checks `transformSetOperationTree` makes on every node before anything else. -/
def checkSetOpMember (clauses : SelectClauses ρ) : Except ErrorData Unit :=
  if clauses.intoClause.isSome then .error intoNotFirstError
  else checkNoLockingClause clauses.lockingClause

/-! ## The built tree -/

/-- The leftmost leaf's range-table index: the `while` loop down `larg`. -/
def SetOpNode.leftmostRTI : SetOpNode → Nat
  | .rangeTblRef rtindex _ => rtindex
  | .setOperationStmt _ _ larg _ _ _ _ _ => larg.leftmostRTI

theorem SetOpNode.leftmostRTI_pos : ∀ node : SetOpNode, 0 < node.leftmostRTI
  | .rangeTblRef _ h => h
  | .setOperationStmt _ _ larg _ _ _ _ _ => larg.leftmostRTI_pos

/-- An operation node's `colTypes`. -/
def SetOpNode.colTypes : SetOpNode → List Oid
  | .rangeTblRef _ _ => []
  | .setOperationStmt _ _ _ _ colTypes _ _ _ => colTypes

/-- An operation node's `colTypmods`. -/
def SetOpNode.colTypmods : SetOpNode → List Int
  | .rangeTblRef _ _ => []
  | .setOperationStmt _ _ _ _ _ colTypmods _ _ => colTypmods

/-- An operation node's `colCollations`. -/
def SetOpNode.colCollations : SetOpNode → List Oid
  | .rangeTblRef _ _ => []
  | .setOperationStmt _ _ _ _ _ _ colCollations _ => colCollations

/-- `rt_fetch(leftmostRTI, pstate->p_rtable)->subquery`, where `Assert` requires one. -/
def leftmostSubquery (rtable : List RangeTblEntry) (node : SetOpNode) : Except ErrorData Query :=
  match (rtFetch node.leftmostRTI rtable).bind (·.subquery) with
  | some query => .ok query
  | none => .error leftmostQueryAssertion

/-! ## Leaves -/

/-- Modelled from the spec: `addRangeTableEntryForSubquery` (parse_relation.c, not under
src/). §4.8 installs the leaf's query as a sub-query range-table entry, here aliased
`aliasname`, at the end of the range table; its columns are the query's non-junk ones. -/
def addRangeTableEntryForSubquery (pstate : ParseState) (query : Query) (aliasname : String) :
    ParseState :=
  { pstate with p_rtable := pstate.p_rtable ++
      [⟨.subquery, 0, false, some query, aliasname,
        (query.targetList.filter (!·.resjunk)).map (·.resname.getD ""), 0, .inner, []⟩] }

theorem addRangeTableEntryForSubquery_length_pos (pstate : ParseState) (query : Query)
    (aliasname : String) : 0 < (addRangeTableEntryForSubquery pstate query aliasname).p_rtable.length := by
  simp [addRangeTableEntryForSubquery]

@[simp] theorem addRangeTableEntryForSubquery_rtable (pstate : ParseState) (query : Query)
    (aliasname : String) :
    (addRangeTableEntryForSubquery pstate query aliasname).p_rtable = pstate.p_rtable ++
      [⟨.subquery, 0, false, some query, aliasname,
        (query.targetList.filter (!·.resjunk)).map (·.resname.getD ""), 0, .inner, []⟩] :=
  rfl

/-- The leaf branch of `transformSetOperationTree` once `parse_sub_analyze` has returned
the leaf's query: the check for Vars of the current level, the entry `*SELECT* n` the
returned `RangeTblRef` points at, and the non-junk entries handed up. -/
def addSetOpLeaf (callees : SetOpCallees σ ρ) (pstate : ParseState) (selectQuery : Query) :
    Except ErrorData (ParseState × SetOpNode × List TargetEntry) :=
  if !pstate.p_namespace.isEmpty && callees.containVarsOfLevel selectQuery 1 then
    .error memberReferenceError
  else
    let selectName := "*SELECT* " ++ toString (pstate.p_rtable.length + 1)
    let pstate' := addRangeTableEntryForSubquery pstate selectQuery selectName
    .ok (pstate', .rangeTblRef pstate'.p_rtable.length
        (addRangeTableEntryForSubquery_length_pos pstate selectQuery selectName),
      selectQuery.targetList.filter (!·.resjunk))

/-- Modelled from the spec: `make_parsestate` (parse_node.c, not under src/) creates an empty
parse state for one call (§3); the dialect is the caller's. -/
def makeParsestate (grammar : ParseGrammar) : ParseState :=
  ⟨[], [], [], [], [], grammar, 1, none⟩

/-- The child parse state of `parse_sub_analyze(stmt, pstate, NULL, false)`: empty, with
the grammar carried over and no parent CTE. -/
def subParseState (pstate : ParseState) : ParseState :=
  makeParsestate pstate.p_grammar

/-! ## Operation nodes -/

/-- One output column of an operation node: its type, typmod and collation, its grouping
clause (none for UNION ALL), the dummy entry handed up, and the expressions the two input
entries hold afterwards. -/
structure SetOpColumn where
  colType : Oid
  colTypmod : Int
  colCollation : Oid
  groupClause : Option SortGroupClause
  restle : TargetEntry
  lexpr : Expr
  rexpr : Expr

/-- `IsA(node, Const) || IsA(node, Param)`; the model has no `Param`. -/
def Expr.isConst : Expr → Bool
  | .const _ _ _ => true
  | _ => false

/-- The coercion of one input's column to the common type: made for a typed column and for
an UNKNOWN constant, skipped for any other UNKNOWN node. -/
def coerceSetOpColumn (callees : SetOpCallees σ ρ) (colnode : Expr) (coltype rescoltype : Oid)
    (context : String) : Except ErrorData Expr :=
  if coltype ≠ unknownOid ∨ colnode.isConst then
    callees.coerceToCommonType colnode rescoltype context
  else .ok colnode

/-- The grouping clause of a column, made for every operation but UNION ALL from the
equality and sort operators of its type. -/
def setOpGroupClause (callees : SetOpCallees σ ρ) (op : SetOperation) (all : Bool)
    (rescoltype : Oid) : Except ErrorData (Option SortGroupClause) :=
  if op ≠ .union ∨ !all then do
    let (sortop, eqop, hashable) ← callees.getSortGroupOperators rescoltype
    pure (some ⟨0, eqop, sortop, false, hashable⟩)
  else pure none

/-- The body of the `forboth` loop of `transformSetOperationTree` over the two inputs'
columns. An input entry gets the coerced expression only when its type is UNKNOWN
(`ltle->expr = lcolnode`); for any other UNKNOWN node that is the expression itself. -/
def transformSetOpColumn (callees : SetOpCallees σ ρ) (op : SetOperation) (all : Bool)
    (ltle rtle : TargetEntry) : Except ErrorData SetOpColumn := do
  let context := op.context
  let lcoltype := callees.exprType ltle.expr
  let rcoltype := callees.exprType rtle.expr
  let lcoltypmod := callees.exprTypmod ltle.expr
  let rcoltypmod := callees.exprTypmod rtle.expr
  let rescoltype ← callees.selectCommonType [ltle.expr, rtle.expr] context
  let rescoltypmod := if lcoltype = rcoltype ∧ lcoltypmod = rcoltypmod then lcoltypmod else -1
  let lcolnode ← coerceSetOpColumn callees ltle.expr lcoltype rescoltype context
  let rcolnode ← coerceSetOpColumn callees rtle.expr rcoltype rescoltype context
  let rescolcoll ← callees.selectCommonCollation [lcolnode, rcolnode] (op = .union ∧ all)
  let groupClause ← setOpGroupClause callees op all rescoltype
  return { colType := rescoltype, colTypmod := rescoltypmod, colCollation := rescolcoll,
           groupClause,
           restle := ⟨.setToDefault rescoltype rescoltypmod rescolcoll, 0, none, false⟩,
           lexpr := if lcoltype = unknownOid then lcolnode else ltle.expr,
           rexpr := if rcoltype = unknownOid then rcolnode else rtle.expr }

/-- The non-junk entries of a target list given new expressions, in order. -/
def replaceNonJunkExprs : List TargetEntry → List Expr → List TargetEntry
  | [], _ => []
  | tle :: rest, exprs =>
    if tle.resjunk then tle :: replaceNonJunkExprs rest exprs
    else match exprs with
      | expr :: exprs => { tle with expr } :: replaceNonJunkExprs rest exprs
      | [] => tle :: rest

/-- A range-table entry whose sub-query's non-junk entries get new expressions. -/
def replaceSubqueryExprs (exprs : List Expr) (rte : RangeTblEntry) : RangeTblEntry :=
  { rte with subquery := rte.subquery.map fun query =>
      { query with targetList := replaceNonJunkExprs query.targetList exprs } }

/-- The expressions stored into an input's entries. A leaf hands up its query's own entries,
so the query in the range table changes; an operation node hands up dummies. -/
def storeCoercedExprs (pstate : ParseState) (node : SetOpNode) (exprs : List Expr) :
    ParseState :=
  match node with
  | .rangeTblRef rtindex _ =>
    { pstate with p_rtable := pstate.p_rtable.modify (replaceSubqueryExprs exprs) (rtindex - 1) }
  | .setOperationStmt .. => pstate

/-- The dummy target list of `determineRecursiveColTypes`: the non-recursive term's
expressions, numbered from `nextResno`, named after the leftmost leaf's entries read from the
head of its target list. -/
def recursiveColTargetList (nextResno : Nat) : List TargetEntry → List TargetEntry →
    List TargetEntry
  | nrtle :: nrtl, lefttle :: leftTl =>
    ⟨nrtle.expr, nextResno, lefttle.resname, false⟩ ::
      recursiveColTargetList (nextResno + 1) nrtl leftTl
  | _, _ => []

/-- `determineRecursiveColTypes(pstate, larg, nrtargetlist)`: `analyzeCTETargetList` records
the CTE's output columns from the dummy target list. -/
def determineRecursiveColTypes (callees : SetOpCallees σ ρ) (pstate : ParseState)
    (cte : CommonTableExpr) (larg : SetOpNode) (nrtargetlist : List TargetEntry) :
    Except ErrorData ParseState := do
  let leftmostQuery ← leftmostSubquery pstate.p_rtable larg
  let targetList := recursiveColTargetList 1 nrtargetlist leftmostQuery.targetList
  return { pstate with p_parent_cte := some (callees.analyzeCTETargetList cte targetList) }

/-- `if (isTopLevel && pstate->p_parent_cte && pstate->p_parent_cte->cterecursive)
determineRecursiveColTypes(...)`. -/
def recursiveColTypesAtTop (callees : SetOpCallees σ ρ) (pstate : ParseState)
    (isTopLevel : Bool) (larg : SetOpNode) (ltargetlist : List TargetEntry) :
    Except ErrorData ParseState :=
  match isTopLevel, pstate.p_parent_cte with
  | true, some cte =>
    if cte.cterecursive then determineRecursiveColTypes callees pstate cte larg ltargetlist
    else .ok pstate
  | _, _ => .ok pstate

/-- The operation-node branch of `transformSetOperationTree`, given its two recursive calls:
both inputs, the column-count check, one `SetOpColumn` per pair of columns, and the
expressions stored back into leaf inputs. -/
def transformSetOpNode (callees : SetOpCallees σ ρ) (pstate : ParseState) (op : SetOperation)
    (all isTopLevel : Bool)
    (transformLarg transformRarg :
      ParseState → Except ErrorData (ParseState × SetOpNode × List TargetEntry)) :
    Except ErrorData (ParseState × SetOpNode × List TargetEntry) := do
  let (pstate, larg, ltargetlist) ← transformLarg pstate
  let pstate ← recursiveColTypesAtTop callees pstate isTopLevel larg ltargetlist
  let (pstate, rarg, rtargetlist) ← transformRarg pstate
  if ltargetlist.length ≠ rtargetlist.length then throw (columnCountError op.context)
  let columns ← (ltargetlist.zip rtargetlist).mapM fun (ltle, rtle) =>
    transformSetOpColumn callees op all ltle rtle
  let pstate := storeCoercedExprs pstate larg (columns.map (·.lexpr))
  let pstate := storeCoercedExprs pstate rarg (columns.map (·.rexpr))
  return (pstate,
    .setOperationStmt op all larg rarg (columns.map (·.colType)) (columns.map (·.colTypmod))
      (columns.map (·.colCollation)) (columns.filterMap (·.groupClause)),
    columns.map (·.restle))

/-! ## The outer query -/

/-- `makeVar(varno, varattno, vartype, vartypmod, varcollid, varlevelsup)`. -/
def makeVar (varno : Nat) (hvarno : 0 < varno) (varattno : Int) (vartype : Oid) (vartypmod : Int)
    (varcollid : Oid) (varlevelsup : Nat) : Var :=
  ⟨varno, varattno, vartype, vartypmod, varcollid, varlevelsup, hvarno⟩

/-- The `forthree` loop of `transformSetOperationStmt`: one `Var` of the leftmost leaf per
output column, typed with the root's column types, named and numbered after the leftmost
leaf's target list read from its head. The source's `Assert(!lefttle->resjunk)` is not
compiled into a production build, and is left out. -/
def setOpTargetList (varno : Nat) (hvarno : 0 < varno) (nextResno : Nat) :
    List Oid → List Int → List Oid → List TargetEntry → List TargetEntry
  | colType :: colTypes, colTypmod :: colTypmods, colCollation :: colCollations,
      lefttle :: leftTl =>
    ⟨.var (makeVar varno hvarno lefttle.resno colType colTypmod colCollation 0), nextResno,
      lefttle.resname, false⟩ ::
      setOpTargetList varno hvarno (nextResno + 1) colTypes colTypmods colCollations leftTl
  | _, _, _, _ => []

/-- The body of `transformSetOperationStmt(pstate, stmt)` for an operation node with left
input `larg` and clauses `clauses`, given its call
`transformSetOperationTree(pstate, stmt, true, NULL)` as `transformTree`. ORDER BY is
resolved against a join entry exposing the output columns, which is then truncated away;
the CTEs of WITH are left out. -/
def transformSetOperationStmtWith (callees : SetOpCallees σ ρ) (pstate : ParseState)
    (larg : SelectStmt σ ρ) (clauses : SelectClauses ρ)
    (transformTree : ParseState → Except ErrorData (ParseState × SetOpNode × List TargetEntry)) :
    Except ErrorData Query := do
  if larg.leftmostClauses.intoClause.isSome then throw selectIntoError
  checkNoLockingClause clauses.lockingClause
  let (pstate, sostmt, _) ← transformTree pstate
  let leftmostQuery ← leftmostSubquery pstate.p_rtable sostmt
  let targetList := setOpTargetList sostmt.leftmostRTI sostmt.leftmostRTI_pos
    pstate.p_next_resno sostmt.colTypes sostmt.colTypmods sostmt.colCollations
    leftmostQuery.targetList
  let pstate := { pstate with p_next_resno := pstate.p_next_resno + targetList.length }
  let svRtableLength := pstate.p_rtable.length
  let jpstate := addRangeTableEntryForJoin pstate (targetList.map (·.resname.getD "")) .inner
    (targetList.map (·.expr))
  let jpstate := { jpstate with p_namespace := [⟨jpstate.p_rtable.length, false, true, false, true⟩] }
  let (spstate, sortClause, targetList') ←
    callees.transformSortClause jpstate clauses.sortClause targetList
  let pstate := { spstate with p_namespace := pstate.p_namespace,
                               p_rtable := spstate.p_rtable.take svRtableLength }
  if targetList.length ≠ targetList'.length then throw setOpOrderByError
  let limitOffset ← callees.transformLimitClause clauses.limitOffset "OFFSET"
  let limitCount ← callees.transformLimitClause clauses.limitCount "LIMIT"
  return { makeQuery with
    commandType := .select, rtable := pstate.p_rtable,
    jointree := some (.fromExpr pstate.p_joinlist none), targetList := targetList',
    limitOffset, limitCount, setOperations := some sostmt, sortClause }

/-! ## The recursion -/

/-- `transformSetOperationTree(pstate, stmt, isTopLevel, &targetlist)`: the new node and its
output columns (a leaf's non-junk entries, or an operation node's dummies). An operation
node with leaf clauses goes through `parse_sub_analyze` to `transformSetOperationStmt`,
whose own call of this function is its operation-node branch. The source fills
`targetlist` only when the caller asks; the model always returns it. -/
def transformSetOperationTree (callees : SetOpCallees σ ρ) (pstate : ParseState) :
    SelectStmt σ ρ → Bool → Except ErrorData (ParseState × SetOpNode × List TargetEntry)
  | .leaf body clauses, _ => do
    checkSetOpMember clauses
    addSetOpLeaf callees pstate (← callees.transformSelect body clauses)
  | .setOp op all larg rarg clauses, isTopLevel => do
    checkSetOpMember clauses
    let transformNode := fun pstate isTopLevel =>
      transformSetOpNode callees pstate op all isTopLevel
        (transformSetOperationTree callees · larg false)
        (transformSetOperationTree callees · rarg false)
    if clauses.hasLeafClauses then
      let query ← transformSetOperationStmtWith callees (subParseState pstate) larg clauses
        fun pstate => do
          checkSetOpMember clauses.withoutTopLevel
          transformNode pstate true
      addSetOpLeaf callees pstate query
    else transformNode pstate isTopLevel

/-- `transformSetOperationStmt(pstate, stmt)` on the operation node `op all larg rarg`
with clauses `clauses`. -/
def transformSetOperationStmt (callees : SetOpCallees σ ρ) (pstate : ParseState)
    (op : SetOperation) (all : Bool) (larg rarg : SelectStmt σ ρ) (clauses : SelectClauses ρ) :
    Except ErrorData Query :=
  transformSetOperationStmtWith callees pstate larg clauses
    (transformSetOperationTree callees · (.setOp op all larg rarg clauses.withoutTopLevel) true)

/-- An operation node with leaf clauses is analyzed by `transformSetOperationStmt` in a
child parse state, and its query entered as a leaf. -/
theorem transformSetOperationTree_leafClauses (callees : SetOpCallees σ ρ) (pstate : ParseState)
    (op : SetOperation) (all : Bool) (larg rarg : SelectStmt σ ρ) (clauses : SelectClauses ρ)
    (isTopLevel : Bool) (hleaf : clauses.hasLeafClauses = true) :
    transformSetOperationTree callees pstate (.setOp op all larg rarg clauses) isTopLevel =
      (do checkSetOpMember clauses
          addSetOpLeaf callees pstate
            (← transformSetOperationStmt callees (subParseState pstate) op all larg rarg clauses)) := by
  simp only [transformSetOperationTree, transformSetOperationStmt, hleaf, if_true]
  rfl

/-- The call `transformSetOperationStmt` makes on its own statement, whose top-level clauses
it has moved out, takes the operation-node branch. -/
theorem transformSetOperationTree_withoutTopLevel (callees : SetOpCallees σ ρ)
    (pstate : ParseState) (op : SetOperation) (all : Bool) (larg rarg : SelectStmt σ ρ)
    (clauses : SelectClauses ρ) :
    transformSetOperationTree callees pstate (.setOp op all larg rarg clauses.withoutTopLevel) true =
      (do checkSetOpMember clauses.withoutTopLevel
          transformSetOpNode callees pstate op all true
            (transformSetOperationTree callees · larg false)
            (transformSetOperationTree callees · rarg false)) :=
  rfl

end AntdbAnalyze
