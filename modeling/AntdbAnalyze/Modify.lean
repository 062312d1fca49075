import AntdbAnalyze.Inherits
import AntdbAnalyze.Values

/-!
# Target columns of INSERT and UPDATE (analyze.c:568-1034, 2098-2252)

`transformInsertStmt` and `transformUpdateStmt` build the target list that assigns the
statement's values to columns of the target table, and record each assigned column in the target
entry's `modifiedCols`, the bitmap the executor checks column privileges against.

- `transformInsertRow`: a row held to the column list's length, and each expression prepared for
  its column.
- `transformInsertStmt`: the four sources of an INSERT (DEFAULT VALUES, one VALUES row, several,
  a SELECT; `insertExprList`), then `insertTargetList`, which gives expression `i` to column `i`.
- `transformUpdateStmt`: `prepareUpdateTargets` pairs the non-junk entries of the transformed
  target list with the SET targets, in order.

`InsertSourceRow` says, source by source, which row the INSERT's source gives after `*`
expansion and which expressions reach the target list (`insertExprList_row`).
**`modifiedCols_of_accepted`**: for an accepted INSERT whose source row has `k` expressions, the
target list holds the expressions that row gives, one for each of the first `k` columns of the
column list, `k` at most the list's length and equal to it under an explicit list, each with its
attribute number as `resno`, and `modifiedCols` holds exactly their members; for an accepted
UPDATE the non-junk entries carry the attribute numbers of the SET targets in order, and
`modifiedCols` holds exactly theirs.

Two facts about the functions the code calls are assumed: `expandRTE` gives one Var per column
of the VALUES entry (`InsertCallees.WellBehaved`), and `updateTargetListEntry` sets the entry's
`resno` to the column's attribute number (`UpdateCallees.WellBehaved`).
-/

namespace AntdbAnalyze

variable {σ ρ φ : Type}

/-! ## Column bitmaps -/

/-- `bms_add_member`: a bitmap as the list of its members. -/
def bmsAddMember (members : List Int) (x : Int) : List Int :=
  members.insert x

@[simp] theorem mem_bmsAddMember {members : List Int} {x y : Int} :
    y ∈ bmsAddMember members x ↔ y = x ∨ y ∈ members :=
  List.mem_insert_iff

/-! ## INSERT -/

/-- A column of the INSERT's column list as `checkInsertTargets` returns it: the name of its
`ResTarget` (in `icolumns`) and its attribute number (in `attrnos`). -/
structure InsertTarget where
  name : String
  attrno : Nat
deriving DecidableEq, Repr

/-- The `SelectStmt` of an INSERT: the statement `transformStmt` analyzes, its VALUES lists
(empty for a SELECT), and the clauses that make a VALUES list a general SELECT. -/
structure InsertSelectStmt (σ ρ : Type) where
  stmt : σ
  valuesLists : List (List ρ)
  clauses : SelectClauses ρ

/-- `InsertStmt`: the explicit column list and the source, `none` for DEFAULT VALUES, which the
grammar gives no column list. -/
structure InsertStmt (σ ρ : Type) where
  cols : List String
  selectStmt : Option (InsertSelectStmt σ ρ)
  cols_eq_nil : selectStmt = none → cols = []

/-- The functions of other files (parse_clause.c, parse_target.c, parse_relation.c, nodeFuncs.c,
var.c) that `transformInsertStmt` calls. -/
structure InsertCallees (σ ρ : Type) where
  /-- `setTargetTable(pstate, relation, false, false, ACL_INSERT)`: the state with the target's
  entry, and the entry's range-table index -/
  setTargetTable : ParseState → Except ErrorData (ParseState × Nat)
  /-- `checkInsertTargets(pstate, cols, &attrnos)` over the target: the listed columns, or all
  its columns when there is no list -/
  checkInsertTargets : List String → Except ErrorData (List InsertTarget)
  /-- `transformStmt(sub_pstate, selectStmt)` -/
  transformStmt : ParseState → σ → Except ErrorData Query
  transformExpressionList : List ρ → Except ErrorData (List Expr)
  /-- `transformAssignedExpr(pstate, expr, EXPR_KIND_INSERT_TARGET, name, attrno, ...)` -/
  transformAssignedExpr : Expr → String → Nat → Except ErrorData Expr
  exprType : Expr → Oid
  exprTypmod : Expr → Int
  exprCollation : Expr → Oid
  containVarsOfLevel : List (List Expr) → Nat → Bool
  /-- `addRangeTableEntryForValues(pstate, exprsLists, collations, NULL, lateral, true)` -/
  addRangeTableEntryForValues : ParseState → List (List Expr) → List Oid → Bool → ParseState
  /-- `expandRTE(rte, rtindex, 0, -1, false, NULL, &exprList)`: the Vars of the entry at
  `rtindex` -/
  expandRTE : ParseState → Nat → List Expr

/-- What the INSERT model assumes of its callees: the VALUES entry has a column per expression of
a row, and `expandRTE` gives one Var per column. -/
structure InsertCallees.WellBehaved (callees : InsertCallees σ ρ) : Prop where
  expandRTE_length : ∀ pstate exprsLists collations lateral,
    let pstate' := callees.addRangeTableEntryForValues pstate exprsLists collations lateral
    (callees.expandRTE pstate' pstate'.p_rtable.length).length = (exprsLists.headD []).length

/-- More expressions than target columns. -/
def insertMoreExpressionsError : ErrorData :=
  ⟨.syntaxError, "INSERT has more expressions than target columns"⟩

/-- Fewer expressions than the columns listed; the hint about a `ROW()` is not modelled. -/
def insertMoreTargetColumnsError : ErrorData :=
  ⟨.syntaxError, "INSERT has more target columns than expressions"⟩

/-- The SELECT of an INSERT ... SELECT analyzed to something else. -/
def insertSelectCommandError : ErrorData :=
  ⟨.internalError, "unexpected non-SELECT command in INSERT ... SELECT"⟩

/-- `transformInsertRow`: no more expressions than columns, and no fewer under an explicit
column list; expression `i` is prepared for column `i`. -/
def transformInsertRow (callees : InsertCallees σ ρ) (exprlist : List Expr)
    (stmtcols : List String) (icolumns : List InsertTarget) : Except ErrorData (List Expr) :=
  if icolumns.length < exprlist.length then .error insertMoreExpressionsError
  else if stmtcols ≠ [] ∧ exprlist.length < icolumns.length then .error insertMoreTargetColumnsError
  else (exprlist.zip icolumns).mapM fun (expr, col) =>
    callees.transformAssignedExpr expr col.name col.attrno

/-- The check that the SELECT of an INSERT ... SELECT is a plain SELECT. -/
def checkInsertSelect (selectQuery : Query) : Except ErrorData Unit :=
  if selectQuery.commandType ≠ .select ∨ selectQuery.utilityQuery.isSome then
    .error insertSelectCommandError
  else .ok ()

/-- The INSERT's expression for a non-junk entry of its SELECT: an unknown-type constant is
copied up as it is, anything else is read as a Var of the sub-query entry at `rtindex`. -/
def insertSelectExpr (callees : InsertCallees σ ρ) (rtindex : Nat) (hrtindex : 0 < rtindex)
    (tle : TargetEntry) : Expr :=
  if tle.expr.isConst && callees.exprType tle.expr == unknownOid then tle.expr
  else .var ⟨rtindex, tle.resno, callees.exprType tle.expr, callees.exprTypmod tle.expr,
    callees.exprCollation tle.expr, 0, hrtindex⟩

/-- The INSERT's expressions for the non-junk entries of its SELECT, read from the sub-query
entry `addRangeTableEntryForSubquery` adds to `pstate` (the `foreach` over
`selectQuery->targetList`). -/
def insertSelectRow (callees : InsertCallees σ ρ) (pstate : ParseState) (selectQuery : Query) :
    List Expr :=
  (selectQuery.targetList.filter (!·.resjunk)).map
    (insertSelectExpr callees (addRangeTableEntryForSubquery pstate selectQuery "*SELECT*").p_rtable.length
      (addRangeTableEntryForSubquery_length_pos pstate selectQuery "*SELECT*"))

/-- The INSERT ... SELECT branch: the SELECT is analyzed in a child state that takes over the
parked range table and namespace, entered as the sub-query `*SELECT*`, and its non-junk entries
are prepared for the target columns. On a coordinator, `has_to_save_cmd_id` is computed from the
target entry at `resultRelation`. -/
def insertFromSelect (callees : InsertCallees σ ρ) (catalog : InheritsCatalog)
    (onCoordinator : Bool) (pstate : ParseState)
    (parked : List RangeTblEntry × List ParseNamespaceItem) (resultRelation : Nat)
    (cols : List String) (select : InsertSelectStmt σ ρ) (icolumns : List InsertTarget) :
    Except ErrorData (ParseState × List Expr × Bool) := do
  let selectQuery ← callees.transformStmt
    { subParseState pstate with p_rtable := parked.1, p_namespace := parked.2 } select.stmt
  let _ ← checkInsertSelect selectQuery
  let rtable := (addRangeTableEntryForSubquery pstate selectQuery "*SELECT*").p_rtable
  let hasToSave := match rtFetch resultRelation rtable with
    | some targetRte => hasToSaveCmdId catalog onCoordinator targetRte selectQuery
    | none => false
  let exprList ← transformInsertRow callees (insertSelectRow callees pstate selectQuery) cols icolumns
  pure ({ pstate with
      p_rtable := rtable, p_joinlist := pstate.p_joinlist ++ [.rangeTblRef rtable.length] },
    exprList, hasToSave)

/-- The length check of a multi-row VALUES: the first row (`sublist_length < 0`) fixes it. -/
def insertValuesLength (sublistLength : Int) (sublist : List Expr) : Except ErrorData Int :=
  if sublistLength < 0 then .ok sublist.length
  else if sublistLength ≠ sublist.length then .error valuesLengthError
  else .ok sublistLength

/-- One row of a multi-row INSERT ... VALUES: transformed, held to the first row's length, and
prepared for the target columns (each row's collations are assigned on their own, not
modelled). -/
def transformInsertValuesRow (callees : InsertCallees σ ρ) (cols : List String)
    (icolumns : List InsertTarget) (state : Int × List (List Expr)) (raw : List ρ) :
    Except ErrorData (Int × List (List Expr)) := do
  let sublist ← callees.transformExpressionList raw
  let sublistLength ← insertValuesLength state.1 sublist
  let sublist ← transformInsertRow callees sublist cols icolumns
  pure (sublistLength, state.2 ++ [sublist])

/-- The state with the VALUES entry of a multi-row INSERT over its prepared rows: one
`InvalidOid` collation per column, and LATERAL when the rows hold Vars of the query level inside
a rule. -/
def insertValuesEntry (callees : InsertCallees σ ρ) (pstate : ParseState)
    (exprsLists : List (List Expr)) (sublistLength : Int) : ParseState :=
  let collations := List.replicate sublistLength.toNat 0
  let lateral := decide (pstate.p_rtable.length ≠ 1) && callees.containVarsOfLevel exprsLists 0
  callees.addRangeTableEntryForValues pstate exprsLists collations lateral

/-- The multi-row VALUES branch: the rows go to a VALUES entry, and the INSERT's expressions are
the entry's Vars. -/
def insertFromValuesLists (callees : InsertCallees σ ρ) (pstate : ParseState) (cols : List String)
    (valuesLists : List (List ρ)) (icolumns : List InsertTarget) :
    Except ErrorData (ParseState × List Expr × Bool) := do
  let (sublistLength, exprsLists) ←
    valuesLists.foldlM (transformInsertValuesRow callees cols icolumns) (-1, [])
  let pstate := insertValuesEntry callees pstate exprsLists sublistLength
  pure ({ pstate with p_joinlist := pstate.p_joinlist ++ [.rangeTblRef pstate.p_rtable.length] },
    callees.expandRTE pstate pstate.p_rtable.length, false)

/-- The INSERT's expression list from its source. -/
def insertExprList (callees : InsertCallees σ ρ) (catalog : InheritsCatalog) (onCoordinator : Bool)
    (pstate : ParseState) (parked : List RangeTblEntry × List ParseNamespaceItem)
    (resultRelation : Nat) (stmt : InsertStmt σ ρ) (icolumns : List InsertTarget) :
    Except ErrorData (ParseState × List Expr × Bool) :=
  match stmt.selectStmt with
  | none => .ok (pstate, [], false)
  | some select =>
    if select.valuesLists.isEmpty || select.clauses.hasLeafClauses then
      insertFromSelect callees catalog onCoordinator pstate parked resultRelation stmt.cols select
        icolumns
    else if 1 < select.valuesLists.length then
      insertFromValuesLists callees pstate stmt.cols select.valuesLists icolumns
    else do
      let exprList ← callees.transformExpressionList (select.valuesLists.headD [])
      let exprList ← transformInsertRow callees exprList stmt.cols icolumns
      pure (pstate, exprList, false)

/-- The loop building the INSERT's target list: expression `i` goes to column `i`, with the
column's attribute number as `resno`, and the column's member is added to `modifiedCols`. -/
def insertTargetList (firstLowInvalidHeapAttributeNumber : Int) :
    List Expr → List InsertTarget → List Int → List TargetEntry × List Int
  | expr :: exprList, col :: icolumns, modifiedCols =>
    let (targetList, modifiedCols) := insertTargetList firstLowInvalidHeapAttributeNumber exprList
      icolumns (bmsAddMember modifiedCols (col.attrno - firstLowInvalidHeapAttributeNumber))
    (⟨expr, col.attrno, some col.name, false⟩ :: targetList, modifiedCols)
  | _, _, modifiedCols => ([], modifiedCols)

/-- What the analysis of an INSERT yields: the query, the target entry's `modifiedCols`, and
`has_to_save_cmd_id`. -/
structure InsertAnalysis where
  query : Query
  modifiedCols : List Int
  hasToSaveCmdId : Bool

/-- `isGeneralSelect`: the source is a SELECT, or a VALUES list with clauses that make it one. -/
def InsertStmt.isGeneralSelect (stmt : InsertStmt σ ρ) : Bool :=
  stmt.selectStmt.any fun select => select.valuesLists.isEmpty || select.clauses.hasLeafClauses

/-- `transformInsertStmt`, without the WITH and RETURNING clauses. For a general SELECT the range
table and namespace are parked for the SELECT before the target is entered. -/
def transformInsertStmt (callees : InsertCallees σ ρ) (catalog : InheritsCatalog)
    (onCoordinator : Bool) (firstLowInvalidHeapAttributeNumber : Int) (pstate : ParseState)
    (stmt : InsertStmt σ ρ) : Except ErrorData InsertAnalysis := do
  let isGeneralSelect := stmt.isGeneralSelect
  let parked := if isGeneralSelect then (pstate.p_rtable, pstate.p_namespace) else ([], [])
  let (pstate, resultRelation) ← callees.setTargetTable
    (if isGeneralSelect then { pstate with p_rtable := [], p_namespace := [] } else pstate)
  let icolumns ← callees.checkInsertTargets stmt.cols
  let (pstate, exprList, hasToSave) ←
    insertExprList callees catalog onCoordinator pstate parked resultRelation stmt icolumns
  let (targetList, modifiedCols) :=
    insertTargetList firstLowInvalidHeapAttributeNumber exprList icolumns []
  pure ⟨{ makeQuery with
      commandType := .insert, targetList := targetList, rtable := pstate.p_rtable,
      jointree := some (.fromExpr pstate.p_joinlist none) },
    modifiedCols, hasToSave⟩

/-! ## UPDATE -/

/-- A `ResTarget` of the SET list: the column's name and the raw value. -/
structure ResTarget (ρ : Type) where
  name : String
  val : ρ

/-- `UpdateStmt`, without WITH and RETURNING. -/
structure UpdateStmt (ρ φ : Type) where
  targetList : List (ResTarget ρ)
  fromClause : List φ
  whereClause : Option ρ

/-- The functions of other files (parse_clause.c, parse_target.c, parse_relation.c) that
`transformUpdateStmt` calls, and the target relation's name and column count. -/
structure UpdateCallees (ρ φ : Type) where
  /-- `setTargetTable(pstate, relation, inh, true, ACL_UPDATE)` -/
  setTargetTable : ParseState → Except ErrorData (ParseState × Nat)
  transformFromClause : ParseState → List φ → Except ErrorData ParseState
  /-- `transformTargetList(pstate, targetList, EXPR_KIND_UPDATE_SOURCE)` -/
  transformTargetList : ParseState → List (ResTarget ρ) →
    Except ErrorData (ParseState × List TargetEntry)
  transformWhereClause : ParseState → Option ρ → Except ErrorData (Option Expr)
  /-- `attnameAttNum(target, name, true)`: `InvalidAttrNumber` (0) when there is no such
  column -/
  attnameAttNum : String → Int
  /-- `updateTargetListEntry(pstate, tle, name, attrno, indirection, location)` -/
  updateTargetListEntry : TargetEntry → String → Int → Except ErrorData TargetEntry
  relname : String
  relnatts : Nat

/-- What the UPDATE model assumes of its callees: `updateTargetListEntry` binds the column's
attribute number as the entry's `resno` (§4.6) and leaves it non-junk. -/
structure UpdateCallees.WellBehaved (callees : UpdateCallees ρ φ) : Prop where
  updateTargetListEntry_resno : ∀ tle name attrno tle',
    callees.updateTargetListEntry tle name attrno = .ok tle' →
      (tle'.resno : Int) = attrno ∧ tle'.resjunk = tle.resjunk

/-- A SET target that names no column of the target. -/
def updateColumnError (colname relname : String) : ErrorData :=
  ⟨.undefinedColumn, "column \"" ++ colname ++ "\" of relation \"" ++ relname ++
    "\" does not exist"⟩

/-- Non-junk entries and SET targets that do not pair up. -/
def updateTargetCountError : ErrorData :=
  ⟨.internalError, "UPDATE target count mismatch --- internal error"⟩

/-- The attribute number of a SET target, which must name a column. -/
def updateTargetAttrno (callees : UpdateCallees ρ φ) (name : String) : Except ErrorData Int :=
  if callees.attnameAttNum name = 0 then .error (updateColumnError name callees.relname)
  else .ok (callees.attnameAttNum name)

/-- The loop over the UPDATE's target list: a junk entry gets the next free `resno` and no
name; a non-junk entry is bound to the next SET target's column, whose member is added to
`modifiedCols`. Entries and targets must run out together. -/
def prepareUpdateTargets (callees : UpdateCallees ρ φ) (firstLowInvalidHeapAttributeNumber : Int)
    (nextResno : Nat) : List TargetEntry → List (ResTarget ρ) → List Int →
    Except ErrorData (List TargetEntry × List Int)
  | [], [], modifiedCols => .ok ([], modifiedCols)
  | [], _ :: _, _ => .error updateTargetCountError
  | tle :: targetList, origTargets, modifiedCols =>
    if tle.resjunk then do
      let (targetList, modifiedCols) ← prepareUpdateTargets callees
        firstLowInvalidHeapAttributeNumber (nextResno + 1) targetList origTargets modifiedCols
      pure ({ tle with resno := nextResno, resname := none } :: targetList, modifiedCols)
    else match origTargets with
      | [] => .error updateTargetCountError
      | origTarget :: origTargets => do
        let attrno ← updateTargetAttrno callees origTarget.name
        let tle ← callees.updateTargetListEntry tle origTarget.name attrno
        let (targetList, modifiedCols) ← prepareUpdateTargets callees
          firstLowInvalidHeapAttributeNumber nextResno targetList origTargets
          (bmsAddMember modifiedCols (attrno - firstLowInvalidHeapAttributeNumber))
        pure (tle :: targetList, modifiedCols)

/-- Set the lateral flags of the namespace item at `index`. -/
def setLateralFlags (pstate : ParseState) (index : Nat) (lateralOnly lateralOk : Bool) :
    ParseState :=
  { pstate with
    p_namespace := pstate.p_namespace.modify
      (fun item => { item with p_lateral_only := lateralOnly, p_lateral_ok := lateralOk }) index }

/-- What the analysis of an UPDATE yields: the query and the target entry's `modifiedCols`. -/
structure UpdateAnalysis where
  query : Query
  modifiedCols : List Int

/-- `transformUpdateStmt`, without the WITH and RETURNING clauses. The target's namespace item
is only LATERAL-visible while FROM is analyzed; junk entries are numbered past the target's
columns. -/
def transformUpdateStmt (callees : UpdateCallees ρ φ) (firstLowInvalidHeapAttributeNumber : Int)
    (pstate : ParseState) (stmt : UpdateStmt ρ φ) : Except ErrorData UpdateAnalysis := do
  let (pstate, _) ← callees.setTargetTable pstate
  let nsitem := pstate.p_namespace.length - 1
  let pstate ← callees.transformFromClause (setLateralFlags pstate nsitem true false)
    stmt.fromClause
  let pstate := setLateralFlags pstate nsitem false true
  let (pstate, targetList) ← callees.transformTargetList pstate stmt.targetList
  let qual ← callees.transformWhereClause pstate stmt.whereClause
  let nextResno :=
    if pstate.p_next_resno ≤ callees.relnatts then callees.relnatts + 1 else pstate.p_next_resno
  let (targetList, modifiedCols) ← prepareUpdateTargets callees
    firstLowInvalidHeapAttributeNumber nextResno targetList stmt.targetList []
  pure ⟨{ makeQuery with
      commandType := .update, targetList := targetList, rtable := pstate.p_rtable,
      jointree := some (.fromExpr pstate.p_joinlist qual) },
    modifiedCols⟩

/-! ## The INSERT's columns -/

/-- A row of `k` expressions fits the column list: no longer than it, and as long under an
explicit list. -/
def FitsColumns (stmtcols : List String) (icolumns : List InsertTarget) (k : Nat) : Prop :=
  k ≤ icolumns.length ∧ (stmtcols ≠ [] → k = icolumns.length)

/-- A row of a multi-row VALUES as the loop over the rows prepares it: `transformExpressionList`
expands it, `*` included, to `n` expressions, which `transformInsertRow` prepares. -/
def ValuesRowPrepared (callees : InsertCallees σ ρ) (cols : List String)
    (icolumns : List InsertTarget) (n : Nat) (raw : List ρ) (prepared : List Expr) : Prop :=
  ∃ sublist, callees.transformExpressionList raw = .ok sublist ∧ sublist.length = n ∧
    transformInsertRow callees sublist cols icolumns = .ok prepared

/-- How the source of an INSERT gives its row, in the state `pstate` the target was entered in
and with the range table and namespace `parked` for a general SELECT: `row` is the row after
`*` expansion, which `transformInsertRow` holds to the column list, and `exprs` are the
expressions the INSERT's target list receives. -/
inductive InsertSourceRow (callees : InsertCallees σ ρ) (pstate : ParseState)
    (parked : List RangeTblEntry × List ParseNamespaceItem) (cols : List String)
    (icolumns : List InsertTarget) : Option (InsertSelectStmt σ ρ) → List Expr → List Expr → Prop
  /-- DEFAULT VALUES: no row, and no expression -/
  | defaultValues : InsertSourceRow callees pstate parked cols icolumns none [] []
  /-- a general SELECT: the row reads the non-junk entries of its analysis, and is prepared -/
  | select {select : InsertSelectStmt σ ρ} {selectQuery : Query} {exprs : List Expr}
      (hgeneral : (select.valuesLists.isEmpty || select.clauses.hasLeafClauses) = true)
      (hselect : callees.transformStmt
        { subParseState pstate with p_rtable := parked.1, p_namespace := parked.2 } select.stmt =
          .ok selectQuery)
      (hprepared : transformInsertRow callees (insertSelectRow callees pstate selectQuery) cols
        icolumns = .ok exprs) :
      InsertSourceRow callees pstate parked cols icolumns (some select)
        (insertSelectRow callees pstate selectQuery) exprs
  /-- several VALUES rows: the row is the first, every row expands to as many expressions and
  is prepared, and the expressions are the Vars of the VALUES entry the prepared rows make -/
  | valuesLists {select : InsertSelectStmt σ ρ} {row : List Expr} {prepared : List (List Expr)}
      (hgeneral : (select.valuesLists.isEmpty || select.clauses.hasLeafClauses) = false)
      (hmany : 1 < select.valuesLists.length)
      (hrow : callees.transformExpressionList (select.valuesLists.headD []) = .ok row)
      (hrows : List.Forall₂ (ValuesRowPrepared callees cols icolumns row.length)
        select.valuesLists prepared) :
      InsertSourceRow callees pstate parked cols icolumns (some select) row
        (callees.expandRTE (insertValuesEntry callees pstate prepared row.length)
          (insertValuesEntry callees pstate prepared row.length).p_rtable.length)
  /-- one VALUES row: the row as `transformExpressionList` expands it, prepared -/
  | values {select : InsertSelectStmt σ ρ} {row exprs : List Expr}
      (hgeneral : (select.valuesLists.isEmpty || select.clauses.hasLeafClauses) = false)
      (hone : ¬1 < select.valuesLists.length)
      (hrow : callees.transformExpressionList (select.valuesLists.headD []) = .ok row)
      (hprepared : transformInsertRow callees row cols icolumns = .ok exprs) :
      InsertSourceRow callees pstate parked cols icolumns (some select) row exprs

section Insert

variable (callees : InsertCallees σ ρ)

/-- A row `transformInsertRow` accepts fits the column list and keeps its length. -/
theorem transformInsertRow_fits {exprlist : List Expr} {stmtcols : List String}
    {icolumns : List InsertTarget} {result : List Expr}
    (h : transformInsertRow callees exprlist stmtcols icolumns = .ok result) :
    result.length = exprlist.length ∧ FitsColumns stmtcols icolumns exprlist.length := by
  unfold transformInsertRow at h
  split at h
  · cases h
  · rename_i hmore
    split at h
    · cases h
    · rename_i hfewer
      have hle : exprlist.length ≤ icolumns.length := Nat.le_of_not_lt hmore
      refine ⟨?_, hle, fun hcols => Nat.le_antisymm hle (Nat.le_of_not_lt fun hlt => hfewer ⟨hcols, hlt⟩)⟩
      rw [← (forall₂_of_mapM_eq_ok h).length_eq, List.length_zip, Nat.min_eq_left hle]

/-- Once the first row has fixed the length `n`, a row is accepted only with `n` expressions. -/
theorem insertValuesLength_eq_ok {n : Nat} {sublist : List Expr} {len : Int}
    (h : insertValuesLength n sublist = .ok len) : len = n ∧ sublist.length = n := by
  unfold insertValuesLength at h
  split_ifs at h with hneg hne
  · omega
  · cases h
    exact ⟨rfl, by omega⟩

/-- The loop over the rows of a multi-row VALUES, once the first row has fixed the length `n`:
every further row expands to `n` expressions and is prepared, in order. -/
theorem foldlM_transformInsertValuesRow {cols : List String} {icolumns : List InsertTarget}
    {n : Nat} : ∀ {valuesLists : List (List ρ)} {rows : List (List Expr)}
      {final : Int × List (List Expr)},
    valuesLists.foldlM (transformInsertValuesRow callees cols icolumns) ((n : Int), rows) =
      .ok final →
    final.1 = n ∧ ∃ prepared, final.2 = rows ++ prepared ∧
      List.Forall₂ (ValuesRowPrepared callees cols icolumns n) valuesLists prepared
  | [], _, _, h => by
    cases h
    exact ⟨rfl, [], (List.append_nil _).symm, .nil⟩
  | _ :: _, rows, _, h => by
    rw [List.foldlM_cons] at h
    obtain ⟨_, hstep, h⟩ := except_bind_eq_ok.mp h
    obtain ⟨sublist, hsublist, hstep⟩ := except_bind_eq_ok.mp hstep
    obtain ⟨_, hlen, hstep⟩ := except_bind_eq_ok.mp hstep
    obtain ⟨prepared, hprepared, hstep⟩ := except_bind_eq_ok.mp hstep
    cases hstep
    obtain ⟨rfl, hn⟩ := insertValuesLength_eq_ok hlen
    obtain ⟨hfinal, rest, hrest, hall⟩ := foldlM_transformInsertValuesRow h
    exact ⟨hfinal, prepared :: rest, by rw [hrest, List.append_assoc, List.singleton_append],
      .cons ⟨sublist, hsublist, hn, hprepared⟩ hall⟩

/-- The loop over all the rows of a multi-row VALUES: the first row fixes the length, and every
row expands to as many expressions and is prepared, in order. -/
theorem foldlM_transformInsertValuesRow_first {cols : List String}
    {icolumns : List InsertTarget} {raw : List ρ} {valuesLists : List (List ρ)}
    {final : Int × List (List Expr)}
    (h : (raw :: valuesLists).foldlM (transformInsertValuesRow callees cols icolumns) (-1, []) =
      .ok final) :
    ∃ row, callees.transformExpressionList raw = .ok row ∧ final.1 = row.length ∧
      List.Forall₂ (ValuesRowPrepared callees cols icolumns row.length) (raw :: valuesLists)
        final.2 := by
  rw [List.foldlM_cons] at h
  obtain ⟨_, hstep, h⟩ := except_bind_eq_ok.mp h
  obtain ⟨row, hrow, hstep⟩ := except_bind_eq_ok.mp hstep
  obtain ⟨_, hlen, hstep⟩ := except_bind_eq_ok.mp hstep
  obtain ⟨prepared, hprepared, hstep⟩ := except_bind_eq_ok.mp hstep
  -- the first row fixes the length
  cases (show insertValuesLength (-1) row = .ok row.length from rfl).symm.trans hlen
  cases hstep
  obtain ⟨hfinal, rest, hrest, hall⟩ := foldlM_transformInsertValuesRow callees h
  exact ⟨row, hrow, hfinal, hrest ▸ .cons ⟨row, hrow, rfl, hprepared⟩ hall⟩

/-- **The row of each source of an INSERT**: the expressions `insertExprList` gives are those
the source's row, after `*` expansion, gives the target list, as many as the row has, and the
row fits the column list. -/
theorem insertExprList_row (hcallees : callees.WellBehaved) {catalog : InheritsCatalog}
    {onCoordinator : Bool} {pstate : ParseState}
    {parked : List RangeTblEntry × List ParseNamespaceItem} {resultRelation : Nat}
    {stmt : InsertStmt σ ρ} {icolumns : List InsertTarget}
    {result : ParseState × List Expr × Bool}
    (h : insertExprList callees catalog onCoordinator pstate parked resultRelation stmt icolumns =
      .ok result) :
    ∃ row, InsertSourceRow callees pstate parked stmt.cols icolumns stmt.selectStmt row result.2.1 ∧
      result.2.1.length = row.length ∧ FitsColumns stmt.cols icolumns row.length := by
  unfold insertExprList at h
  split at h
  · -- DEFAULT VALUES
    rename_i hnone
    cases h
    rw [hnone]
    exact ⟨[], .defaultValues, rfl, Nat.zero_le _, fun hcols => absurd (stmt.cols_eq_nil hnone) hcols⟩
  · rename_i select hsome
    rw [hsome]
    split at h
    · -- a general SELECT
      rename_i hgeneral
      unfold insertFromSelect at h
      obtain ⟨_, hselect, h⟩ := except_bind_eq_ok.mp h
      obtain ⟨_, -, h⟩ := except_bind_eq_ok.mp h
      obtain ⟨_, hprepared, h⟩ := except_bind_eq_ok.mp h
      cases h
      exact ⟨_, .select hgeneral hselect hprepared, transformInsertRow_fits callees hprepared⟩
    · rename_i hgeneral
      split at h
      · -- several VALUES rows
        rename_i hmany
        unfold insertFromValuesLists at h
        obtain ⟨⟨_, exprsLists⟩, hfold, h⟩ := except_bind_eq_ok.mp h
        cases h
        obtain ⟨raw, rest, hvalues⟩ := List.exists_cons_of_length_pos (Nat.zero_lt_of_lt hmany)
        rw [hvalues] at hfold
        obtain ⟨row, hrow, hlength, hall⟩ := foldlM_transformInsertValuesRow_first callees hfold
        cases hlength
        cases hall with
        | cons hhead hrest =>
          obtain ⟨sublist, hsublist, hn, hprepared⟩ := hhead
          obtain ⟨hlen, hfits⟩ := transformInsertRow_fits callees hprepared
          refine ⟨row, .valuesLists (Bool.eq_false_iff.mpr hgeneral) hmany (by rw [hvalues]; exact hrow)
            (by rw [hvalues]; exact .cons ⟨sublist, hsublist, hn, hprepared⟩ hrest), ?_, hn ▸ hfits⟩
          -- the VALUES entry has a column per expression of the first prepared row
          exact (hcallees.expandRTE_length _ _ _ _).trans (hlen.trans hn)
      · -- one VALUES row
        rename_i hone
        obtain ⟨row, hrow, h⟩ := except_bind_eq_ok.mp h
        obtain ⟨_, hprepared, h⟩ := except_bind_eq_ok.mp h
        cases h
        exact ⟨row, .values (Bool.eq_false_iff.mpr hgeneral) hone hrow hprepared,
          transformInsertRow_fits callees hprepared⟩

end Insert

@[simp] theorem insertTargetList_nil_left (firstLow : Int) (icolumns : List InsertTarget)
    (modifiedCols : List Int) : insertTargetList firstLow [] icolumns modifiedCols = ([], modifiedCols) :=
  rfl

@[simp] theorem insertTargetList_nil_right (firstLow : Int) (exprList : List Expr)
    (modifiedCols : List Int) : insertTargetList firstLow exprList [] modifiedCols = ([], modifiedCols) := by
  cases exprList <;> rfl

@[simp] theorem insertTargetList_cons_cons (firstLow : Int) (expr : Expr) (exprList : List Expr)
    (col : InsertTarget) (icolumns : List InsertTarget) (modifiedCols : List Int) :
    insertTargetList firstLow (expr :: exprList) (col :: icolumns) modifiedCols =
      (⟨expr, col.attrno, some col.name, false⟩ :: (insertTargetList firstLow exprList icolumns
          (bmsAddMember modifiedCols (col.attrno - firstLow))).1,
        (insertTargetList firstLow exprList icolumns
          (bmsAddMember modifiedCols (col.attrno - firstLow))).2) :=
  rfl

/-- The INSERT's target list gives expression `i` to column `i`, with its attribute number. -/
theorem insertTargetList_targets (firstLow : Int) : ∀ (exprList : List Expr)
    (icolumns : List InsertTarget) (modifiedCols : List Int),
    exprList.length ≤ icolumns.length →
    (insertTargetList firstLow exprList icolumns modifiedCols).1.map (·.expr) = exprList ∧
      (∀ tle ∈ (insertTargetList firstLow exprList icolumns modifiedCols).1, tle.resjunk = false) ∧
      (insertTargetList firstLow exprList icolumns modifiedCols).1.map (·.resno) =
        (icolumns.take exprList.length).map (·.attrno)
  | [], _, _, _ => by simp
  | _ :: exprList, [], _, hlen => absurd hlen (by simp)
  | _ :: exprList, col :: icolumns, modifiedCols, hlen => by
    obtain ⟨hexpr, hjunk, hresno⟩ := insertTargetList_targets firstLow exprList icolumns
      (bmsAddMember modifiedCols (col.attrno - firstLow)) (by simpa using hlen)
    simp only [insertTargetList_cons_cons, List.length_cons, hexpr, List.mem_cons,
      forall_eq_or_imp, List.map_cons, List.take_succ_cons, hresno, true_and, and_true]
    exact hjunk

/-- The INSERT's `modifiedCols` gains the member of each column that receives an expression. -/
theorem mem_insertTargetList_modifiedCols (firstLow : Int) (x : Int) : ∀ (exprList : List Expr)
    (icolumns : List InsertTarget) (modifiedCols : List Int),
    x ∈ (insertTargetList firstLow exprList icolumns modifiedCols).2 ↔
      x ∈ modifiedCols ∨ ∃ col ∈ icolumns.take exprList.length, x = col.attrno - firstLow
  | [], _, _ => by simp
  | _ :: _, [], _ => by simp
  | _ :: exprList, col :: icolumns, modifiedCols => by
    simp only [insertTargetList_cons_cons, mem_insertTargetList_modifiedCols firstLow x exprList
      icolumns, mem_bmsAddMember, List.length_cons, List.take_succ_cons, List.mem_cons,
      exists_eq_or_imp, or_assoc, or_left_comm]

/-- What an accepted INSERT assigns. Its source gives a row of `k` expressions after `*`
expansion, in the state the target was entered in; `k` is at most the column list's length, and
equal to it under an explicit list. The target list has the expressions the row gives, `k` of
them, one per column of the first `k`; each entry is non-junk and carries its column's
attribute number; and `modifiedCols` holds exactly those columns' members. -/
def InsertAssigns (callees : InsertCallees σ ρ) (firstLow : Int) (pstate : ParseState)
    (stmt : InsertStmt σ ρ) (analysis : InsertAnalysis) : Prop :=
  ∃ target icolumns row, callees.setTargetTable
      (if stmt.isGeneralSelect then { pstate with p_rtable := [], p_namespace := [] } else pstate) =
        .ok target ∧
    callees.checkInsertTargets stmt.cols = .ok icolumns ∧
    InsertSourceRow callees target.1
      (if stmt.isGeneralSelect then (pstate.p_rtable, pstate.p_namespace) else ([], []))
      stmt.cols icolumns stmt.selectStmt row (analysis.query.targetList.map (·.expr)) ∧
    analysis.query.targetList.length = row.length ∧ FitsColumns stmt.cols icolumns row.length ∧
    (∀ tle ∈ analysis.query.targetList, tle.resjunk = false) ∧
    analysis.query.targetList.map (·.resno) = (icolumns.take row.length).map (·.attrno) ∧
    ∀ x, x ∈ analysis.modifiedCols ↔ ∃ col ∈ icolumns.take row.length, x = col.attrno - firstLow

/-- **The columns an accepted INSERT assigns**, on each of its four sources. -/
theorem transformInsertStmt_columns {callees : InsertCallees σ ρ} (hcallees : callees.WellBehaved)
    {catalog : InheritsCatalog} {onCoordinator : Bool} {firstLow : Int} {pstate : ParseState}
    {stmt : InsertStmt σ ρ} {analysis : InsertAnalysis}
    (h : transformInsertStmt callees catalog onCoordinator firstLow pstate stmt = .ok analysis) :
    InsertAssigns callees firstLow pstate stmt analysis := by
  unfold transformInsertStmt at h
  obtain ⟨⟨ps, _⟩, htarget, h⟩ := except_bind_eq_ok.mp h
  obtain ⟨icolumns, hicolumns, h⟩ := except_bind_eq_ok.mp h
  obtain ⟨⟨_, exprList, _⟩, hexprs, h⟩ := except_bind_eq_ok.mp h
  cases h
  obtain ⟨row, hsource, hlen, hfits⟩ := insertExprList_row callees hcallees hexprs
  obtain ⟨hexpr, hjunk, hresno⟩ :=
    insertTargetList_targets firstLow exprList icolumns [] (hlen ▸ hfits.1)
  have hlength := congrArg List.length hexpr
  rw [List.length_map] at hlength
  refine ⟨_, icolumns, row, htarget, hicolumns, by rw [hexpr]; exact hsource, hlength.trans hlen,
    hfits, hjunk, hlen ▸ hresno, fun x => ?_⟩
  rw [← hlen, mem_insertTargetList_modifiedCols]
  simp

/-! ## The UPDATE's columns -/

section Update

variable (callees : UpdateCallees ρ φ)

/-- A SET target that is accepted names the column with that attribute number. -/
theorem updateTargetAttrno_eq {name : String} {attrno : Int}
    (h : updateTargetAttrno callees name = .ok attrno) : attrno = callees.attnameAttNum name := by
  unfold updateTargetAttrno at h
  split at h
  · cases h
  · cases h
    rfl

/-- **The loop over the UPDATE's target list** binds the non-junk entries, in order, to the
columns the SET targets name, and adds those columns' members to `modifiedCols`. -/
theorem prepareUpdateTargets_columns (hcallees : callees.WellBehaved) (firstLow : Int) :
    ∀ (nextResno : Nat) (targetList : List TargetEntry) (origTargets : List (ResTarget ρ))
      (modifiedCols : List Int) {targetList' : List TargetEntry} {modifiedCols' : List Int},
    prepareUpdateTargets callees firstLow nextResno targetList origTargets modifiedCols =
      .ok (targetList', modifiedCols') →
    (targetList'.filter (!·.resjunk)).map (fun tle => (tle.resno : Int)) =
        origTargets.map (callees.attnameAttNum ·.name) ∧
      ∀ x, x ∈ modifiedCols' ↔ x ∈ modifiedCols ∨
        ∃ target ∈ origTargets, x = callees.attnameAttNum target.name - firstLow
  | _, [], [], _, _, _, h => by
    cases h
    simp
  | _, [], _ :: _, _, _, _, h => by cases h
  | nextResno, tle :: targetList, origTargets, modifiedCols, _, _, h => by
    unfold prepareUpdateTargets at h
    split at h
    · -- a junk entry
      rename_i hjunk
      obtain ⟨⟨targetList'', modifiedCols''⟩, hrest, h⟩ := except_bind_eq_ok.mp h
      cases h
      obtain ⟨hresno, hmem⟩ := prepareUpdateTargets_columns hcallees firstLow _ targetList _ _ hrest
      exact ⟨by simp [hjunk, hresno], hmem⟩
    · -- a non-junk entry takes the next SET target
      rename_i hjunk
      split at h
      · cases h
      · rename_i origTarget origTargets
        obtain ⟨attrno, hattrno, h⟩ := except_bind_eq_ok.mp h
        obtain ⟨tle', htle, h⟩ := except_bind_eq_ok.mp h
        obtain ⟨⟨targetList'', modifiedCols''⟩, hrest, h⟩ := except_bind_eq_ok.mp h
        cases h
        cases updateTargetAttrno_eq callees hattrno
        obtain ⟨hbound, hjunk'⟩ := hcallees.updateTargetListEntry_resno _ _ _ _ htle
        obtain ⟨hresno, hmem⟩ := prepareUpdateTargets_columns hcallees firstLow _ targetList _ _ hrest
        refine ⟨by simp [hjunk, hjunk', hbound, hresno], fun x => ?_⟩
        simp only [hmem, mem_bmsAddMember, List.mem_cons, exists_eq_or_imp, or_assoc, or_left_comm]

end Update

/-- What an accepted UPDATE assigns: the non-junk entries carry, in order, the attribute numbers
of the columns the SET targets name, and `modifiedCols` holds exactly those columns' members. -/
def UpdateAssigns (callees : UpdateCallees ρ φ) (firstLow : Int) (stmt : UpdateStmt ρ φ)
    (analysis : UpdateAnalysis) : Prop :=
  (analysis.query.targetList.filter (!·.resjunk)).map (fun tle => (tle.resno : Int)) =
      stmt.targetList.map (callees.attnameAttNum ·.name) ∧
    ∀ x, x ∈ analysis.modifiedCols ↔
      ∃ target ∈ stmt.targetList, x = callees.attnameAttNum target.name - firstLow

/-- **The columns an accepted UPDATE assigns.** -/
theorem transformUpdateStmt_columns {callees : UpdateCallees ρ φ} (hcallees : callees.WellBehaved)
    {firstLow : Int} {pstate : ParseState} {stmt : UpdateStmt ρ φ} {analysis : UpdateAnalysis}
    (h : transformUpdateStmt callees firstLow pstate stmt = .ok analysis) :
    UpdateAssigns callees firstLow stmt analysis := by
  unfold transformUpdateStmt at h
  obtain ⟨_, -, h⟩ := except_bind_eq_ok.mp h
  obtain ⟨_, -, h⟩ := except_bind_eq_ok.mp h
  obtain ⟨_, -, h⟩ := except_bind_eq_ok.mp h
  obtain ⟨_, -, h⟩ := except_bind_eq_ok.mp h
  obtain ⟨⟨targetList, modifiedCols⟩, hloop, h⟩ := except_bind_eq_ok.mp h
  cases h
  obtain ⟨hresno, hmem⟩ := prepareUpdateTargets_columns callees hcallees firstLow _ _ _ _ hloop
  exact ⟨hresno, fun x => by simpa using hmem x⟩

/-- **`modifiedCols` of INSERT and UPDATE**: for every accepted INSERT, whatever its source, and
every accepted UPDATE, `modifiedCols` holds exactly the members of the columns that receive a
value, and each assigning entry's `resno` is its column's attribute number. The columns of an
INSERT that receive a value are the first `k` of its column list, `k` the length of its
source's row after `*` expansion, whose expressions the target list holds. -/
theorem modifiedCols_of_accepted (catalog : InheritsCatalog) (onCoordinator : Bool)
    (firstLow : Int) :
    (∀ (callees : InsertCallees σ ρ), callees.WellBehaved →
      ∀ (pstate : ParseState) (stmt : InsertStmt σ ρ) (analysis : InsertAnalysis),
      transformInsertStmt callees catalog onCoordinator firstLow pstate stmt = .ok analysis →
      InsertAssigns callees firstLow pstate stmt analysis) ∧
    (∀ (callees : UpdateCallees ρ φ), callees.WellBehaved →
      ∀ (pstate : ParseState) (stmt : UpdateStmt ρ φ) (analysis : UpdateAnalysis),
      transformUpdateStmt callees firstLow pstate stmt = .ok analysis →
      UpdateAssigns callees firstLow stmt analysis) :=
  ⟨fun _ hcallees _ _ _ h => transformInsertStmt_columns hcallees h,
   fun _ hcallees _ _ _ h => transformUpdateStmt_columns hcallees h⟩

/-- The callees of an INSERT into `t (a, b)`: rows are kept as they are, and the VALUES entry
has a column per expression of its first row. -/
def tableInsertCallees : InsertCallees Unit Expr where
  setTargetTable pstate := .ok (pstate, 1)
  checkInsertTargets _ := .ok [⟨"a", 1⟩, ⟨"b", 2⟩]
  transformStmt _ _ := .ok makeQuery
  transformExpressionList exprs := .ok exprs
  transformAssignedExpr expr _ _ := .ok expr
  exprType _ := int4Oid
  exprTypmod _ := -1
  exprCollation _ := 0
  containVarsOfLevel _ _ := false
  addRangeTableEntryForValues pstate exprsLists _ _ := { pstate with
    p_rtable := pstate.p_rtable ++
      [⟨.values, 0, false, none, "*VALUES*", (exprsLists.headD []).map fun _ => "column", 0,
        .inner, []⟩] }
  expandRTE pstate _ := ((pstate.p_rtable.getLast?.map (·.colnames)).getD []).map fun _ =>
    .const int4Oid 0 false

theorem tableInsertCallees_wellBehaved : tableInsertCallees.WellBehaved where
  expandRTE_length _ _ _ _ := by simp [tableInsertCallees]

/-- The callees of an UPDATE of `t (a, b)`: the SET values are kept as they are, and a system
column cannot be assigned. -/
def tableUpdateCallees : UpdateCallees Expr Unit where
  setTargetTable pstate := .ok (pstate, 1)
  transformFromClause pstate _ := .ok pstate
  transformTargetList pstate targets :=
    .ok (pstate, targets.map fun target => ⟨target.val, 0, some target.name, false⟩)
  transformWhereClause _ _ := .ok none
  attnameAttNum name := if name = "a" then 1 else if name = "b" then 2 else 0
  updateTargetListEntry tle _ attrno :=
    if attrno < 0 then .error ⟨.featureNotSupported, "cannot assign to system column"⟩
    else .ok { tle with resno := attrno.toNat }
  relname := "t"
  relnatts := 2

theorem tableUpdateCallees_wellBehaved : tableUpdateCallees.WellBehaved where
  updateTargetListEntry_resno _ _ attrno _ h := by
    simp only [tableUpdateCallees] at h
    split at h
    · cases h
    · cases h
      exact ⟨Int.toNat_of_nonneg (by omega), rfl⟩

/-- `INSERT INTO t (a, b) VALUES (1, 2), (3, 4)`. -/
def insertTwoRows : InsertStmt Unit Expr where
  cols := ["a", "b"]
  selectStmt := some ⟨(), [[.const int4Oid 1 false, .const int4Oid 2 false],
    [.const int4Oid 3 false, .const int4Oid 4 false]], ⟨none, [], none, none, [], false⟩⟩
  cols_eq_nil := by simp

/-- `UPDATE t SET b = 5`. -/
def updateSetB : UpdateStmt Expr Unit :=
  ⟨[⟨"b", .const int4Oid 5 false⟩], [], none⟩

/-- Both statements are accepted, and assign as stated, for a
`FirstLowInvalidHeapAttributeNumber` of -8. -/
theorem modifiedCols_insert_values_update_set :
    (∃ analysis, transformInsertStmt tableInsertCallees childOfParentCatalog false (-8)
        (makeParsestate .postgres) insertTwoRows = .ok analysis ∧
      InsertAssigns tableInsertCallees (-8) (makeParsestate .postgres) insertTwoRows analysis) ∧
    (∃ analysis, transformUpdateStmt tableUpdateCallees (-8) (makeParsestate .postgres) updateSetB =
        .ok analysis ∧ UpdateAssigns tableUpdateCallees (-8) updateSetB analysis) :=
  ⟨⟨_, rfl, (modifiedCols_of_accepted (φ := Unit) childOfParentCatalog false (-8)).1
      tableInsertCallees tableInsertCallees_wellBehaved _ _ _ rfl⟩,
    ⟨_, rfl, (modifiedCols_of_accepted (σ := Unit) childOfParentCatalog false (-8)).2
      tableUpdateCallees tableUpdateCallees_wellBehaved _ _ _ rfl⟩⟩

end AntdbAnalyze
