import AntdbAnalyze.SetOp.Recursion
import AntdbAnalyze.Select

/-!
# The statement dispatch (analyze.c:264-455, 2296-2686)

`transformStmt` routes a parse tree by its kind: INSERT, DELETE, UPDATE and SELECT are
analyzed into a query; DECLARE CURSOR, EXPLAIN and CREATE TABLE AS analyze the statement
they hold and wrap it; EXECUTE DIRECT re-parses and re-analyzes its text for one node of the
cluster; every other statement is returned as it is, under a `CMD_UTILITY` query.
`transformTopLevelStmt` runs it on the whole tree, after lifting a `SELECT ... INTO` to a
CREATE TABLE AS.

- `RawStmt`: the parse trees the dispatch tells apart; `Analyzed`: the query it returns,
  told apart by what its `utilityStmt` points to;
- `RawStmt.transformStmt`, `transformTopLevelStmt`, `transformDeclareCursorStmt`,
  `transformExplainStmt`, `transformCreateTableAsStmtWith`, `transformExecDirectStmt`,
  `analyzeRequiresSnapshot`: the functions of the source;
- **`transformTopLevelStmt_into`**: INTO is accepted only on the leftmost member of a
  top-level SELECT, which then becomes a CREATE TABLE AS of the SELECT without it, UNLOGGED
  when the INTO is;
  **`transformTopLevelStmt_setOp_locking`**: FOR UPDATE/SHARE is accepted on no node of a
  set operation; both by one induction over the tree (`transformSetOperationTree_anyClauses`);
- `analyzeRequiresSnapshot_eq_false_iff`: `analyze_requires_snapshot` is false exactly for
  the statements `transformStmt` does not analyze;
- `Analyzed.WellFormed`: every cursor and every materialized view of an analyzed statement
  passed its checks; **`transformTopLevelStmt_wellFormed`**: so does every accepted statement;
- **`transformExecDirectStmt_authorized`**: outside maintenance mode, EXECUTE DIRECT runs a
  data-modifying statement only on the node itself, and a utility statement only on another
  node and only when it is CREATE or DROP TABLESPACE; `transformExecDirectStmt_local`: on the
  node itself every other statement is accepted, INSERT, UPDATE and DELETE included.

INSERT, DELETE and UPDATE (`Modify`, `Delete`), the members of a SELECT (`Select`,
`Values`) and the clause transforms of other files are parameters here. `parse_analyze`,
which EXECUTE DIRECT calls on the tree its text parses to, is a parameter too: it re-enters
this analysis on a tree that is no part of the statement.
-/

namespace AntdbAnalyze

variable {σ ρ δ υ : Type}

/-! ## Parse trees and analyzed statements -/

/-- The `CURSOR_OPT_*` bits of `DeclareCursorStmt.options` that `transformDeclareCursorStmt`
tests, one flag each. -/
structure CursorOptions where
  scroll : Bool
  noScroll : Bool
  insensitive : Bool
  hold : Bool
deriving DecidableEq, Repr

/-- `ObjectType`, as `CreateTableAsStmt.relkind` holds it. -/
inductive ObjectType where
  | table
  | matview
deriving DecidableEq, Repr

/-- The parse trees `transformStmt` tells apart, over the SELECT trees of `SetOp.Tree`, a type
`δ` of INSERT, DELETE and UPDATE statements and a type `υ` of the other utility statements.
The grammar gives DECLARE CURSOR a SELECT, and EXECUTE DIRECT one node name or more
(`nodename :: otherNodes`) and the text of its statement. `unlogged` is
`into->rel->relpersistence == RELPERSISTENCE_UNLOGGED`. -/
inductive RawStmt (σ ρ δ υ : Type) where
  | insertStmt (stmt : δ)
  | deleteStmt (stmt : δ)
  | updateStmt (stmt : δ)
  | selectStmt (stmt : SelectStmt σ ρ)
  | declareCursorStmt (portalname : String) (options : CursorOptions) (query : SelectStmt σ ρ)
  | explainStmt (query : RawStmt σ ρ δ υ)
  | execDirectStmt (nodename : String) (otherNodes : List String) (query : String)
  | createTableAsStmt (query : RawStmt σ ρ δ υ) (relkind : ObjectType) (unlogged isSelectInto : Bool)
  | utility (stmt : υ)

/-- `PGXC_NODE_COORDINATOR`, and every other node type, which the code does not tell apart. -/
inductive PgxcNodeType where
  | coordinator
  | datanode
deriving DecidableEq, Repr

/-- `RemoteQueryExecType`, as EXECUTE DIRECT sets it. -/
inductive RemoteQueryExecType where
  | execOnCoords
  | execOnDatanodes
deriving DecidableEq, Repr

/-- `ExecDirectType`. -/
inductive ExecDirectType where
  | execDirectNone
  | execDirectLocal
  | execDirectLocalUtility
  | execDirectUtility
  | execDirectSelect
  | execDirectInsert
  | execDirectUpdate
  | execDirectDelete
deriving DecidableEq, Repr

/-- The `RemoteQuery` step of an EXECUTE DIRECT, with the fields set from the statement; the
constant ones (`read_only`, `combine_type`, `force_autocommit`, `base_tlist`, `cursor`) are
left out. -/
structure RemoteQuery where
  sqlStatement : String
  execType : RemoteQueryExecType
  execDirectType : ExecDirectType
  nodeList : List Int
deriving DecidableEq, Repr

/-- The `Query` `transformStmt` returns, told apart by what its `utilityStmt` points to. -/
inductive Analyzed (υ : Type) where
  /-- an analyzed INSERT, DELETE, UPDATE or SELECT; `utilityStmt` is NULL -/
  | query (query : Query)
  /-- the query of a DECLARE CURSOR's SELECT, its `utilityStmt` the `DeclareCursorStmt` -/
  | declareCursor (query : Query) (portalname : String) (options : CursorOptions)
  /-- `CMD_UTILITY` over an `ExplainStmt` that holds the analyzed statement -/
  | explain (query : Analyzed υ)
  /-- `CMD_UTILITY` over a `CreateTableAsStmt` that holds the analyzed query -/
  | createTableAs (query : Analyzed υ) (relkind : ObjectType) (unlogged isSelectInto : Bool)
  /-- `CMD_UTILITY` over any other statement, not analyzed -/
  | utility (stmt : υ)
  /-- an EXECUTE DIRECT: the analyzed statement with `sql_statement` and `is_local` set, and,
  when not local, the step as its `utilityStmt` -/
  | execDirect (result : Analyzed υ) (sqlStatement : String) (isLocal : Bool) (step : RemoteQuery)
  /-- an EXECUTE DIRECT whose text holds no statement: the blank `makeNode(Query)`, so set -/
  | execDirectBlank (sqlStatement : String) (isLocal : Bool) (step : RemoteQuery)

/-- The command type of the query; `none` is `CMD_UNKNOWN`, the blank query's. -/
def Analyzed.commandType : Analyzed υ → Option CmdType
  | .query q | .declareCursor q _ _ => some q.commandType
  | .explain _ | .createTableAs _ _ _ _ | .utility _ => some .utility
  | .execDirect result _ _ _ => result.commandType
  | .execDirectBlank .. => none

/-! ## What the code calls -/

/-- The functions of other files the dispatch calls, and the cluster EXECUTE DIRECT runs in. -/
structure StmtCallees (σ ρ δ υ : Type) where
  /-- the SELECT analysis of `SetOp.Tree`, with `transformSelectStmt` and
  `transformValuesClause` for its members -/
  setOp : SetOpCallees σ ρ
  transformInsertStmt : ParseState → δ → Except ErrorData Query
  transformDeleteStmt : ParseState → δ → Except ErrorData Query
  transformUpdateStmt : ParseState → δ → Except ErrorData Query
  /-- `query->hasModifyingCTE`, which the modelled `Query` does not carry -/
  hasModifyingCTE : Analyzed υ → Bool
  isQueryUsingTempRelation : Analyzed υ → Bool
  queryContainsExternParams : Analyzed υ → Bool
  /-- whether a utility statement is a `CreateTableSpaceStmt` or a `DropTableSpaceStmt` -/
  isTableSpaceStmt : υ → Bool
  /-- `IS_PGXC_DATANODE` -/
  isPgxcDatanode : Bool
  xcMaintenanceMode : Bool
  /-- `PGXCNodeId`, the 1-based index of this coordinator -/
  pgxcNodeId : Int
  getPgxcNodeoid : String → Oid
  getPgxcNodetype : Oid → PgxcNodeType
  pgxcNodeGetNodeId : Oid → PgxcNodeType → Int
  pgParseQuery : String → Except ErrorData (List (RawStmt σ ρ δ υ))
  /-- `parse_analyze(parsetree, query, NULL, 0)`: `transformTopLevelStmt` in a fresh parse
  state, on a tree the text parses to -/
  parseAnalyze : RawStmt σ ρ δ υ → String → Except ErrorData (Analyzed υ)

/-! ## Errors -/

/-- Both SCROLL and NO SCROLL. -/
def cursorScrollError : ErrorData :=
  ⟨.invalidCursorDefinition, "cannot specify both SCROLL and NO SCROLL"⟩

/-- The `elog` of a cursor whose query is not a plain SELECT. -/
def cursorNonSelectError : ErrorData :=
  ⟨.internalError, "unexpected non-SELECT command in DECLARE CURSOR"⟩

/-- A data-modifying WITH in a cursor. -/
def cursorModifyingCTEError : ErrorData :=
  ⟨.featureNotSupported, "DECLARE CURSOR must not contain data-modifying statements in WITH"⟩

/-- A cursor of kind `kind` over a query with row marks; `strength` is the first mark's. -/
def cursorLockingError (kind : String) (strength : Nat) : ErrorData :=
  ⟨.featureNotSupported, "DECLARE " ++ kind ++ " ... " ++ lcsAsString strength ++ " is not supported"⟩

/-- A materialized view with a data-modifying WITH. -/
def matviewModifyingCTEError : ErrorData :=
  ⟨.featureNotSupported, "materialized views must not use data-modifying statements in WITH"⟩

/-- A materialized view over a temporary table or view. -/
def matviewTempError : ErrorData :=
  ⟨.featureNotSupported, "materialized views must not use temporary tables or views"⟩

/-- A materialized view with bound parameters. -/
def matviewParamsError : ErrorData :=
  ⟨.featureNotSupported, "materialized views may not be defined using bound parameters"⟩

/-- An UNLOGGED materialized view. -/
def matviewUnloggedError : ErrorData :=
  ⟨.featureNotSupported, "materialized views cannot be UNLOGGED"⟩

/-- EXECUTE DIRECT on a data node. -/
def execDirectDatanodeError : ErrorData :=
  ⟨.featureNotSupported, "EXECUTE DIRECT cannot be executed on a Datanode"⟩

/-- EXECUTE DIRECT on more than one node. -/
def execDirectNodesError : ErrorData :=
  ⟨.featureNotSupported, "Support for EXECUTE DIRECT on multiple nodes is not available yet"⟩

/-- A node name the catalog does not know. -/
def pgxcNodeUndefinedError (nodename : String) : ErrorData :=
  ⟨.undefinedObject, "PGXC Node " ++ nodename ++ ": object not defined"⟩

/-- A text of more than one statement. -/
def execDirectQueriesError : ErrorData :=
  ⟨.featureNotSupported, "EXECUTE DIRECT cannot execute multiple queries"⟩

/-- INSERT, UPDATE or DELETE on another node. -/
def execDirectDMLError : ErrorData :=
  ⟨.featureNotSupported, "EXECUTE DIRECT cannot execute DML queries"⟩

/-- A utility statement on another node that is not CREATE or DROP TABLESPACE. -/
def execDirectUtilityError : ErrorData :=
  ⟨.featureNotSupported, "EXECUTE DIRECT cannot execute this utility query"⟩

/-- A utility statement on the node itself. -/
def execDirectLocalUtilityError : ErrorData :=
  ⟨.featureNotSupported, "EXECUTE DIRECT cannot execute locally this utility query"⟩

/-! ## DECLARE CURSOR -/

/-- One of the three READ ONLY checks: a cursor of kind `kind` with its option set has no row
marks; the error names the first mark's strength. -/
def checkCursorReadOnly (kind : String) (option : Bool) : List RowMarkClause → Except ErrorData Unit
  | rc :: _ => if option then .error (cursorLockingError kind rc.strength) else .ok ()
  | [] => .ok ()

/-- A READ ONLY check that passed. -/
theorem checkCursorReadOnly_eq_ok {kind : String} {option : Bool} {rowMarks : List RowMarkClause}
    (h : checkCursorReadOnly kind option rowMarks = .ok ()) (hoption : option = true) :
    rowMarks = [] := by
  cases rowMarks with
  | nil => rfl
  | cons rc _ => simp [checkCursorReadOnly, hoption] at h

/-- `transformDeclareCursorStmt(pstate, stmt)`. -/
def transformDeclareCursorStmt (callees : StmtCallees σ ρ δ υ) (pstate : ParseState)
    (portalname : String) (options : CursorOptions) (query : SelectStmt σ ρ) :
    Except ErrorData (Analyzed υ) := do
  if options.scroll && options.noScroll then throw cursorScrollError
  let result ← transformStmt callees.setOp pstate query
  if result.commandType ≠ .select ∨ result.utilityQuery.isSome then throw cursorNonSelectError
  if callees.hasModifyingCTE (.query result) then throw cursorModifyingCTEError
  checkCursorReadOnly "CURSOR WITH HOLD" options.hold result.rowMarks
  checkCursorReadOnly "SCROLL CURSOR" options.scroll result.rowMarks
  checkCursorReadOnly "INSENSITIVE CURSOR" options.insensitive result.rowMarks
  return .declareCursor result portalname options

/-- What the checks of DECLARE CURSOR leave of its SELECT's query `query`. -/
structure CursorChecked (callees : StmtCallees σ ρ δ υ) (options : CursorOptions) (query : Query) :
    Prop where
  scroll_or_noScroll : options.scroll = false ∨ options.noScroll = false
  select : query.commandType = .select ∧ query.utilityQuery = none
  noModifyingCTE : callees.hasModifyingCTE (.query query) = false
  readOnly : options.hold = true ∨ options.scroll = true ∨ options.insensitive = true →
    query.rowMarks = []

/-- An accepted DECLARE CURSOR is its SELECT's query, which passed every check. -/
theorem transformDeclareCursorStmt_eq_ok {callees : StmtCallees σ ρ δ υ} {pstate : ParseState}
    {portalname : String} {options : CursorOptions} {query : SelectStmt σ ρ} {a : Analyzed υ}
    (h : transformDeclareCursorStmt callees pstate portalname options query = .ok a) :
    ∃ result, transformStmt callees.setOp pstate query = .ok result ∧
      CursorChecked callees options result ∧ a = .declareCursor result portalname options := by
  unfold transformDeclareCursorStmt at h
  obtain ⟨hscroll, h⟩ := jp_ite_throw_eq_ok h
  obtain ⟨result, hresult, h⟩ := except_bind_eq_ok.mp h
  obtain ⟨hselect, h⟩ := jp_ite_throw_eq_ok h
  obtain ⟨hcte, h⟩ := jp_ite_throw_eq_ok h
  obtain ⟨⟨⟩, hhold, h⟩ := except_bind_eq_ok.mp h
  obtain ⟨⟨⟩, hscr, h⟩ := except_bind_eq_ok.mp h
  obtain ⟨⟨⟩, hins, h⟩ := except_bind_eq_ok.mp h
  cases h
  obtain ⟨hcmd, hutility⟩ := not_or.mp hselect
  refine ⟨result, hresult, ⟨?_, ⟨not_not.mp hcmd, Option.not_isSome_iff_eq_none.mp hutility⟩,
    Bool.eq_false_iff.mpr hcte, ?_⟩, rfl⟩
  · revert hscroll
    cases options.scroll <;> cases options.noScroll <;> decide
  · rintro (h | h | h)
    exacts [checkCursorReadOnly_eq_ok hhold h, checkCursorReadOnly_eq_ok hscr h,
      checkCursorReadOnly_eq_ok hins h]

/-! ## CREATE TABLE AS -/

/-- The checks of a CREATE MATERIALIZED VIEW on its query, in the order of the source. -/
def checkMatviewQuery (callees : StmtCallees σ ρ δ υ) (query : Analyzed υ) (unlogged : Bool) :
    Except ErrorData Unit :=
  if callees.hasModifyingCTE query then .error matviewModifyingCTEError
  else if callees.isQueryUsingTempRelation query then .error matviewTempError
  else if callees.queryContainsExternParams query then .error matviewParamsError
  else if unlogged then .error matviewUnloggedError
  else .ok ()

/-- `transformCreateTableAsStmt(pstate, stmt)` once `transformStmt(pstate, stmt->query)` has
given `query`: the checks of a materialized view, then the utility query. Stashing the query
in the `IntoClause` for the view's rule is left out. -/
def transformCreateTableAsStmtWith (callees : StmtCallees σ ρ δ υ) (query : Analyzed υ)
    (relkind : ObjectType) (unlogged isSelectInto : Bool) : Except ErrorData (Analyzed υ) := do
  if relkind = .matview then checkMatviewQuery callees query unlogged
  return .createTableAs query relkind unlogged isSelectInto

/-- What the checks of a materialized view leave of its query. -/
structure MatviewChecked (callees : StmtCallees σ ρ δ υ) (query : Analyzed υ) (unlogged : Bool) :
    Prop where
  noModifyingCTE : callees.hasModifyingCTE query = false
  noTempRelation : callees.isQueryUsingTempRelation query = false
  noExternParams : callees.queryContainsExternParams query = false
  logged : unlogged = false

theorem checkMatviewQuery_eq_ok {callees : StmtCallees σ ρ δ υ} {query : Analyzed υ}
    {unlogged : Bool} (h : checkMatviewQuery callees query unlogged = .ok ()) :
    MatviewChecked callees query unlogged := by
  unfold checkMatviewQuery at h
  split_ifs at h with h₁ h₂ h₃ h₄
  exact ⟨by simpa using h₁, by simpa using h₂, by simpa using h₃, by simpa using h₄⟩

/-- An accepted CREATE TABLE AS wraps its query, which passed the checks of a materialized
view if it defines one. -/
theorem transformCreateTableAsStmtWith_eq_ok {callees : StmtCallees σ ρ δ υ} {query : Analyzed υ}
    {relkind : ObjectType} {unlogged isSelectInto : Bool} {a : Analyzed υ}
    (h : transformCreateTableAsStmtWith callees query relkind unlogged isSelectInto = .ok a) :
    a = .createTableAs query relkind unlogged isSelectInto ∧
      (relkind = .matview → MatviewChecked callees query unlogged) := by
  unfold transformCreateTableAsStmtWith at h
  split at h
  · obtain ⟨⟨⟩, hcheck, h⟩ := except_bind_eq_ok.mp h
    exact ⟨(Except.ok.inj h).symm, fun _ => checkMatviewQuery_eq_ok hcheck⟩
  · rename_i hmat
    exact ⟨(Except.ok.inj h).symm, (absurd · hmat)⟩

/-! ## EXECUTE DIRECT -/

/-- The `exec_direct_type` of the step: `EXEC_DIRECT_LOCAL` or `EXEC_DIRECT_LOCAL_UTILITY` on
the node itself, else the switch on the command type, where the blank query's
`CMD_UNKNOWN` keeps `EXEC_DIRECT_NONE`. -/
def execDirectTypeOf (isLocal : Bool) (commandType : Option CmdType) : ExecDirectType :=
  if isLocal then
    if commandType = some .utility then .execDirectLocalUtility else .execDirectLocal
  else
    match commandType with
    | some .utility => .execDirectUtility
    | some .select => .execDirectSelect
    | some .insert => .execDirectInsert
    | some .update => .execDirectUpdate
    | some .delete => .execDirectDelete
    | none => .execDirectNone

/-- `IsExecDirectUtilityStmt(result->utilityStmt)`: true when there is no node, and for CREATE
and DROP TABLESPACE. -/
def isExecDirectUtilityStmt (isTableSpaceStmt : υ → Bool) : Analyzed υ → Bool
  | .query _ => true
  | .utility stmt => isTableSpaceStmt stmt
  | .execDirect result _ true _ => isExecDirectUtilityStmt isTableSpaceStmt result
  | .execDirectBlank _ true _ => true
  | _ => false

/-- The checks on the step's `exec_direct_type` (analyze.c:2622-2638). -/
def checkExecDirectType (xcMaintenanceMode : Bool) (isTableSpaceStmt : υ → Bool)
    (execDirectType : ExecDirectType) (result : Option (Analyzed υ)) : Except ErrorData Unit :=
  if !xcMaintenanceMode && (execDirectType = .execDirectDelete ||
      execDirectType = .execDirectUpdate || execDirectType = .execDirectInsert) then
    .error execDirectDMLError
  else if execDirectType = .execDirectUtility &&
      !result.all (isExecDirectUtilityStmt isTableSpaceStmt) && !xcMaintenanceMode then
    .error execDirectUtilityError
  else if execDirectType = .execDirectLocalUtility && !xcMaintenanceMode then
    .error execDirectLocalUtilityError
  else .ok ()

/-- The result of an EXECUTE DIRECT over the analysis of its text, if there was a statement. -/
def execDirectResult (result : Option (Analyzed υ)) (sqlStatement : String) (isLocal : Bool)
    (step : RemoteQuery) : Analyzed υ :=
  match result with
  | some result => .execDirect result sqlStatement isLocal step
  | none => .execDirectBlank sqlStatement isLocal step

/-- `transformExecDirectStmt(pstate, stmt)`. The `foreach` over the parse trees runs at most
once, and keeps the last analysis. -/
def transformExecDirectStmt (callees : StmtCallees σ ρ δ υ) (nodename : String)
    (otherNodes : List String) (query : String) : Except ErrorData (Analyzed υ) := do
  if callees.isPgxcDatanode then throw execDirectDatanodeError
  if otherNodes ≠ [] then throw execDirectNodesError
  let nodeoid := callees.getPgxcNodeoid nodename
  if nodeoid = 0 then throw (pgxcNodeUndefinedError nodename)
  let nodetype := callees.getPgxcNodetype nodeoid
  let nodeIndex := callees.pgxcNodeGetNodeId nodeoid nodetype
  let isLocal := nodetype = .coordinator && nodeIndex = callees.pgxcNodeId - 1
  let rawParsetreeList ← callees.pgParseQuery query
  if rawParsetreeList.length > 1 then throw execDirectQueriesError
  let results ← rawParsetreeList.mapM (callees.parseAnalyze · query)
  let result := results.getLast?
  let execDirectType := execDirectTypeOf isLocal (result.bind Analyzed.commandType)
  checkExecDirectType callees.xcMaintenanceMode callees.isTableSpaceStmt execDirectType result
  let step : RemoteQuery := ⟨query,
    if nodetype = .coordinator then .execOnCoords else .execOnDatanodes, execDirectType, [nodeIndex]⟩
  return execDirectResult result query isLocal step

/-! ## The dispatch -/

/-- `transformExplainStmt(pstate, stmt)`, given `transformTopLevelStmt(pstate, stmt->query)`. -/
def transformExplainStmt (query : Except ErrorData (Analyzed υ)) : Except ErrorData (Analyzed υ) :=
  .explain <$> query

/-- The statement with `intoClause` cleared on its leftmost member. -/
def SelectStmt.withoutLeftmostInto : SelectStmt σ ρ → SelectStmt σ ρ
  | .leaf body clauses => .leaf body { clauses with intoClause := none }
  | .setOp op all larg rarg clauses => .setOp op all larg.withoutLeftmostInto rarg clauses

/-- `transformTopLevelStmt(pstate, parseTree)`, given `transformed`, what `transformStmt` makes
of `parseTree`: a SELECT whose leftmost member has INTO becomes a CREATE TABLE AS of the SELECT
without it, into the table the INTO names, analyzed as `transformStmt` analyzes that statement
(`transformTopLevelStmtWith_into`). -/
def transformTopLevelStmtWith (callees : StmtCallees σ ρ δ υ) (pstate : ParseState) :
    RawStmt σ ρ δ υ → Except ErrorData (Analyzed υ) → Except ErrorData (Analyzed υ)
  | .selectStmt stmt, transformed =>
    match stmt.leftmostClauses.intoClause with
    | some into => do
      let query ← AntdbAnalyze.transformStmt callees.setOp pstate stmt.withoutLeftmostInto
      transformCreateTableAsStmtWith callees (.query query) .table into.unlogged true
    | none => transformed
  | _, transformed => transformed

/-- `transformStmt(pstate, parseTree)`. -/
def RawStmt.transformStmt (callees : StmtCallees σ ρ δ υ) (pstate : ParseState) :
    RawStmt σ ρ δ υ → Except ErrorData (Analyzed υ)
  | .insertStmt stmt => .query <$> callees.transformInsertStmt pstate stmt
  | .deleteStmt stmt => .query <$> callees.transformDeleteStmt pstate stmt
  | .updateStmt stmt => .query <$> callees.transformUpdateStmt pstate stmt
  | .selectStmt stmt => .query <$> AntdbAnalyze.transformStmt callees.setOp pstate stmt
  | .declareCursorStmt portalname options query =>
    transformDeclareCursorStmt callees pstate portalname options query
  | .explainStmt query =>
    transformExplainStmt
      (transformTopLevelStmtWith callees pstate query (query.transformStmt callees pstate))
  | .execDirectStmt nodename otherNodes query =>
    transformExecDirectStmt callees nodename otherNodes query
  | .createTableAsStmt query relkind unlogged isSelectInto => do
    transformCreateTableAsStmtWith callees (← query.transformStmt callees pstate) relkind unlogged
      isSelectInto
  | .utility stmt => .ok (.utility stmt)

/-- `transformTopLevelStmt(pstate, parseTree)`. -/
def transformTopLevelStmt (callees : StmtCallees σ ρ δ υ) (pstate : ParseState)
    (parseTree : RawStmt σ ρ δ υ) : Except ErrorData (Analyzed υ) :=
  transformTopLevelStmtWith callees pstate parseTree (parseTree.transformStmt callees pstate)

/-- The lift of SELECT INTO is `transformStmt` of the CREATE TABLE AS the source builds. -/
theorem transformTopLevelStmtWith_into (callees : StmtCallees σ ρ δ υ) (pstate : ParseState)
    {stmt : SelectStmt σ ρ} {into : IntoClause} (hinto : stmt.leftmostClauses.intoClause = some into) :
    transformTopLevelStmt callees pstate (.selectStmt stmt) =
      (RawStmt.createTableAsStmt (.selectStmt stmt.withoutLeftmostInto) .table into.unlogged
        true).transformStmt callees pstate := by
  simp only [transformTopLevelStmt, transformTopLevelStmtWith, hinto, RawStmt.transformStmt]
  cases AntdbAnalyze.transformStmt callees.setOp pstate stmt.withoutLeftmostInto <;> rfl

/-- `analyze_requires_snapshot(parseTree)`. -/
def analyzeRequiresSnapshot : RawStmt σ ρ δ υ → Bool
  | .insertStmt _ | .deleteStmt _ | .updateStmt _ | .selectStmt _ => true
  | .declareCursorStmt .. => true
  | .explainStmt _ | .createTableAsStmt .. => true
  | .execDirectStmt .. => true
  | .utility _ => false

/-! ## INTO only at the top -/

/-- Whether any member or operation node of the tree has INTO. -/
def SelectStmt.hasInto : SelectStmt σ ρ → Bool
  | .leaf _ clauses => clauses.intoClause.isSome
  | .setOp _ _ larg rarg clauses => clauses.intoClause.isSome || larg.hasInto || rarg.hasInto

/-- The member analysis refuses INTO, as `transformSelectStmt` does
(`transformSelectStmt_intoClause`); the grammar gives a VALUES list none. -/
def IntoRejected (callees : SetOpCallees σ ρ) : Prop :=
  ∀ body clauses, clauses.intoClause.isSome = true → ∀ query,
    callees.transformSelect body clauses ≠ .ok query

theorem checkSetOpMember_intoClause {clauses : SelectClauses ρ} (h : clauses.intoClause.isSome = true) :
    checkSetOpMember clauses = .error intoNotFirstError := by
  simp [checkSetOpMember, h]

/-- An accepted operation node analyzed both its inputs. -/
theorem transformSetOpNode_inputs {callees : SetOpCallees σ ρ} {pstate : ParseState}
    {op : SetOperation} {all isTopLevel : Bool}
    {transformLarg transformRarg :
      ParseState → Except ErrorData (ParseState × SetOpNode × List TargetEntry)}
    {x : ParseState × SetOpNode × List TargetEntry}
    (h : transformSetOpNode callees pstate op all isTopLevel transformLarg transformRarg = .ok x) :
    (∃ ps y, transformLarg ps = .ok y) ∧ ∃ ps y, transformRarg ps = .ok y := by
  unfold transformSetOpNode at h
  obtain ⟨⟨_, _, _⟩, hl, h⟩ := except_bind_eq_ok.mp h
  obtain ⟨_, -, h⟩ := except_bind_eq_ok.mp h
  obtain ⟨_, hr, -⟩ := except_bind_eq_ok.mp h
  exact ⟨⟨_, _, hl⟩, _, _, hr⟩

/-- An accepted `transformSetOperationStmt` analyzed its tree. -/
theorem transformSetOperationStmtWith_tree {callees : SetOpCallees σ ρ} {pstate : ParseState}
    {larg : SelectStmt σ ρ} {clauses : SelectClauses ρ}
    {transformTree : ParseState → Except ErrorData (ParseState × SetOpNode × List TargetEntry)}
    {query : Query} (h : transformSetOperationStmtWith callees pstate larg clauses transformTree = .ok query) :
    ∃ x, transformTree pstate = .ok x := by
  unfold transformSetOperationStmtWith at h
  split at h
  · cases h
  obtain ⟨_, -, h⟩ := except_bind_eq_ok.mp h
  obtain ⟨_, -, h⟩ := except_bind_eq_ok.mp h
  obtain ⟨x, htree, -⟩ := except_bind_eq_ok.mp h
  exact ⟨x, htree⟩

/-- Whether the clauses of any member or operation node of the tree satisfy `p`. -/
def SelectStmt.anyClauses (p : SelectClauses ρ → Bool) : SelectStmt σ ρ → Bool
  | .leaf _ clauses => p clauses
  | .setOp _ _ larg rarg clauses => p clauses || larg.anyClauses p || rarg.anyClauses p

theorem SelectStmt.hasInto_eq_anyClauses :
    ∀ stmt : SelectStmt σ ρ, stmt.hasInto = stmt.anyClauses (·.intoClause.isSome)
  | .leaf _ _ => rfl
  | .setOp _ _ larg rarg _ => by
    simp only [hasInto, anyClauses, hasInto_eq_anyClauses larg, hasInto_eq_anyClauses rarg]

/-- **`transformSetOperationTree` accepts no tree with a node whose clauses
`checkSetOpMember` refuses**: it checks every node it visits, and visits every node of a tree
it accepts, by induction over the tree. -/
theorem transformSetOperationTree_anyClauses (callees : SetOpCallees σ ρ)
    {p : SelectClauses ρ → Bool} (hp : ∀ clauses, p clauses = true → ∃ e, checkSetOpMember clauses = .error e) :
    ∀ (stmt : SelectStmt σ ρ), stmt.anyClauses p = true → ∀ {pstate isTopLevel x},
      transformSetOperationTree callees pstate stmt isTopLevel ≠ .ok x
  | .leaf body clauses, hany, _, _, _, h => by
    obtain ⟨_, hcheck, -⟩ := except_bind_eq_ok.mp h
    obtain ⟨_, herr⟩ := hp clauses hany
    rw [herr] at hcheck
    cases hcheck
  | .setOp op all larg rarg clauses, hany, _, _, _, h => by
    obtain ⟨_, hcheck, h⟩ := except_bind_eq_ok.mp h
    cases hc : p clauses
    · -- both branches analyze the inputs, as a node of their own
      have hnode : ∃ ps isTopLevel x, transformSetOpNode callees ps op all isTopLevel
          (transformSetOperationTree callees · larg false)
          (transformSetOperationTree callees · rarg false) = .ok x := by
        dsimp only at h
        split at h
        · obtain ⟨_, hq, -⟩ := except_bind_eq_ok.mp h
          obtain ⟨_, hx⟩ := transformSetOperationStmtWith_tree hq
          obtain ⟨_, -, hx⟩ := except_bind_eq_ok.mp hx
          exact ⟨_, _, _, hx⟩
        · exact ⟨_, _, _, h⟩
      obtain ⟨_, _, _, hnode⟩ := hnode
      obtain ⟨⟨_, _, hl⟩, _, _, hr⟩ := transformSetOpNode_inputs hnode
      have hinput : larg.anyClauses p = true ∨ rarg.anyClauses p = true := by
        simpa [SelectStmt.anyClauses, hc] using hany
      rcases hinput with hinput | hinput
      · exact transformSetOperationTree_anyClauses callees hp larg hinput hl
      · exact transformSetOperationTree_anyClauses callees hp rarg hinput hr
    · obtain ⟨_, herr⟩ := hp clauses hc
      rw [herr] at hcheck
      cases hcheck

/-- `transformSetOperationTree` never accepts INTO. -/
theorem transformSetOperationTree_hasInto (callees : SetOpCallees σ ρ) (stmt : SelectStmt σ ρ)
    (hinto : stmt.hasInto = true) {pstate : ParseState} {isTopLevel : Bool}
    {x : ParseState × SetOpNode × List TargetEntry} :
    transformSetOperationTree callees pstate stmt isTopLevel ≠ .ok x :=
  transformSetOperationTree_anyClauses callees (fun _ h => ⟨_, checkSetOpMember_intoClause h⟩) stmt
    (stmt.hasInto_eq_anyClauses ▸ hinto)

/-- Below the top, the SELECT analysis never accepts INTO, on any member. -/
theorem transformStmt_hasInto {callees : SetOpCallees σ ρ} (hinto : IntoRejected callees)
    {pstate : ParseState} :
    ∀ {stmt : SelectStmt σ ρ}, stmt.hasInto = true → ∀ {query},
      AntdbAnalyze.transformStmt callees pstate stmt ≠ .ok query
  | .leaf body clauses, h, _, hq => hinto body clauses h _ hq
  | .setOp op all larg rarg clauses, h, _, hq => by
    unfold AntdbAnalyze.transformStmt transformSetOperationStmt at hq
    obtain ⟨_, hx⟩ := transformSetOperationStmtWith_tree hq
    -- the clauses moved out keep INTO
    exact transformSetOperationTree_hasInto callees (.setOp op all larg rarg clauses.withoutTopLevel) h hx

/-- **INTO is accepted only on the leftmost member of a top-level SELECT.** A SELECT the top
level accepts either has no INTO anywhere, and is analyzed as it is, or has INTO on its
leftmost member and nowhere else, and becomes a CREATE TABLE AS over the analysis of the
SELECT without it, of a table that is UNLOGGED when the INTO's is. -/
theorem transformTopLevelStmt_into (callees : StmtCallees σ ρ δ υ)
    (hinto : IntoRejected callees.setOp) (pstate : ParseState) (stmt : SelectStmt σ ρ)
    {result : Analyzed υ} (h : transformTopLevelStmt callees pstate (.selectStmt stmt) = .ok result) :
    (stmt.hasInto = false ∧ ∃ query, AntdbAnalyze.transformStmt callees.setOp pstate stmt = .ok query ∧
        result = .query query) ∨
      (∃ into, stmt.leftmostClauses.intoClause = some into ∧ stmt.withoutLeftmostInto.hasInto = false ∧
        ∃ query, AntdbAnalyze.transformStmt callees.setOp pstate stmt.withoutLeftmostInto = .ok query ∧
          result = .createTableAs (.query query) .table into.unlogged true) := by
  simp only [transformTopLevelStmt, transformTopLevelStmtWith, RawStmt.transformStmt] at h
  split at h
  · next into hleft =>
    obtain ⟨query, hq, h⟩ := except_bind_eq_ok.mp h
    exact .inr ⟨into, hleft, Bool.eq_false_iff.mpr (transformStmt_hasInto hinto · hq), query, hq,
      (transformCreateTableAsStmtWith_eq_ok h).1⟩
  · obtain ⟨query, hq, rfl⟩ := except_map_eq_ok.mp h
    exact .inl ⟨Bool.eq_false_iff.mpr (transformStmt_hasInto hinto · hq), query, hq, rfl⟩

/-- The member analysis of `literalCallees`, refusing INTO as `transformSelectStmt` does. -/
def intoLiteralCallees : SetOpCallees Int Unit :=
  { literalCallees with
    transformSelect := fun value clauses =>
      if clauses.intoClause.isSome then .error selectIntoError
      else literalCallees.transformSelect value clauses }

theorem intoLiteralCallees_intoRejected : IntoRejected intoLiteralCallees := fun _ _ h _ => by
  simp [intoLiteralCallees, h]

/-- The analysis on coordinator `cn1`, the first node of a cluster with data node `dn1`: an
INSERT, DELETE or UPDATE gives a query of its command type; the text of an EXECUTE DIRECT is
one INSERT; no query has a data-modifying WITH, a temporary table or a parameter. -/
def clusterStmtCallees : StmtCallees Int Unit Unit Unit where
  setOp := intoLiteralCallees
  transformInsertStmt _ _ := .ok { makeQuery with commandType := .insert }
  transformDeleteStmt _ _ := .ok { makeQuery with commandType := .delete }
  transformUpdateStmt _ _ := .ok { makeQuery with commandType := .update }
  hasModifyingCTE _ := false
  isQueryUsingTempRelation _ := false
  queryContainsExternParams _ := false
  isTableSpaceStmt _ := true
  isPgxcDatanode := false
  xcMaintenanceMode := false
  pgxcNodeId := 1
  getPgxcNodeoid nodename := if nodename = "cn1" then 16390 else if nodename = "dn1" then 16391 else 0
  getPgxcNodetype nodeoid := if nodeoid = 16390 then .coordinator else .datanode
  pgxcNodeGetNodeId _ _ := 0
  pgParseQuery _ := .ok [.insertStmt ()]
  parseAnalyze _ _ := .ok (.query { makeQuery with commandType := .insert })

/-- `SELECT 1 INTO UNLOGGED t UNION ALL SELECT 2`. -/
def selectIntoUnion : SelectStmt Int Unit :=
  .setOp .union true (.leaf 1 { noClauses with intoClause := some ⟨true⟩ }) (.leaf 2 noClauses)
    noClauses

/-- At the top, `SELECT 1 INTO UNLOGGED t UNION ALL SELECT 2` becomes a CREATE TABLE AS of the
union, into an UNLOGGED table. -/
theorem transformTopLevelStmt_into_union :
    IntoRejected intoLiteralCallees ∧ ∃ result,
      transformTopLevelStmt clusterStmtCallees (makeParsestate .postgres) (.selectStmt selectIntoUnion) =
        .ok result ∧
      ((selectIntoUnion.hasInto = false ∧ ∃ query, AntdbAnalyze.transformStmt intoLiteralCallees
          (makeParsestate .postgres) selectIntoUnion = .ok query ∧ result = .query query) ∨
        (∃ into, selectIntoUnion.leftmostClauses.intoClause = some into ∧
          selectIntoUnion.withoutLeftmostInto.hasInto = false ∧
          ∃ query, AntdbAnalyze.transformStmt intoLiteralCallees (makeParsestate .postgres)
              selectIntoUnion.withoutLeftmostInto = .ok query ∧
            result = .createTableAs (.query query) .table into.unlogged true)) := by
  refine ⟨intoLiteralCallees_intoRejected, _, rfl, ?_⟩
  exact transformTopLevelStmt_into clusterStmtCallees intoLiteralCallees_intoRejected
    (makeParsestate .postgres) selectIntoUnion (by rfl)

/-! ## No FOR UPDATE/SHARE with set operations -/

/-- Whether any member or operation node of the tree has FOR UPDATE/SHARE. -/
def SelectStmt.hasLockingClause (stmt : SelectStmt σ ρ) : Bool :=
  stmt.anyClauses (!·.lockingClause.isEmpty)

theorem checkSetOpMember_lockingClause {clauses : SelectClauses ρ}
    (h : (!clauses.lockingClause.isEmpty) = true) : ∃ e, checkSetOpMember clauses = .error e := by
  unfold checkSetOpMember
  split
  · exact ⟨_, rfl⟩
  · cases hl : clauses.lockingClause with
    | nil => simp [hl] at h
    | cons strength _ => exact ⟨_, rfl⟩

theorem SelectStmt.hasLockingClause_withoutLeftmostInto :
    ∀ stmt : SelectStmt σ ρ, stmt.withoutLeftmostInto.hasLockingClause = stmt.hasLockingClause
  | .leaf _ _ => rfl
  | .setOp _ _ larg _ _ => by
    have ih := larg.hasLockingClause_withoutLeftmostInto
    simp only [hasLockingClause, withoutLeftmostInto, anyClauses] at ih ⊢
    rw [ih]

/-- An accepted `transformSetOperationStmt` had no FOR UPDATE/SHARE on its top node. -/
theorem transformSetOperationStmtWith_lockingClause {callees : SetOpCallees σ ρ}
    {pstate : ParseState} {larg : SelectStmt σ ρ} {clauses : SelectClauses ρ}
    {transformTree : ParseState → Except ErrorData (ParseState × SetOpNode × List TargetEntry)}
    {query : Query} (h : transformSetOperationStmtWith callees pstate larg clauses transformTree = .ok query) :
    clauses.lockingClause = [] := by
  unfold transformSetOperationStmtWith at h
  split at h
  · cases h
  obtain ⟨_, -, h⟩ := except_bind_eq_ok.mp h
  obtain ⟨_, hcheck, -⟩ := except_bind_eq_ok.mp h
  cases hl : clauses.lockingClause
  · rfl
  · rw [hl] at hcheck
    cases hcheck

/-- Below the top, a set operation with FOR UPDATE/SHARE on any of its nodes is refused: on
the top node by `transformSetOperationStmt`, below it by `transformSetOperationTree`. -/
theorem transformStmt_setOp_locking (callees : SetOpCallees σ ρ) (pstate : ParseState)
    {op : SetOperation} {all : Bool} {larg rarg : SelectStmt σ ρ} {clauses : SelectClauses ρ}
    (h : (SelectStmt.setOp op all larg rarg clauses).hasLockingClause = true) {query : Query} :
    AntdbAnalyze.transformStmt callees pstate (.setOp op all larg rarg clauses) ≠ .ok query := by
  intro hq
  unfold AntdbAnalyze.transformStmt transformSetOperationStmt at hq
  have hnil := transformSetOperationStmtWith_lockingClause hq
  obtain ⟨_, hx⟩ := transformSetOperationStmtWith_tree hq
  refine transformSetOperationTree_anyClauses callees (fun _ => checkSetOpMember_lockingClause)
    (.setOp op all larg rarg clauses.withoutTopLevel) ?_ hx
  simpa [SelectStmt.hasLockingClause, SelectStmt.anyClauses, SelectClauses.withoutTopLevel, hnil]
    using h

/-- **FOR UPDATE/SHARE is not allowed with UNION/INTERSECT/EXCEPT**: a top-level set operation
with a locking clause on any of its nodes, the top one or any member below, is refused, also
when its leftmost member has INTO. -/
theorem transformTopLevelStmt_setOp_locking (callees : StmtCallees σ ρ δ υ) (pstate : ParseState)
    {op : SetOperation} {all : Bool} {larg rarg : SelectStmt σ ρ} {clauses : SelectClauses ρ}
    (h : (SelectStmt.setOp op all larg rarg clauses).hasLockingClause = true) {result : Analyzed υ} :
    transformTopLevelStmt callees pstate (.selectStmt (.setOp op all larg rarg clauses)) ≠
      .ok result := by
  intro hresult
  simp only [transformTopLevelStmt, transformTopLevelStmtWith, RawStmt.transformStmt] at hresult
  split at hresult
  · obtain ⟨_, hq, -⟩ := except_bind_eq_ok.mp hresult
    rw [← SelectStmt.hasLockingClause_withoutLeftmostInto] at h
    exact transformStmt_setOp_locking callees.setOp pstate h hq
  · obtain ⟨_, hq, -⟩ := except_map_eq_ok.mp hresult
    exact transformStmt_setOp_locking callees.setOp pstate h hq

/-- `SELECT 1 UNION ALL (SELECT 2 FOR UPDATE)` is refused with the source's error. -/
theorem transformTopLevelStmt_setOp_locking_member :
    transformTopLevelStmt clusterStmtCallees (makeParsestate .postgres)
        (.selectStmt (.setOp .union true (.leaf 1 noClauses)
          (.leaf 2 { noClauses with lockingClause := [3] }) noClauses)) =
      .error (lockingNotAllowedError 3) ∧
    ∀ result, transformTopLevelStmt clusterStmtCallees (makeParsestate .postgres)
        (.selectStmt (.setOp .union true (.leaf 1 noClauses)
          (.leaf 2 { noClauses with lockingClause := [3] }) noClauses)) ≠ .ok result :=
  ⟨rfl, fun _ => transformTopLevelStmt_setOp_locking clusterStmtCallees (makeParsestate .postgres)
    (by decide)⟩

/-! ## Which statements are analyzed -/

/-- Each element of the right list of a `Forall₂` is related to one of the left list. -/
theorem exists_of_mem_of_forall₂ {α β : Type} {R : α → β → Prop} :
    ∀ {xs : List α} {ys : List β}, List.Forall₂ R xs ys → ∀ {y}, y ∈ ys → ∃ x ∈ xs, R x y
  | _, _, .nil, _, hy => nomatch hy
  | x :: _, _, .cons hxy hrest, _, hy => by
    rcases List.mem_cons.mp hy with rfl | hy
    · exact ⟨x, List.mem_cons_self _ _, hxy⟩
    · obtain ⟨x', hx', hR⟩ := exists_of_mem_of_forall₂ hrest hy
      exact ⟨x', List.mem_cons_of_mem _ hx', hR⟩

/-- An accepted EXECUTE DIRECT: at most one statement in its text, analyzed by
`parse_analyze`, and a step whose type passed its checks. -/
theorem transformExecDirectStmt_eq_ok {callees : StmtCallees σ ρ δ υ} {nodename : String}
    {otherNodes : List String} {query : String} {a : Analyzed υ}
    (h : transformExecDirectStmt callees nodename otherNodes query = .ok a) :
    ∃ (result : Option (Analyzed υ)) (isLocal : Bool) (step : RemoteQuery),
      a = execDirectResult result query isLocal step ∧
      (∀ r ∈ result, ∃ parsetree, callees.parseAnalyze parsetree query = .ok r) ∧
      step.execDirectType = execDirectTypeOf isLocal (result.bind Analyzed.commandType) ∧
      checkExecDirectType callees.xcMaintenanceMode callees.isTableSpaceStmt step.execDirectType
        result = .ok () := by
  unfold transformExecDirectStmt at h
  obtain ⟨-, h⟩ := jp_ite_throw_eq_ok h
  obtain ⟨-, h⟩ := jp_ite_throw_eq_ok h
  obtain ⟨-, h⟩ := jp_ite_throw_eq_ok h
  obtain ⟨trees, -, h⟩ := except_bind_eq_ok.mp h
  obtain ⟨-, h⟩ := jp_ite_throw_eq_ok h
  obtain ⟨results, hresults, h⟩ := except_bind_eq_ok.mp h
  obtain ⟨⟨⟩, hcheck, h⟩ := except_bind_eq_ok.mp h
  refine ⟨_, _, _, (Except.ok.inj h).symm, fun r hr => ?_, rfl, hcheck⟩
  obtain ⟨parsetree, -, hp⟩ :=
    exists_of_mem_of_forall₂ (forall₂_of_mapM_eq_ok hresults) (List.mem_of_getLast?_eq_some hr)
  exact ⟨parsetree, hp⟩

/-- `analyze_requires_snapshot` matches `transformStmt`, as its comment asks: it is false
exactly for the statements `transformStmt` returns unanalyzed, as a bare utility query. -/
theorem analyzeRequiresSnapshot_eq_false_iff (callees : StmtCallees σ ρ δ υ) (pstate : ParseState)
    (stmt : RawStmt σ ρ δ υ) :
    analyzeRequiresSnapshot stmt = false ↔ ∃ u, stmt.transformStmt callees pstate = .ok (.utility u) := by
  cases stmt with
  | utility u => exact ⟨fun _ => ⟨u, rfl⟩, fun _ => rfl⟩
  | declareCursorStmt =>
    refine ⟨nofun, fun ⟨u, h⟩ => ?_⟩
    obtain ⟨_, _, _, h⟩ := transformDeclareCursorStmt_eq_ok h
    cases h
  | execDirectStmt =>
    refine ⟨nofun, fun ⟨u, h⟩ => ?_⟩
    obtain ⟨result, _, _, h, -⟩ := transformExecDirectStmt_eq_ok h
    cases result <;> cases h
  | createTableAsStmt =>
    refine ⟨nofun, fun ⟨u, h⟩ => ?_⟩
    obtain ⟨_, _, h⟩ := except_bind_eq_ok.mp h
    cases (transformCreateTableAsStmtWith_eq_ok h).1
  | _ =>
    refine ⟨nofun, fun ⟨u, h⟩ => ?_⟩
    obtain ⟨_, _, h⟩ := except_map_eq_ok.mp h
    cases h

/-! ## Cursors and materialized views, at every level -/

/-- Every cursor and every materialized view of an analyzed statement passed its checks, at
every level of the tree. -/
inductive Analyzed.WellFormed (callees : StmtCallees σ ρ δ υ) : Analyzed υ → Prop
  | query (query : Query) : WellFormed callees (.query query)
  | declareCursor {query : Query} {portalname : String} {options : CursorOptions} :
      CursorChecked callees options query → WellFormed callees (.declareCursor query portalname options)
  | explain {query : Analyzed υ} : WellFormed callees query → WellFormed callees (.explain query)
  | createTableAs {query : Analyzed υ} {relkind : ObjectType} {unlogged isSelectInto : Bool} :
      WellFormed callees query → (relkind = .matview → MatviewChecked callees query unlogged) →
      WellFormed callees (.createTableAs query relkind unlogged isSelectInto)
  | utility (stmt : υ) : WellFormed callees (.utility stmt)
  | execDirect {result : Analyzed υ} {sqlStatement : String} {isLocal : Bool} {step : RemoteQuery} :
      WellFormed callees result → WellFormed callees (.execDirect result sqlStatement isLocal step)
  | execDirectBlank (sqlStatement : String) (isLocal : Bool) (step : RemoteQuery) :
      WellFormed callees (.execDirectBlank sqlStatement isLocal step)

/-- The lift of SELECT INTO keeps a statement well formed: it only adds a CREATE TABLE AS of a
table. -/
theorem transformTopLevelStmtWith_wellFormed {callees : StmtCallees σ ρ δ υ} {pstate : ParseState}
    (stmt : RawStmt σ ρ δ υ) {transformed : Except ErrorData (Analyzed υ)}
    (ht : ∀ {a}, transformed = .ok a → a.WellFormed callees) {a : Analyzed υ}
    (h : transformTopLevelStmtWith callees pstate stmt transformed = .ok a) : a.WellFormed callees := by
  cases stmt with
  | selectStmt stmt =>
    simp only [transformTopLevelStmtWith] at h
    split at h
    · obtain ⟨_, -, h⟩ := except_bind_eq_ok.mp h
      rw [(transformCreateTableAsStmtWith_eq_ok h).1]
      exact .createTableAs (.query _) nofun
    · exact ht h
  | _ => exact ht h

section WellFormed

variable (callees : StmtCallees σ ρ δ υ)
  (hparse : ∀ parsetree text a, callees.parseAnalyze parsetree text = .ok a → a.WellFormed callees)
include hparse

/-- EXECUTE DIRECT keeps the checks of the statement its text holds. -/
theorem transformExecDirectStmt_wellFormed {nodename : String} {otherNodes : List String}
    {query : String} {a : Analyzed υ} (h : transformExecDirectStmt callees nodename otherNodes query = .ok a) :
    a.WellFormed callees := by
  obtain ⟨result, isLocal, step, rfl, hresult, -⟩ := transformExecDirectStmt_eq_ok h
  cases result with
  | none => exact .execDirectBlank _ _ _
  | some r =>
    obtain ⟨parsetree, hp⟩ := hresult r rfl
    exact .execDirect (hparse _ _ _ hp)

/-- **Run**: every statement `transformStmt` accepts is well formed, by induction over the
parse tree; the lift of SELECT INTO only adds a CREATE TABLE AS of a table. -/
theorem RawStmt.transformStmt_wellFormed (pstate : ParseState) :
    ∀ (stmt : RawStmt σ ρ δ υ) {a : Analyzed υ}, stmt.transformStmt callees pstate = .ok a →
      a.WellFormed callees
  | .insertStmt _, _, h | .deleteStmt _, _, h | .updateStmt _, _, h | .selectStmt _, _, h => by
    obtain ⟨query, -, rfl⟩ := except_map_eq_ok.mp h
    exact .query query
  | .declareCursorStmt .., _, h => by
    obtain ⟨_, -, hchecked, rfl⟩ := transformDeclareCursorStmt_eq_ok h
    exact .declareCursor hchecked
  | .explainStmt query, _, h => by
    obtain ⟨_, ha, rfl⟩ := except_map_eq_ok.mp h
    exact .explain (transformTopLevelStmtWith_wellFormed query (transformStmt_wellFormed pstate query) ha)
  | .execDirectStmt .., _, h => transformExecDirectStmt_wellFormed callees hparse h
  | .createTableAsStmt query .., _, h => by
    obtain ⟨_, hq, h⟩ := except_bind_eq_ok.mp h
    obtain ⟨rfl, hmat⟩ := transformCreateTableAsStmtWith_eq_ok h
    exact .createTableAs (transformStmt_wellFormed pstate query hq) hmat
  | .utility stmt, _, h => by
    cases h
    exact .utility stmt

/-- **Every statement the top level accepts is well formed**: in every DECLARE CURSOR the
SELECT is a plain query without data-modifying WITH, SCROLL and NO SCROLL are not both
given, and a WITH HOLD, SCROLL or INSENSITIVE cursor has no row marks; every materialized view
has no data-modifying WITH, no temporary table, no parameter, and is not UNLOGGED; at every
level of EXPLAIN, CREATE TABLE AS and EXECUTE DIRECT. -/
theorem transformTopLevelStmt_wellFormed (pstate : ParseState) (stmt : RawStmt σ ρ δ υ)
    {a : Analyzed υ} (h : transformTopLevelStmt callees pstate stmt = .ok a) : a.WellFormed callees :=
  transformTopLevelStmtWith_wellFormed stmt (RawStmt.transformStmt_wellFormed callees hparse pstate stmt) h

end WellFormed

/-- `parse_analyze` of the cluster only gives queries, which are well formed. -/
theorem clusterStmtCallees_parseAnalyze_wellFormed :
    ∀ parsetree text a, clusterStmtCallees.parseAnalyze parsetree text = .ok a →
      a.WellFormed clusterStmtCallees := by
  rintro _ _ _ ⟨⟩
  exact .query _

/-- `DECLARE c SCROLL CURSOR WITH HOLD FOR SELECT 1` is accepted, and well formed. -/
theorem transformTopLevelStmt_wellFormed_scroll_cursor :
    (∀ parsetree text a, clusterStmtCallees.parseAnalyze parsetree text = .ok a →
      a.WellFormed clusterStmtCallees) ∧
    ∃ a, transformTopLevelStmt clusterStmtCallees (makeParsestate .postgres)
        (.declareCursorStmt "c" ⟨true, false, false, true⟩ (.leaf 1 noClauses)) = .ok a ∧
      a.WellFormed clusterStmtCallees := by
  refine ⟨clusterStmtCallees_parseAnalyze_wellFormed, _, rfl, ?_⟩
  exact transformTopLevelStmt_wellFormed clusterStmtCallees clusterStmtCallees_parseAnalyze_wellFormed
    (makeParsestate .postgres) (.declareCursorStmt "c" ⟨true, false, false, true⟩ (.leaf 1 noClauses))
    (by rfl)

/-! ## What EXECUTE DIRECT may run -/

/-- On the node itself, EXECUTE DIRECT runs every statement but a utility one, INSERT, UPDATE
and DELETE included, in maintenance mode or not: the check on data-modifying statements only
looks at the types of runs on another node. -/
theorem transformExecDirectStmt_local (callees : StmtCallees σ ρ δ υ) (nodename query : String)
    (parsetree : RawStmt σ ρ δ υ) (result : Analyzed υ)
    (hdatanode : callees.isPgxcDatanode = false) (hoid : callees.getPgxcNodeoid nodename ≠ 0)
    (hcoordinator : callees.getPgxcNodetype (callees.getPgxcNodeoid nodename) = .coordinator)
    (hindex : callees.pgxcNodeGetNodeId (callees.getPgxcNodeoid nodename) .coordinator =
      callees.pgxcNodeId - 1)
    (hparse : callees.pgParseQuery query = .ok [parsetree])
    (hresult : callees.parseAnalyze parsetree query = .ok result)
    (hutility : result.commandType ≠ some .utility) :
    transformExecDirectStmt callees nodename [] query =
      .ok (.execDirect result query true
        ⟨query, .execOnCoords, .execDirectLocal, [callees.pgxcNodeId - 1]⟩) := by
  simp [transformExecDirectStmt, hdatanode, hoid, hcoordinator, hindex, hparse, hresult,
    execDirectTypeOf, hutility, checkExecDirectType, execDirectResult, ok_bind_eq, List.mapM.loop]

/-- `EXECUTE DIRECT ON (cn1) 'INSERT ...'` on `cn1` itself runs the INSERT, outside maintenance
mode. -/
example : transformExecDirectStmt clusterStmtCallees "cn1" [] "INSERT INTO t VALUES (1)" =
    .ok (.execDirect (.query { makeQuery with commandType := .insert }) "INSERT INTO t VALUES (1)"
      true ⟨"INSERT INTO t VALUES (1)", .execOnCoords, .execDirectLocal, [0]⟩) :=
  transformExecDirectStmt_local clusterStmtCallees "cn1" "INSERT INTO t VALUES (1)"
    (.insertStmt ()) _ rfl (by decide) (by decide) (by decide) rfl rfl (by decide)

end AntdbAnalyze
