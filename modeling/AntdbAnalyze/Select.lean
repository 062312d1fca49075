import AntdbAnalyze.LockingClause
import AntdbAnalyze.SetOp.Tree

/-!
# A plain SELECT (analyze.c:1088-1220)

`transformSelectStmt` analyzes a SELECT without set operations or VALUES lists. It refuses
INTO, analyzes FROM, then, in this dialect build, WHERE before the target list so that the
`(+)` rewrite (`transformFromAndWhere`) can reshape the FROM tree first. The target list,
HAVING, ORDER BY, GROUP BY, DISTINCT, LIMIT and the window definitions follow. The query is
assembled from the parse state, and last, each FOR UPDATE/SHARE clause of the statement
goes through `transformLockingClause`, in order.

- `SelectParseState`: `ParseState` with the fields the SELECT code sets and reads beside the
  range table: the locking clause and window definitions it stashes, and the aggregate
  flags the expression transforms raise;
- `SelectCallees`: the clause transforms of other files (parse_clause.c, parse_target.c,
  parse_agg.c), `expression_returns_set` and `canonicalize_qual`;
- `ClauseHolds`: what one FOR UPDATE/SHARE clause asks of the query;
- `transformLockingClauses_holds`: by induction over the clauses, each accepted clause keeps
  the locks of the ones before it (`transformLockingClause_keepsLocks`), so every clause
  holds at the end;
- **`transformSelectStmt_locks`**: in the query of every accepted SELECT, every
  FOR UPDATE/SHARE clause holds, whatever the clauses after it, and no entry has two row
  marks.

The WITH clause (`transformWithClause`), `markTargetListOrigins`, `assign_query_collations`
and the Query fields no modelled function reads (`hasDistinctOn`, `windowClause`,
`hasSubLinks`, the CTE fields) are left out.
-/

namespace AntdbAnalyze

variable {ρ : Type}

/-! ## The statement and the state -/

/-- The clauses of a plain `SelectStmt` (`op = SETOP_NONE`, no `valuesLists`) that
`transformSelectStmt` reads, over the type `ρ` of raw clause items. `distinctClause` is
`NIL`, `list_make1(NULL)` for `DISTINCT`, or the expressions of `DISTINCT ON`. -/
structure PlainSelectStmt (ρ : Type) where
  intoClause : Bool
  lockingClause : List LockingClause
  windowClause : List ρ
  fromClause : List ρ
  whereClause : Option ρ
  targetList : List ρ
  havingClause : Option ρ
  sortClause : List ρ
  groupClause : List ρ
  distinctClause : List (Option ρ)
  limitOffset : Option ρ
  limitCount : Option ρ

/-- The parse state of a SELECT's analysis: `p_locking_clause` and `p_windowdefs`, which
`transformSelectStmt` sets for the clause transforms to read, and `p_hasAggs` and
`p_hasWindowFuncs`, which the expression transforms raise. -/
structure SelectParseState (ρ : Type) extends ParseState where
  p_locking_clause : List LockingClause
  p_windowdefs : List ρ
  p_hasAggs : Bool
  p_hasWindowFuncs : Bool

/-- The functions of other files `transformSelectStmt` calls. The clause transforms take the
construct name of their errors (`"WHERE"`, `"HAVING"`, `"OFFSET"`, `"LIMIT"`) and return the
state, whose `p_next_resno` grows with the entries they add to the target list. -/
structure SelectCallees (ρ : Type) where
  transformFromClause : SelectParseState ρ → List ρ → Except ErrorData (SelectParseState ρ)
  transformWhereClause : SelectParseState ρ → Option ρ → String →
    Except ErrorData (SelectParseState ρ × Option Expr)
  transformTargetList : SelectParseState ρ → List ρ →
    Except ErrorData (SelectParseState ρ × List TargetEntry)
  transformSortClause : SelectParseState ρ → List ρ → List TargetEntry →
    Except ErrorData (SelectParseState ρ × List SortGroupClause × List TargetEntry)
  transformGroupClause : SelectParseState ρ → List ρ → List TargetEntry → List SortGroupClause →
    Except ErrorData (SelectParseState ρ × List SortGroupClause × List TargetEntry)
  transformDistinctClause : SelectParseState ρ → List TargetEntry → List SortGroupClause →
    Except ErrorData (SelectParseState ρ × List SortGroupClause × List TargetEntry)
  transformDistinctOnClause : SelectParseState ρ → List (Option ρ) → List TargetEntry →
    List SortGroupClause → Except ErrorData (SelectParseState ρ × List SortGroupClause × List TargetEntry)
  transformLimitClause : SelectParseState ρ → Option ρ → String → Except ErrorData (Option Expr)
  /-- `transformWindowDefinitions(pstate, pstate->p_windowdefs, &qry->targetList)`; the
  window clause it returns is not modelled -/
  transformWindowDefinitions : SelectParseState ρ → List ρ → List TargetEntry →
    Except ErrorData (SelectParseState ρ × List TargetEntry)
  parseCheckAggregates : SelectParseState ρ → Query → Except ErrorData Unit
  expressionReturnsSet : List TargetEntry → Bool
  canonicalizeQual : Expr → Expr

/-! ## The analysis -/

/-- The DISTINCT step: none, `DISTINCT` (a first item `NULL`), or `DISTINCT ON`. -/
def transformDistinct (callees : SelectCallees ρ) (pstate : SelectParseState ρ)
    (distinctClause : List (Option ρ)) (targetList : List TargetEntry)
    (sortClause : List SortGroupClause) :
    Except ErrorData (SelectParseState ρ × List SortGroupClause × List TargetEntry) :=
  match distinctClause with
  | [] => .ok (pstate, [], targetList)
  | none :: _ => callees.transformDistinctClause pstate targetList sortClause
  | _ => callees.transformDistinctOnClause pstate distinctClause targetList sortClause

/-- `if (pstate->p_hasAggs || qry->groupClause || qry->havingQual) parseCheckAggregates(...)`. -/
def checkAggregates (callees : SelectCallees ρ) (pstate : SelectParseState ρ) (qry : Query) :
    Except ErrorData Unit :=
  if pstate.p_hasAggs || !qry.groupClause.isEmpty || qry.havingQual.isSome then
    callees.parseCheckAggregates pstate qry
  else .ok ()

/-- The `foreach` over `stmt->lockingClause`: `transformLockingClause(pstate, qry, lc, false)`
for each clause, in order. -/
def transformLockingClauses (expressionReturnsSet : List TargetEntry → Bool)
    (clauses : List LockingClause) (qry : Query) : Except ErrorData Query :=
  clauses.foldlM (fun qry lc => transformLockingClause expressionReturnsSet lc false qry) qry

/-- `transformSelectStmt(pstate, stmt)`. -/
def transformSelectStmt (callees : SelectCallees ρ) (pstate : SelectParseState ρ)
    (stmt : PlainSelectStmt ρ) : Except ErrorData Query := do
  if stmt.intoClause then throw selectIntoError
  let pstate := { pstate with p_locking_clause := stmt.lockingClause,
                              p_windowdefs := stmt.windowClause }
  let pstate ← callees.transformFromClause pstate stmt.fromClause
  let (pstate, qual) ← callees.transformWhereClause pstate stmt.whereClause "WHERE"
  let (base, qual) ← transformFromAndWhere callees.canonicalizeQual pstate.toParseState qual
  let pstate := { pstate with toParseState := base }
  let (pstate, targetList) ← callees.transformTargetList pstate stmt.targetList
  let (pstate, havingQual) ← callees.transformWhereClause pstate stmt.havingClause "HAVING"
  let (pstate, sortClause, targetList) ←
    callees.transformSortClause pstate stmt.sortClause targetList
  let (pstate, groupClause, targetList) ←
    callees.transformGroupClause pstate stmt.groupClause targetList sortClause
  let (pstate, distinctClause, targetList) ←
    transformDistinct callees pstate stmt.distinctClause targetList sortClause
  let limitOffset ← callees.transformLimitClause pstate stmt.limitOffset "OFFSET"
  let limitCount ← callees.transformLimitClause pstate stmt.limitCount "LIMIT"
  let (pstate, targetList) ←
    callees.transformWindowDefinitions pstate pstate.p_windowdefs targetList
  let qry := { makeQuery with
    commandType := .select, targetList, rtable := pstate.p_rtable,
    jointree := some (.fromExpr pstate.p_joinlist qual), havingQual, sortClause, groupClause,
    distinctClause, limitOffset, limitCount, hasAggs := pstate.p_hasAggs,
    hasWindowFuncs := pstate.p_hasWindowFuncs }
  checkAggregates callees pstate qry
  transformLockingClauses callees.expressionReturnsSet stmt.lockingClause qry

/-- A SELECT with INTO is refused before anything is analyzed: INTO is only lifted at the top
(`transformTopLevelStmt`). -/
theorem transformSelectStmt_intoClause (callees : SelectCallees ρ) (pstate : SelectParseState ρ)
    {stmt : PlainSelectStmt ρ} (h : stmt.intoClause = true) :
    transformSelectStmt callees pstate stmt = .error selectIntoError := by
  simp only [transformSelectStmt, h, ite_true]
  rfl

/-- An accepted SELECT is the locking loop run on a query with no row marks yet. -/
theorem transformSelectStmt_eq_ok {callees : SelectCallees ρ} {pstate : SelectParseState ρ}
    {stmt : PlainSelectStmt ρ} {qry : Query} (h : transformSelectStmt callees pstate stmt = .ok qry) :
    ∃ qry₀ : Query, qry₀.rowMarks = [] ∧
      transformLockingClauses callees.expressionReturnsSet stmt.lockingClause qry₀ = .ok qry := by
  unfold transformSelectStmt at h
  dsimp only at h
  split at h
  · cases h
  iterate 13 obtain ⟨_, -, h⟩ := except_bind_eq_ok.mp h
  exact ⟨_, rfl, h⟩

/-! ## The FOR UPDATE/SHARE clauses -/

/-- What clause `lc` asks of the query: with no names, the query locked throughout at its
strength; with names, the first entry of each a relation or a sub-query, locked at its
strength. -/
def ClauseHolds (lc : LockingClause) (qry : Query) : Prop :=
  (lc.lockedRels = [] → AllLocked lc.strength lc.noWait qry) ∧
    ∀ thisrel ∈ lc.lockedRels, ∃ i rte, FirstAlias qry.rtable thisrel.relname i rte ∧
      rte.rtekind.isLockable ∧ EntryLocked lc.strength lc.noWait qry (i + 1) rte

/-- Two range tables of the same kinds and aliases have entries of one kind and alias at each
index. -/
theorem entryShape_eq_of_map {rtable rtable' : List RangeTblEntry}
    (h : rtable'.map entryShape = rtable.map entryShape) {i : Nat} {rte rte' : RangeTblEntry}
    (hi : rtable[i]? = some rte) (hi' : rtable'[i]? = some rte') : entryShape rte' = entryShape rte := by
  obtain ⟨r, hr, hs⟩ := exists_getElem?_of_map_entryShape h hi'
  rw [hi] at hr
  cases hr
  exact hs.symm

/-- A clause that holds keeps holding under anything that keeps the locks. -/
theorem ClauseHolds.keep {lc : LockingClause} {qry qry' : Query} (hold : ClauseHolds lc qry)
    (h : KeepsLocks qry qry') : ClauseHolds lc qry' := by
  refine ⟨fun hnil => h.allLocked (hold.1 hnil), fun thisrel hmem => ?_⟩
  obtain ⟨i, rte, hfirst, hlock, hentry⟩ := hold.2 thisrel hmem
  obtain ⟨rte', hi', hshape, hentry'⟩ := h.entryLocked hfirst.1 hentry
  exact ⟨i, rte', hfirst.of_shape h.shape hi' hshape,
    by rwa [show rte'.rtekind = rte.rtekind from congrArg Prod.fst hshape], hentry'⟩

/-- An accepted clause holds in the query it returns. -/
theorem transformLockingClause_holds {expressionReturnsSet : List TargetEntry → Bool}
    {lc : LockingClause} {pushedDown : Bool} {qry qry' : Query}
    (h : transformLockingClause expressionReturnsSet lc pushedDown qry = .ok qry') :
    ClauseHolds lc qry' := by
  obtain ⟨hshape, hall, hnamed⟩ := transformLockingClause_accepted h
  refine ⟨fun hnil => (hall hnil).1, fun thisrel hmem => ?_⟩
  obtain ⟨i, rte, hfirst, hlock, rte', hi', hentry⟩ :=
    (hnamed (List.ne_nil_of_mem hmem)).1 thisrel hmem
  have hs := entryShape_eq_of_map hshape hfirst.1 hi'
  exact ⟨i, rte', hfirst.of_shape hshape hi' hs,
    by rwa [show rte'.rtekind = rte.rtekind from congrArg Prod.fst hs], hentry⟩

/-- **Run**: the loop over a SELECT's clauses keeps every lock of the query it starts from,
records no second row mark for an entry, and leaves every clause holding. By induction over
the clauses: a clause holds once it is accepted, and every later clause keeps its locks. -/
theorem transformLockingClauses_holds {expressionReturnsSet : List TargetEntry → Bool} :
    ∀ {clauses : List LockingClause} {qry qry' : Query},
      transformLockingClauses expressionReturnsSet clauses qry = .ok qry' →
      KeepsLocks qry qry' ∧ (RowMarksUnique qry.rowMarks → RowMarksUnique qry'.rowMarks) ∧
        ∀ lc ∈ clauses, ClauseHolds lc qry'
  | [], _, _, h => by
    cases h
    exact ⟨.refl _, id, nofun⟩
  | lc :: rest, _, _, h => by
    rw [transformLockingClauses, List.foldlM_cons] at h
    obtain ⟨qry₁, h₁, h⟩ := except_bind_eq_ok.mp h
    obtain ⟨hkeep, huniq, hholds⟩ := transformLockingClauses_holds h
    refine ⟨(transformLockingClause_keepsLocks h₁).trans hkeep,
      fun hu => huniq (transformLockingClause_rowMarksUnique h₁ hu),
      List.forall_mem_cons.mpr ⟨(transformLockingClause_holds h₁).keep hkeep, hholds⟩⟩

/-- **The FOR UPDATE/SHARE clauses of a SELECT.** In the query of every accepted plain SELECT,
every locking clause of the statement holds: with no names, every relation and sub-query
entry, to any depth, is marked at least as strongly as the clause asks, with NOWAIT if it
asks, and every relation has `ACL_SELECT_FOR_UPDATE`; with names, so is the first entry each
name matches, which is a relation or a sub-query. Later clauses never weaken an earlier one,
and no entry has two row marks. -/
theorem transformSelectStmt_locks (callees : SelectCallees ρ) (pstate : SelectParseState ρ)
    (stmt : PlainSelectStmt ρ) {qry : Query}
    (h : transformSelectStmt callees pstate stmt = .ok qry) :
    RowMarksUnique qry.rowMarks ∧ ∀ lc ∈ stmt.lockingClause, ClauseHolds lc qry := by
  obtain ⟨qry₀, hmarks, hloop⟩ := transformSelectStmt_eq_ok h
  obtain ⟨-, huniq, hholds⟩ := transformLockingClauses_holds hloop
  exact ⟨huniq (by rw [hmarks]; exact List.nodup_nil), hholds⟩

/-- Clause transforms that give each FROM name a relation entry and a `RangeTblRef`, and
leave every other clause empty. -/
def tableSelectCallees : SelectCallees String where
  transformFromClause pstate names := .ok { pstate with
    p_rtable := pstate.p_rtable ++ names.map fun n => ⟨.relation, 16384, true, none, n, [], 2, .inner, []⟩,
    p_joinlist := pstate.p_joinlist ++
      (List.range' (pstate.p_rtable.length + 1) names.length).map .rangeTblRef }
  transformWhereClause pstate _ _ := .ok (pstate, none)
  transformTargetList pstate _ := .ok (pstate, [])
  transformSortClause pstate _ targetList := .ok (pstate, [], targetList)
  transformGroupClause pstate _ targetList _ := .ok (pstate, [], targetList)
  transformDistinctClause pstate targetList _ := .ok (pstate, [], targetList)
  transformDistinctOnClause pstate _ targetList _ := .ok (pstate, [], targetList)
  transformLimitClause _ _ _ := .ok none
  transformWindowDefinitions pstate _ targetList := .ok (pstate, targetList)
  parseCheckAggregates _ _ := .ok ()
  expressionReturnsSet _ := false
  canonicalizeQual := id

/-- `SELECT * FROM t, s FOR SHARE OF t FOR UPDATE`: the second clause locks `t` again, more
strongly, and both clauses hold. -/
theorem transformSelectStmt_locks_share_then_update :
    ∃ qry, transformSelectStmt tableSelectCallees
        ⟨makeParsestate .postgres, [], [], false, false⟩
        ⟨false, [⟨[⟨none, none, "t"⟩], 1, false⟩, ⟨[], 3, false⟩], [], ["t", "s"], none, [], none,
          [], [], [], none, none⟩ = .ok qry ∧
      RowMarksUnique qry.rowMarks ∧
      ∀ lc ∈ [⟨[⟨none, none, "t"⟩], 1, false⟩, ⟨[], 3, false⟩], ClauseHolds lc qry := by
  refine ⟨_, rfl, ?_⟩
  exact transformSelectStmt_locks tableSelectCallees ⟨makeParsestate .postgres, [], [], false, false⟩
    ⟨false, [⟨[⟨none, none, "t"⟩], 1, false⟩, ⟨[], 3, false⟩], [], ["t", "s"], none, [], none,
      [], [], [], none, none⟩ (by rfl)

end AntdbAnalyze
