import AntdbAnalyze.Rownum.Limit

/-!
# The entry points (analyze.c:144-241, 3311-3375)

`parse_analyze_for_gram` and `parse_analyze_varparams_for_gram` both run
`transformTopLevelStmt`. Only the first then runs the two Oracle rewrites on the result:
`check_joinon_column_join` on the top-level join tree, and `rewrite_rownum_query_enum` on
every query of the tree.

- `checkJoinonColumnJoin`: classifies the ON of each explicit join with a marker, checks
  it against the join's direction where an input is a bare `RangeTblRef`, and strips the
  markers; the join tree it returns has none (`checkJoinonColumnJoin_hasMarker`).
- `parseAnalyzeForGram_eq_varparams_iff`: the two entry points agree on a statement
  exactly when the rewrites leave its analyzed query alone.
- `parseAnalyzeForGram_rtable`: the queries of the range table only go through the
  ROWNUM rewrite, so a marker in the ON of a join inside a FROM sub-query stays
  (`parseAnalyzeForGram_keeps_subquery_marker`).
- `checkJoinonColumnJoin_eval`: the join-tree check only strips markers, so the tree it
  returns has the rows of the tree it was given; `finishAnalyzeForGram_rows`: so has the
  tree `parse_analyze_for_gram` returns, when WHERE does not mention ROWNUM; and
  **`parseAnalyzeForGram_rows_eq_varparams`**: the two entry points agree on those rows,
  with the rows of each range-table entry read from the database, those of a FROM
  sub-query included.

`transformTopLevelStmt` is a parameter: the clause transforms it calls live in files
not under src/. It is one function of the grammar and the tree, which is exact for
statements without `$n`, where the two parameter strategies do not differ.
-/

namespace AntdbAnalyze

/-- The error `check_joinon_column_join` raises for a marker against the join's direction.
The text reads "only on", as in the source. -/
def joinOnDirectionError : ErrorData :=
  ⟨.syntaxError, "a predicate may reference only on outer-joined table"⟩

/-- The direction check of `check_joinon_column_join`, made only on an input that is a
bare `RangeTblRef`: the preserving table must be on the preserved side, the marked table
on the nullable side. -/
def joinOnDirectionFails (jinfo : JoinExprInfo) (jointype : JoinType) (larg rarg : JoinNode) :
    Bool :=
  (match larg with
   | .rangeTblRef rtindex =>
     (rtindex == jinfo.lrtindex && jointype != .left) ||
       (rtindex == jinfo.rrtindex && jointype != .right)
   | _ => false) ||
  (match rarg with
   | .rangeTblRef rtindex =>
     (rtindex == jinfo.lrtindex && jointype != .right) ||
       (rtindex == jinfo.rrtindex && jointype != .left)
   | _ => false)

mutual
/-- `check_joinon_column_join(node, pstate)`: the join tree with the markers of every ON
and WHERE stripped, or the error of a misdirected or unclassifiable ON. -/
def checkJoinonColumnJoin : JoinNode → Except ErrorData JoinNode
  | .rangeTblRef rtindex => .ok (.rangeTblRef rtindex)
  | .joinExpr jointype larg rarg quals rtindex => do
    let larg ← checkJoinonColumnJoin larg
    let rarg ← checkJoinonColumnJoin rarg
    match quals with
    | some q =>
      if haveOraColumnJoin q then
        let jinfo ← getOraColumnJoin q
        if jinfo.type != .inner && joinOnDirectionFails jinfo jointype larg rarg then
          throw joinOnDirectionError
        return .joinExpr jointype larg rarg (some (removeColumnJoinExpr q)) rtindex
      else return .joinExpr jointype larg rarg (some q) rtindex
    | none => return .joinExpr jointype larg rarg none rtindex
  | .fromExpr fromlist quals => do
    let fromlist ← checkJoinonColumnJoinList fromlist
    return .fromExpr fromlist
      (quals.map fun q => if haveOraColumnJoin q then removeColumnJoinExpr q else q)

/-- The `foreach` of `check_joinon_column_join` over a `FromExpr`'s list. -/
def checkJoinonColumnJoinList : List JoinNode → Except ErrorData (List JoinNode)
  | [] => .ok []
  | node :: rest => do
    let node ← checkJoinonColumnJoin node
    let rest ← checkJoinonColumnJoinList rest
    return node :: rest
end

/-- The two ADB lines `parse_analyze_for_gram` adds after `transformTopLevelStmt`. -/
def finishAnalyzeForGram (canonicalizeQual : Expr → Expr) (catalog : List PgOperator)
    (makeMinus : Expr → Expr → Option Expr) (query : Query) : Except ErrorData Query := do
  let jointree ← query.jointree.mapM checkJoinonColumnJoin
  return rewriteRownumQueryEnum (rewriteRownumQuery canonicalizeQual catalog makeMinus)
    { query with jointree }

/-- `parse_analyze_for_gram(parseTree, sourceText, paramTypes, numParams, grammar)`;
`post_parse_analyze_hook` is left out. -/
def parseAnalyzeForGram {σ : Type} (transformTopLevelStmt : ParseGrammar → σ → Except ErrorData Query)
    (canonicalizeQual : Expr → Expr) (catalog : List PgOperator)
    (makeMinus : Expr → Expr → Option Expr) (parseTree : σ) (grammar : ParseGrammar) :
    Except ErrorData Query :=
  transformTopLevelStmt grammar parseTree >>= finishAnalyzeForGram canonicalizeQual catalog makeMinus

/-- `parse_analyze_varparams_for_gram(parseTree, sourceText, &paramTypes, &numParams,
grammar)`: `check_variable_parameters` has nothing to check when there is no `$n`. -/
def parseAnalyzeVarparamsForGram {σ : Type}
    (transformTopLevelStmt : ParseGrammar → σ → Except ErrorData Query) (parseTree : σ)
    (grammar : ParseGrammar) : Except ErrorData Query :=
  transformTopLevelStmt grammar parseTree

/-- `parse_analyze(parseTree, sourceText, paramTypes, numParams)`: the PostgreSQL grammar. -/
def parseAnalyze {σ : Type} (transformTopLevelStmt : ParseGrammar → σ → Except ErrorData Query)
    (canonicalizeQual : Expr → Expr) (catalog : List PgOperator)
    (makeMinus : Expr → Expr → Option Expr) (parseTree : σ) : Except ErrorData Query :=
  parseAnalyzeForGram transformTopLevelStmt canonicalizeQual catalog makeMinus parseTree .postgres

/-- `parse_analyze_varparams(parseTree, sourceText, &paramTypes, &numParams)`: the PostgreSQL
grammar. -/
def parseAnalyzeVarparams {σ : Type}
    (transformTopLevelStmt : ParseGrammar → σ → Except ErrorData Query) (parseTree : σ) :
    Except ErrorData Query :=
  parseAnalyzeVarparamsForGram transformTopLevelStmt parseTree .postgres

/-! ## What the join-tree check leaves -/

mutual
/-- Whether a qualifier of the tree, an ON or a WHERE, holds a `(+)` marker. -/
def JoinNode.hasMarker : JoinNode → Bool
  | .rangeTblRef _ => false
  | .joinExpr _ larg rarg quals _ =>
    larg.hasMarker || rarg.hasMarker || quals.any haveOraColumnJoin
  | .fromExpr fromlist quals => joinNodeListHasMarker fromlist || quals.any haveOraColumnJoin

/-- Whether a qualifier of one of the trees holds a `(+)` marker. -/
def joinNodeListHasMarker : List JoinNode → Bool
  | [] => false
  | node :: rest => node.hasMarker || joinNodeListHasMarker rest
end

/-- A qualifier is marker-free once `check_joinon_column_join` has stripped it where it
has a marker. -/
theorem haveOraColumnJoin_stripped (q : Expr) :
    haveOraColumnJoin (if haveOraColumnJoin q then removeColumnJoinExpr q else q) = false := by
  by_cases hq : haveOraColumnJoin q
  · simp only [hq, if_true, haveOraColumnJoin_removeColumnJoinExpr]
  · simp [hq]

mutual
/-- The join tree `check_joinon_column_join` returns has no marker left. -/
theorem checkJoinonColumnJoin_hasMarker :
    ∀ {node node' : JoinNode}, checkJoinonColumnJoin node = .ok node' → node'.hasMarker = false
  | .rangeTblRef _, _, h => by cases h; rfl
  | .joinExpr jointype larg rarg quals rtindex, _, h => by
    obtain ⟨larg', hl, h⟩ := except_bind_eq_ok.mp h
    obtain ⟨rarg', hr, h⟩ := except_bind_eq_ok.mp h
    have hargs : larg'.hasMarker = false ∧ rarg'.hasMarker = false :=
      ⟨checkJoinonColumnJoin_hasMarker hl, checkJoinonColumnJoin_hasMarker hr⟩
    rcases quals with _ | q
    · cases h
      simp [JoinNode.hasMarker, hargs]
    · by_cases hq : haveOraColumnJoin q
      · simp only [hq, if_true] at h
        obtain ⟨_, -, h⟩ := except_bind_eq_ok.mp h
        split at h <;> cases h
        simp [JoinNode.hasMarker, hargs, haveOraColumnJoin_removeColumnJoinExpr]
      · simp only [hq] at h
        cases h
        simp [JoinNode.hasMarker, hargs, hq]
  | .fromExpr fromlist quals, _, h => by
    obtain ⟨fromlist', hf, h⟩ := except_bind_eq_ok.mp h
    cases h
    simp only [JoinNode.hasMarker, checkJoinonColumnJoinList_hasMarker hf, Bool.false_or]
    cases quals
    · rfl
    · exact haveOraColumnJoin_stripped _

/-- The join trees the `foreach` of `check_joinon_column_join` returns have no marker left. -/
theorem checkJoinonColumnJoinList_hasMarker :
    ∀ {nodes nodes' : List JoinNode},
      checkJoinonColumnJoinList nodes = .ok nodes' → joinNodeListHasMarker nodes' = false
  | [], _, h => by cases h; rfl
  | node :: rest, _, h => by
    obtain ⟨node', hn, h⟩ := except_bind_eq_ok.mp h
    obtain ⟨rest', hr, h⟩ := except_bind_eq_ok.mp h
    cases h
    simp [joinNodeListHasMarker, checkJoinonColumnJoin_hasMarker hn,
      checkJoinonColumnJoinList_hasMarker hr]
end

/-! ## The direction check -/

/-- Between two bare tables, one marked and one not, the check passes exactly when the
join preserves the unmarked table: a LEFT join with it on the left, or a RIGHT join with it
on the right. -/
theorem joinOnDirectionFails_tables_iff (jinfo : JoinExprInfo)
    (hLR : jinfo.lrtindex ≠ jinfo.rrtindex) (jointype : JoinType) {a b : Nat}
    (hab : (a = jinfo.lrtindex ∧ b = jinfo.rrtindex) ∨ (a = jinfo.rrtindex ∧ b = jinfo.lrtindex)) :
    joinOnDirectionFails jinfo jointype (.rangeTblRef a) (.rangeTblRef b) = false ↔
      (jointype = .left ∧ a = jinfo.lrtindex) ∨ (jointype = .right ∧ a = jinfo.rrtindex) := by
  rcases hab with ⟨rfl, rfl⟩ | ⟨rfl, rfl⟩ <;> cases jointype <;>
    simp [joinOnDirectionFails, hLR, Ne.symm hLR]

/-- An input that is not a bare `RangeTblRef` is never checked, whatever the join. -/
theorem joinOnDirectionFails_of_not_rangeTblRef (jinfo : JoinExprInfo) (jointype : JoinType)
    {larg rarg : JoinNode} (hl : ∀ r, larg ≠ .rangeTblRef r) (hr : ∀ r, rarg ≠ .rangeTblRef r) :
    joinOnDirectionFails jinfo jointype larg rarg = false := by
  cases larg <;> cases rarg <;> simp_all [joinOnDirectionFails]

/-- A join whose inputs pass the check, and whose ON has a marker, classifies and passes
the direction check, is accepted with its ON stripped. -/
theorem checkJoinonColumnJoin_joinExpr {jointype : JoinType} {larg rarg larg' rarg' : JoinNode}
    {q : Expr} {rtindex : Nat} {jinfo : JoinExprInfo}
    (hl : checkJoinonColumnJoin larg = .ok larg') (hr : checkJoinonColumnJoin rarg = .ok rarg')
    (hq : haveOraColumnJoin q = true) (hj : getOraColumnJoin q = .ok jinfo)
    (hpass : joinOnDirectionFails jinfo jointype larg' rarg' = false) :
    checkJoinonColumnJoin (.joinExpr jointype larg rarg (some q) rtindex) =
      .ok (.joinExpr jointype larg' rarg' (some (removeColumnJoinExpr q)) rtindex) := by
  simp [checkJoinonColumnJoin, hl, hr, hq, hj, hpass, bind, Except.bind, pure, Except.pure]

/-- Checking a join keeps it a join. -/
theorem checkJoinonColumnJoin_joinExpr_isJoin {jointype : JoinType} {larg rarg node' : JoinNode}
    {quals : Option Expr} {rtindex : Nat}
    (h : checkJoinonColumnJoin (.joinExpr jointype larg rarg quals rtindex) = .ok node') :
    ∀ r, node' ≠ .rangeTblRef r := by
  obtain ⟨larg', -, h⟩ := except_bind_eq_ok.mp h
  obtain ⟨rarg', -, h⟩ := except_bind_eq_ok.mp h
  rcases quals with _ | q
  · cases h
    intro r hr
    cases hr
  · dsimp only at h
    split at h
    · obtain ⟨_, -, h⟩ := except_bind_eq_ok.mp h
      split at h <;> cases h
      intro r hr
      cases hr
    · cases h
      intro r hr
      cases hr

/-- **The check skips joins of joins.** A join whose two inputs are themselves joins, and
whose ON holds a marker that classifies, is accepted with the marker stripped, whatever its
join type and whichever input holds the marked table. -/
theorem checkJoinonColumnJoin_joinOfJoins {jointype ltype rtype : JoinType}
    {ll lr rl rr larg' rarg' : JoinNode} {lquals rquals : Option Expr} {lrti rrti rtindex : Nat}
    {q : Expr} {jinfo : JoinExprInfo}
    (hl : checkJoinonColumnJoin (.joinExpr ltype ll lr lquals lrti) = .ok larg')
    (hr : checkJoinonColumnJoin (.joinExpr rtype rl rr rquals rrti) = .ok rarg')
    (hq : haveOraColumnJoin q = true) (hj : getOraColumnJoin q = .ok jinfo) :
    checkJoinonColumnJoin (.joinExpr jointype (.joinExpr ltype ll lr lquals lrti)
        (.joinExpr rtype rl rr rquals rrti) (some q) rtindex) =
      .ok (.joinExpr jointype larg' rarg' (some (removeColumnJoinExpr q)) rtindex) :=
  checkJoinonColumnJoin_joinExpr hl hr hq hj (joinOnDirectionFails_of_not_rangeTblRef _ _
    (checkJoinonColumnJoin_joinExpr_isJoin hl) (checkJoinonColumnJoin_joinExpr_isJoin hr))

/-! ## The two entry points -/

/-- The ROWNUM rewrite leaves the range table as it is. -/
theorem rewriteRownumQuery_rtable (canonicalizeQual : Expr → Expr) (catalog : List PgOperator)
    (makeMinus : Expr → Expr → Option Expr) (query : Query) :
    (rewriteRownumQuery canonicalizeQual catalog makeMinus query).rtable = query.rtable := by
  unfold rewriteRownumQuery
  split
  · split
    · rfl
    · dsimp only
      split <;> rfl
  · rfl

/-- A rewrite that keeps the range table changes it, over the whole tree, only by
rewriting its sub-queries. -/
theorem rewriteRownumQueryEnum_rtable {rewrite : Query → Query}
    (hrewrite : ∀ query, (rewrite query).rtable = query.rtable) (query : Query) :
    (rewriteRownumQueryEnum rewrite query).rtable = rewriteRownumRtable rewrite query.rtable := by
  cases query
  simp only [rewriteRownumQueryEnum, hrewrite]

/-- The queries of the range table `parse_analyze_for_gram` returns went through the
ROWNUM rewrite and nothing else: `check_joinon_column_join` never reaches them. -/
theorem parseAnalyzeForGram_rtable {σ : Type}
    {transformTopLevelStmt : ParseGrammar → σ → Except ErrorData Query}
    {canonicalizeQual : Expr → Expr} {catalog : List PgOperator}
    {makeMinus : Expr → Expr → Option Expr} {parseTree : σ} {grammar : ParseGrammar}
    {query query' : Query} (htransform : transformTopLevelStmt grammar parseTree = .ok query)
    (h : parseAnalyzeForGram transformTopLevelStmt canonicalizeQual catalog makeMinus parseTree
      grammar = .ok query') :
    query'.rtable = rewriteRownumRtable (rewriteRownumQuery canonicalizeQual catalog makeMinus)
      query.rtable := by
  rw [parseAnalyzeForGram, htransform] at h
  replace h : finishAnalyzeForGram canonicalizeQual catalog makeMinus query = .ok query' := h
  unfold finishAnalyzeForGram at h
  obtain ⟨jointree, -, h⟩ := except_bind_eq_ok.mp h
  cases h
  exact rewriteRownumQueryEnum_rtable (rewriteRownumQuery_rtable canonicalizeQual catalog makeMinus) _

/-- The two entry points agree on a statement exactly when the two ADB rewrites leave
the query `transformTopLevelStmt` builds for it as it is. -/
theorem parseAnalyzeForGram_eq_varparams_iff {σ : Type}
    (transformTopLevelStmt : ParseGrammar → σ → Except ErrorData Query)
    (canonicalizeQual : Expr → Expr) (catalog : List PgOperator)
    (makeMinus : Expr → Expr → Option Expr) (parseTree : σ) (grammar : ParseGrammar) :
    parseAnalyzeForGram transformTopLevelStmt canonicalizeQual catalog makeMinus parseTree grammar =
        parseAnalyzeVarparamsForGram transformTopLevelStmt parseTree grammar ↔
      ∀ query, transformTopLevelStmt grammar parseTree = .ok query →
        finishAnalyzeForGram canonicalizeQual catalog makeMinus query = .ok query := by
  unfold parseAnalyzeForGram parseAnalyzeVarparamsForGram
  cases transformTopLevelStmt grammar parseTree <;> simp [bind, Except.bind]

/-! ## Statements the two entry points treat differently -/

/-- `SELECT x FROM t WHERE rownum <= 10`, as `transformTopLevelStmt` returns it for the
Oracle grammar. -/
def rownumLimitQuery : Query :=
  { makeQuery with
    rtable := [relationT]
    jointree := some (.fromExpr [.rangeTblRef 1]
      (some (.opExpr 420 478 [.rownumExpr, .const int4Oid 10 false])))
    targetList := [⟨.var { varno := 1, varattno := 1, vartype := int4Oid }, 1, some "x", false⟩] }

/-- `SELECT t1.a FROM t1 RIGHT JOIN t2 ON t1.a = t2.a(+)`, as `transformTopLevelStmt`
returns it: the marker makes `t2` the nullable side, against the RIGHT JOIN. -/
def misdirectedJoinQuery : Query :=
  { makeQuery with
    rtable := leftJoinFrom.p_rtable
    jointree := some (.fromExpr [.joinExpr .right (.rangeTblRef 1) (.rangeTblRef 2)
      (some (int4Eq (.var { varno := 1, varattno := 1 })
        (.columnRefJoin { varno := 2, varattno := 1 } 40))) 3] none)
    targetList := [⟨.var { varno := 1, varattno := 1 }, 1, some "a", false⟩] }

/-- Through `parse_analyze_for_gram`, an Oracle `SELECT x FROM t WHERE rownum <= 10` gets a
`limitCount` and loses its WHERE; through `parse_analyze_varparams_for_gram` it keeps the
`ROWNUM` conjunct and has no limit. A misdirected marker in an ON fails the first and
passes the second. -/
theorem parseAnalyze_entry_points_differ :
    (parseAnalyzeForGram (fun _ (_ : Unit) => .ok rownumLimitQuery) id builtinOperators
        int8Minus () .oracle).toOption.map
        (fun query => (query.limitCount.isSome, query.jointree.any (·.hasMarker))) =
      some (true, false) ∧
    parseAnalyzeVarparamsForGram (fun _ (_ : Unit) => .ok rownumLimitQuery) () .oracle =
      .ok rownumLimitQuery ∧ rownumLimitQuery.limitCount = none ∧
    parseAnalyzeForGram (fun _ (_ : Unit) => .ok misdirectedJoinQuery) id builtinOperators
        int8Minus () .oracle = .error joinOnDirectionError ∧
    parseAnalyzeVarparamsForGram (fun _ (_ : Unit) => .ok misdirectedJoinQuery) () .oracle =
      .ok misdirectedJoinQuery :=
  ⟨by decide, rfl, rfl, rfl, rfl⟩

/-- `SELECT t1.a FROM t1 LEFT JOIN t2 ON t1.a = t2.a(+)`, as `transformTopLevelStmt`
returns it: no WHERE, so `transformFromAndWhere` has nothing to do, and the ON keeps its
marker. -/
def markedJoinQuery : Query :=
  { misdirectedJoinQuery with
    jointree := some (.fromExpr [.joinExpr .left (.rangeTblRef 1) (.rangeTblRef 2)
      (some (int4Eq (.var { varno := 1, varattno := 1 })
        (.columnRefJoin { varno := 2, varattno := 1 } 40))) 3] none) }

/-- `SELECT * FROM (SELECT t1.a FROM t1 LEFT JOIN t2 ON t1.a = t2.a(+)) s`, as
`transformTopLevelStmt` returns it. -/
def markedSubqueryQuery : Query :=
  { makeQuery with
    rtable := [⟨.subquery, 0, false, some markedJoinQuery, "s", ["a"], 0, .inner, []⟩]
    jointree := some (.fromExpr [.rangeTblRef 1] none)
    targetList := [⟨.var { varno := 1, varattno := 1 }, 1, some "a", false⟩] }

/-- The marker of a join's ON is stripped when the join is in the top-level query, and
stays when the same query is a FROM sub-query. -/
theorem parseAnalyzeForGram_keeps_subquery_marker :
    (parseAnalyzeForGram (fun _ (_ : Unit) => .ok markedJoinQuery) id builtinOperators
        int8Minus () .oracle).toOption.map (·.jointree.any (·.hasMarker)) = some false ∧
    (parseAnalyzeForGram (fun _ (_ : Unit) => .ok markedSubqueryQuery) id builtinOperators
        int8Minus () .oracle).toOption.map
        (·.rtable.any (·.subquery.any (·.jointree.any (·.hasMarker)))) = some true := by
  decide

/-- `SELECT t1.a FROM (t1 JOIN t3 ON t1.b = t3.b) LEFT JOIN (t2 JOIN t4 ON t2.b = t4.b)
ON t2.a = t1.a(+)`, as `transformTopLevelStmt` returns it: the marker makes `t1`, in the
left input, the nullable side, against the LEFT JOIN. Entries 5, 6 and 7 are the joins. -/
def joinOfJoinsQuery : Query :=
  { makeQuery with
    rtable := (relationsFrom 4).p_rtable ++
      [⟨.join, 0, false, none, "unnamed_join", ["a", "b", "a", "b"], 0, .inner,
        [.var { varno := 1, varattno := 1 }, .var { varno := 1, varattno := 2 },
         .var { varno := 3, varattno := 1 }, .var { varno := 3, varattno := 2 }]⟩,
       ⟨.join, 0, false, none, "unnamed_join", ["a", "b", "a", "b"], 0, .inner,
        [.var { varno := 2, varattno := 1 }, .var { varno := 2, varattno := 2 },
         .var { varno := 4, varattno := 1 }, .var { varno := 4, varattno := 2 }]⟩,
       ⟨.join, 0, false, none, "unnamed_join", ["a", "b", "a", "b", "a", "b", "a", "b"], 0, .left,
        [.var { varno := 5, varattno := 1 }, .var { varno := 5, varattno := 2 },
         .var { varno := 5, varattno := 3 }, .var { varno := 5, varattno := 4 },
         .var { varno := 6, varattno := 1 }, .var { varno := 6, varattno := 2 },
         .var { varno := 6, varattno := 3 }, .var { varno := 6, varattno := 4 }]⟩]
    jointree := some (.fromExpr [.joinExpr .left
      (.joinExpr .inner (.rangeTblRef 1) (.rangeTblRef 3)
        (some (int4Eq (.var { varno := 1, varattno := 2 }) (.var { varno := 3, varattno := 2 }))) 5)
      (.joinExpr .inner (.rangeTblRef 2) (.rangeTblRef 4)
        (some (int4Eq (.var { varno := 2, varattno := 2 }) (.var { varno := 4, varattno := 2 }))) 6)
      (some (int4Eq (.var { varno := 2, varattno := 1 })
        (.columnRefJoin { varno := 1, varattno := 1 } 40))) 7] none)
    targetList := [⟨.var { varno := 1, varattno := 1 }, 1, some "a", false⟩] }

/-- `SELECT t1.a FROM t1 LEFT JOIN t2 ON t2.a = t1.a(+)`: the same misdirected marker
between two bare tables. -/
def reversedMarkerJoinQuery : Query :=
  { misdirectedJoinQuery with
    jointree := some (.fromExpr [.joinExpr .left (.rangeTblRef 1) (.rangeTblRef 2)
      (some (int4Eq (.var { varno := 2, varattno := 1 })
        (.columnRefJoin { varno := 1, varattno := 1 } 40))) 3] none) }

/-- A marker against the direction of a LEFT JOIN fails between two bare tables, and is
accepted between two joins: the marker is dropped and the join still preserves `t1`. -/
theorem parseAnalyzeForGram_joinOfJoins_direction :
    (parseAnalyzeForGram (fun _ (_ : Unit) => .ok joinOfJoinsQuery) id builtinOperators
        int8Minus () .oracle).toOption.map (·.jointree) =
      some (some (.fromExpr [.joinExpr .left
        (.joinExpr .inner (.rangeTblRef 1) (.rangeTblRef 3)
          (some (int4Eq (.var { varno := 1, varattno := 2 }) (.var { varno := 3, varattno := 2 })))
          5)
        (.joinExpr .inner (.rangeTblRef 2) (.rangeTblRef 4)
          (some (int4Eq (.var { varno := 2, varattno := 2 }) (.var { varno := 4, varattno := 2 })))
          6)
        (some (int4Eq (.var { varno := 2, varattno := 1 }) (.var { varno := 1, varattno := 1 })))
        7] none)) ∧
    parseAnalyzeForGram (fun _ (_ : Unit) => .ok reversedMarkerJoinQuery) id builtinOperators
        int8Minus () .oracle = .error joinOnDirectionError :=
  ⟨rfl, rfl⟩

/-! ## What the join-tree check keeps: the rows -/

mutual
/-- Stripping the markers neither adds nor removes a ROWNUM. -/
theorem containRownum_removeColumnJoinExpr :
    ∀ e : Expr, containRownum (removeColumnJoinExpr e) = containRownum e
  | .columnRefJoin _ _ | .var _ | .const _ _ _ | .rownumExpr | .setToDefault _ _ _ => rfl
  | .opExpr _ _ args | .funcExpr _ args | .boolExpr _ args => by
    simp only [removeColumnJoinExpr, containRownum, containRownumList_removeColumnJoinExprList args]

/-- Stripping the markers of an argument list neither adds nor removes a ROWNUM. -/
theorem containRownumList_removeColumnJoinExprList :
    ∀ es : List Expr, containRownumList (removeColumnJoinExprList es) = containRownumList es
  | [] => rfl
  | e :: es => by
    simp only [removeColumnJoinExprList, containRownumList, containRownum_removeColumnJoinExpr e,
      containRownumList_removeColumnJoinExprList es]
end

/-- A qualifier with its markers stripped accepts the rows it accepted. -/
theorem qualHolds_map_removeColumnJoinExpr (sem : ExprSem) (rownum : Int) (quals : Option Expr) :
    qualHolds sem rownum (quals.map removeColumnJoinExpr) = qualHolds sem rownum quals := by
  funext row
  cases quals <;> simp [qualHolds]

theorem qualHolds_removeColumnJoinExpr (sem : ExprSem) (rownum : Int) (q : Expr) :
    qualHolds sem rownum (some (removeColumnJoinExpr q)) = qualHolds sem rownum (some q) :=
  qualHolds_map_removeColumnJoinExpr sem rownum (some q)

/-- The WHERE `check_joinon_column_join` strips where it has a marker accepts the rows it
accepted. -/
theorem qualHolds_stripped (sem : ExprSem) (rownum : Int) (quals : Option Expr) :
    qualHolds sem rownum
        (quals.map fun q => if haveOraColumnJoin q then removeColumnJoinExpr q else q) =
      qualHolds sem rownum quals := by
  cases quals with
  | none => rfl
  | some q =>
    by_cases hq : haveOraColumnJoin q
    · simp only [Option.map_some', hq, if_true, qualHolds_removeColumnJoinExpr]
    · simp [hq]

mutual
/-- **`check_joinon_column_join` keeps the rows of a FROM tree**: it only strips markers,
which the rows never read. -/
theorem checkJoinonColumnJoin_eval (sem : ExprSem) (db : Database) :
    ∀ {node node' : JoinNode}, checkJoinonColumnJoin node = .ok node' →
      node'.eval sem db = node.eval sem db
  | .rangeTblRef _, _, h => by cases h; rfl
  | .joinExpr jointype larg rarg quals rtindex, _, h => by
    obtain ⟨larg', hl, h⟩ := except_bind_eq_ok.mp h
    obtain ⟨rarg', hr, h⟩ := except_bind_eq_ok.mp h
    have hargs := And.intro (checkJoinonColumnJoin_eval sem db hl) (checkJoinonColumnJoin_eval sem db hr)
    rcases quals with _ | q
    · cases h
      simp only [JoinNode.eval, hargs]
    · by_cases hq : haveOraColumnJoin q
      · simp only [hq, if_true] at h
        obtain ⟨_, -, h⟩ := except_bind_eq_ok.mp h
        split at h <;> cases h
        simp only [JoinNode.eval, hargs, joinRows, qualHolds_removeColumnJoinExpr]
      · simp only [hq] at h
        cases h
        simp only [JoinNode.eval, hargs]
  | .fromExpr fromlist quals, _, h => by
    obtain ⟨fromlist', hf, h⟩ := except_bind_eq_ok.mp h
    cases h
    simp only [JoinNode.eval, checkJoinonColumnJoinList_crossRows sem db hf, qualHolds_stripped]

/-- The `foreach` of `check_joinon_column_join` keeps the cross product of a FROM list. -/
theorem checkJoinonColumnJoinList_crossRows (sem : ExprSem) (db : Database) :
    ∀ {nodes nodes' : List JoinNode}, checkJoinonColumnJoinList nodes = .ok nodes' →
      crossRows sem db nodes' = crossRows sem db nodes
  | [], _, h => by cases h; rfl
  | node :: rest, _, h => by
    obtain ⟨node', hn, h⟩ := except_bind_eq_ok.mp h
    obtain ⟨rest', hr, h⟩ := except_bind_eq_ok.mp h
    cases h
    simp only [crossRows, checkJoinonColumnJoin_eval sem db hn,
      checkJoinonColumnJoinList_crossRows sem db hr]
end

/-- The ROWNUM rewrite leaves alone a query whose WHERE does not mention ROWNUM. -/
theorem rewriteRownumQuery_of_all (canonicalizeQual : Expr → Expr) (catalog : List PgOperator)
    (makeMinus : Expr → Expr → Option Expr) {query : Query} {fromlist : List JoinNode}
    {quals : Option Expr} (hjoin : query.jointree = some (.fromExpr fromlist quals))
    (hrownum : quals.all (!containRownum ·)) :
    rewriteRownumQuery canonicalizeQual catalog makeMinus query = query := by
  unfold rewriteRownumQuery
  split
  · next q hq =>
    rw [hjoin] at hq
    cases hq
    simp only [Option.all_some, Bool.not_eq_true'] at hrownum
    simp [hrownum]
  · rfl

/-- **What `parse_analyze_for_gram` makes of a join tree without ROWNUM**: the rows of its
FROM list that its WHERE accepts, markers read as the columns they wrap. -/
theorem finishAnalyzeForGram_rows {canonicalizeQual : Expr → Expr} {catalog : List PgOperator}
    {makeMinus : Expr → Expr → Option Expr} {query query' : Query}
    (h : finishAnalyzeForGram canonicalizeQual catalog makeMinus query = .ok query')
    {fromlist : List JoinNode} {quals : Option Expr}
    (hjoin : query.jointree = some (.fromExpr fromlist quals))
    (hrownum : quals.all (!containRownum ·)) (sem : ExprSem) (db : Database) :
    query'.jointree.map (JoinNode.eval sem db) =
      some (selectRows sem db fromlist (quals.map removeColumnJoinExpr)) := by
  unfold finishAnalyzeForGram at h
  rw [hjoin] at h
  obtain ⟨jointree, hcheck, h⟩ := except_bind_eq_ok.mp h
  obtain ⟨node', hnode, rfl⟩ := except_map_eq_ok.mp hcheck
  have hrows := checkJoinonColumnJoin_eval sem db hnode
  obtain ⟨fromlist', -, hn⟩ := except_bind_eq_ok.mp hnode
  cases hn
  cases h
  have hrownum' : (quals.map fun q => if haveOraColumnJoin q then removeColumnJoinExpr q else q).all
      (!containRownum ·) := by
    cases quals with
    | none => rfl
    | some q => by_cases hq : haveOraColumnJoin q <;> simpa [hq, containRownum_removeColumnJoinExpr] using hrownum
  simp only [rewriteRownumQueryEnum]
  rw [rewriteRownumQuery_of_all canonicalizeQual catalog makeMinus rfl hrownum', Option.map_some',
    hrows]
  simp only [JoinNode.eval, selectRows, qualHolds_map_removeColumnJoinExpr]

/-- **The two entry points agree on the rows of the top-level FROM tree** when its WHERE
does not mention ROWNUM, though the first strips the markers the second keeps:
`check_joinon_column_join` only strips, and `rewrite_rownum_query` has nothing to rewrite at
the top. Rows are compared per range-table entry: `JoinNode.eval` reads the rows of a
sub-query entry from `db`, so the ROWNUM rewrite `parse_analyze_for_gram` also makes inside
a FROM sub-query is outside the comparison. -/
theorem parseAnalyzeForGram_rows_eq_varparams {σ : Type}
    (transformTopLevelStmt : ParseGrammar → σ → Except ErrorData Query)
    (canonicalizeQual : Expr → Expr) (catalog : List PgOperator)
    (makeMinus : Expr → Expr → Option Expr) (parseTree : σ) (grammar : ParseGrammar)
    {query query' : Query}
    (h : parseAnalyzeForGram transformTopLevelStmt canonicalizeQual catalog makeMinus parseTree
      grammar = .ok query)
    (hv : parseAnalyzeVarparamsForGram transformTopLevelStmt parseTree grammar = .ok query')
    {fromlist : List JoinNode} {quals : Option Expr}
    (hjoin : query'.jointree = some (.fromExpr fromlist quals))
    (hrownum : quals.all (!containRownum ·)) (sem : ExprSem) (db : Database) :
    query.jointree.map (JoinNode.eval sem db) = query'.jointree.map (JoinNode.eval sem db) := by
  obtain ⟨_, htop, hfin⟩ := except_bind_eq_ok.mp h
  rw [parseAnalyzeVarparamsForGram, htop] at hv
  cases hv
  rw [finishAnalyzeForGram_rows hfin hjoin hrownum sem db, hjoin]
  simp only [Option.map_some', JoinNode.eval, selectRows, qualHolds_map_removeColumnJoinExpr]

/-- `SELECT t1.a FROM t1 LEFT JOIN t2 ON t1.a = t2.a(+)`: through `parse_analyze_for_gram` the
ON loses its marker, and joins the same rows. -/
theorem parseAnalyzeForGram_rows_eq_varparams_marked_join :
    ∃ query, parseAnalyzeForGram (fun _ (_ : Unit) => .ok markedJoinQuery) id builtinOperators
        int8Minus () .oracle = .ok query ∧
      query.jointree.any (·.hasMarker) = false ∧ markedJoinQuery.jointree.any (·.hasMarker) = true ∧
      ∀ sem db, query.jointree.map (JoinNode.eval sem db) =
        markedJoinQuery.jointree.map (JoinNode.eval sem db) := by
  refine ⟨_, rfl, by decide, by decide, fun sem db => ?_⟩
  exact parseAnalyzeForGram_rows_eq_varparams (fun _ _ => .ok markedJoinQuery) id builtinOperators
    int8Minus () .oracle (by rfl) rfl rfl rfl sem db

end AntdbAnalyze
