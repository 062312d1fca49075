import AntdbAnalyze.ParseAnalyze
import AntdbAnalyze.OuterJoin.NewJoins

/-!
# The two Oracle rewrites settle in one run (analyze.c:166-169, 3311-3900)

After `transformTopLevelStmt`, `parse_analyze_for_gram` runs `check_joinon_column_join` on
the top-level join tree and `rewrite_rownum_query_enum` on every query of the result. Run
again on the query they returned, the two accept it and change nothing.

- `checkJoinonColumnJoin_of_hasMarker`: a join tree without markers passes the check as it
  is; the check leaves none (`checkJoinonColumnJoin_hasMarker`);
- `rewriteRownumQuery_cases`: what the ROWNUM rewrite returns: the query as it was, a query
  with a limit, a query whose WHERE has no ROWNUM, or the query with the WHERE
  `canonicalize_qual` made of it, on which the loop gave up; each is a fixed point
  (`rewriteRownumQuery_idem`) when `canonicalize_qual` is idempotent;
- `rewriteRownumQueryEnum_idem`: the walk over the nested queries settles in one run with any
  rewrite that does and that keeps the range table and the wrapped query;
- **`finishAnalyzeForGram_idem`**: the two rewrites together, when `canonicalize_qual` is
  idempotent and makes no marker.
-/

namespace AntdbAnalyze

/-! ## The join-tree check -/

mutual
/-- `check_joinon_column_join` accepts a join tree without markers and returns it as it is. -/
theorem checkJoinonColumnJoin_of_hasMarker :
    ∀ {node : JoinNode}, node.hasMarker = false → checkJoinonColumnJoin node = .ok node
  | .rangeTblRef _, _ => rfl
  | .joinExpr jointype larg rarg quals rtindex, h => by
    simp only [JoinNode.hasMarker, Bool.or_eq_false_iff] at h
    obtain ⟨⟨hl, hr⟩, hq⟩ := h
    simp only [checkJoinonColumnJoin, checkJoinonColumnJoin_of_hasMarker hl,
      checkJoinonColumnJoin_of_hasMarker hr, ok_bind_eq]
    cases quals with
    | none => rfl
    | some q =>
      simp only [Option.any_some] at hq
      simp only [hq]
      rfl
  | .fromExpr fromlist quals, h => by
    simp only [JoinNode.hasMarker, Bool.or_eq_false_iff] at h
    simp only [checkJoinonColumnJoin, checkJoinonColumnJoinList_of_hasMarker h.1, ok_bind_eq]
    cases quals with
    | none => rfl
    | some q =>
      simp only [Option.any_some] at h
      simp only [Option.map_some', h.2]
      rfl

/-- The `foreach` of `check_joinon_column_join` returns a list without markers as it is. -/
theorem checkJoinonColumnJoinList_of_hasMarker :
    ∀ {nodes : List JoinNode}, joinNodeListHasMarker nodes = false →
      checkJoinonColumnJoinList nodes = .ok nodes
  | [], _ => rfl
  | node :: rest, h => by
    simp only [joinNodeListHasMarker, Bool.or_eq_false_iff] at h
    simp only [checkJoinonColumnJoinList, checkJoinonColumnJoin_of_hasMarker h.1,
      checkJoinonColumnJoinList_of_hasMarker h.2, ok_bind_eq]
    rfl
end

/-! ## The ROWNUM rewrite of one query -/

section Rownum

variable (canonicalizeQual : Expr → Expr) (catalog : List PgOperator)
  (makeMinus : Expr → Expr → Option Expr)

/-- The loop keeps, after the conjuncts it was given, those without ROWNUM. -/
theorem rewriteRownumLoop_kept (conjuncts : List Expr) :
    ∀ {limitCount₀ limitCount : Option Expr} {kept₀ kept : List Expr},
      rewriteRownumLoop catalog makeMinus limitCount₀ kept₀ conjuncts =
        .rewritten limitCount kept →
      kept = kept₀ ++ conjuncts.filter (!containRownum ·) := by
  induction conjuncts with
  | nil =>
    intro _ _ _ _ h
    cases h
    simp
  | cons e rest ih =>
    intro limitCount₀ _ kept₀ _ h
    unfold rewriteRownumLoop at h
    by_cases hc : containRownum e
    · rw [if_neg (by simp [hc])] at h
      have hskip : (e :: rest).filter (!containRownum ·) = rest.filter (!containRownum ·) := by
        simp [hc]
      rw [hskip]
      cases ha : rewriteRownumConjunct catalog makeMinus e with
      | noRows => rw [ha] at h; cases h
      | abandon => rw [ha] at h; cases h
      | hint => rw [ha] at h; exact ih h
      | limit count =>
        simp only [ha] at h
        split_ifs at h
        exact ih h
    · rw [if_pos (by simp [hc])] at h
      simp [ih h, hc]

theorem containRownumList_eq_false {es : List Expr} :
    containRownumList es = false ↔ ∀ e ∈ es, containRownum e = false := by
  induction es with
  | nil => simp [containRownumList]
  | cons e es ih => simp [containRownumList, ih]

/-- The WHERE the loop leaves of conjuncts without ROWNUM has none. -/
theorem keptQuals_rownumFree {es : List Expr} (h : ∀ e ∈ es, containRownum e = false) :
    (keptQuals es).all (!containRownum ·) = true := by
  unfold keptQuals
  split
  · rfl
  · simpa using h _ (List.mem_singleton_self _)
  · simpa [makeAndExpr, containRownum] using containRownumList_eq_false.mpr h

/-- The rewrite leaves alone a query that already has a limit. -/
theorem rewriteRownumQuery_of_limitCount {query : Query} (h : query.limitCount.isSome) :
    rewriteRownumQuery canonicalizeQual catalog makeMinus query = query := by
  unfold rewriteRownumQuery
  split
  · simp [h]
  · rfl

/-- **What the ROWNUM rewrite returns**: the query as it was; a query with a limit; a query
whose WHERE has no ROWNUM; or, where the loop gave up, the query with the WHERE
`canonicalize_qual` made of it. -/
theorem rewriteRownumQuery_cases (query : Query) :
    rewriteRownumQuery canonicalizeQual catalog makeMinus query = query ∨
    (rewriteRownumQuery canonicalizeQual catalog makeMinus query).limitCount.isSome ∨
    (∃ fromlist quals,
      (rewriteRownumQuery canonicalizeQual catalog makeMinus query).jointree =
        some (.fromExpr fromlist quals) ∧ quals.all (!containRownum ·)) ∨
    ∃ fromlist quals, query.jointree = some (.fromExpr fromlist (some quals)) ∧
      query.limitOffset = none ∧ query.limitCount = none ∧
      rewriteRownumLoop catalog makeMinus none [] (canonicalizeQual quals).andArgs = .abandoned ∧
      rewriteRownumQuery canonicalizeQual catalog makeMinus query =
        { query with jointree := some (.fromExpr fromlist (some (canonicalizeQual quals))) } := by
  generalize hquery : rewriteRownumQuery canonicalizeQual catalog makeMinus query = query'
  unfold rewriteRownumQuery at hquery
  split at hquery
  · next fromlist quals hjoin =>
    split_ifs at hquery with hskip
    · exact .inl hquery.symm
    simp only [Bool.or_eq_true, not_or, Option.not_isSome_iff_eq_none, Bool.not_eq_true',
      Bool.not_eq_false'] at hskip
    obtain ⟨⟨hoff, hcount⟩, -⟩ := hskip
    dsimp only at hquery
    split at hquery
    · next hloop =>
      exact .inr (.inr (.inr ⟨fromlist, quals, hjoin, hoff, hcount, hloop, hquery.symm⟩))
    · exact .inr (.inl (by rw [← hquery]; rfl))
    · next limitCount kept hloop =>
      refine .inr (.inr (.inl
        ⟨fromlist, keptQuals kept, by rw [← hquery], keptQuals_rownumFree ?_⟩))
      rw [rewriteRownumLoop_kept catalog makeMinus _ hloop]
      simp
  · exact .inl hquery.symm

/-- **The ROWNUM rewrite settles in one run** when `canonicalize_qual` is idempotent. -/
theorem rewriteRownumQuery_idem
    (hcanon : ∀ e, canonicalizeQual (canonicalizeQual e) = canonicalizeQual e) (query : Query) :
    rewriteRownumQuery canonicalizeQual catalog makeMinus
        (rewriteRownumQuery canonicalizeQual catalog makeMinus query) =
      rewriteRownumQuery canonicalizeQual catalog makeMinus query := by
  rcases rewriteRownumQuery_cases canonicalizeQual catalog makeMinus query with
    h | h | ⟨fromlist, quals, hjoin, hrownum⟩ | ⟨fromlist, quals, -, hoff, hcount, hloop, h⟩
  · rw [h, h]
  · exact rewriteRownumQuery_of_limitCount canonicalizeQual catalog makeMinus h
  · exact rewriteRownumQuery_of_all canonicalizeQual catalog makeMinus hjoin hrownum
  · rw [h]
    by_cases hr : containRownum (canonicalizeQual quals)
    · unfold rewriteRownumQuery
      simp [hoff, hcount, hr, hcanon, hloop]
    · exact rewriteRownumQuery_of_all canonicalizeQual catalog makeMinus rfl (by simpa using hr)

/-- The rewrite keeps the query a utility statement wraps. -/
theorem rewriteRownumQuery_utilityQuery (query : Query) :
    (rewriteRownumQuery canonicalizeQual catalog makeMinus query).utilityQuery =
      query.utilityQuery := by
  unfold rewriteRownumQuery
  split
  · split
    · rfl
    · dsimp only
      split <;> rfl
  · rfl

/-- The conjuncts of a qualifier without markers have none. -/
theorem haveOraColumnJoin_andArgs {e : Expr} (h : haveOraColumnJoin e = false) :
    ∀ a ∈ e.andArgs, haveOraColumnJoin a = false := by
  unfold Expr.andArgs
  split
  · simpa [haveOraColumnJoin, haveOraColumnJoinList_eq_false] using h
  · simpa using h

/-- The ROWNUM rewrite puts no marker in a join tree, when `canonicalize_qual` puts none in
a WHERE. -/
theorem rewriteRownumQuery_hasMarker
    (hmark : ∀ e, haveOraColumnJoin e = false → haveOraColumnJoin (canonicalizeQual e) = false)
    {query : Query} (h : query.jointree.any (·.hasMarker) = false) :
    (rewriteRownumQuery canonicalizeQual catalog makeMinus query).jointree.any (·.hasMarker) =
      false := by
  unfold rewriteRownumQuery
  split
  · next fromlist quals hjoin =>
    rw [hjoin] at h
    simp only [Option.any_some, JoinNode.hasMarker, Bool.or_eq_false_iff] at h
    split_ifs
    · rw [hjoin]
      simp [JoinNode.hasMarker, h]
    dsimp only
    split
    · simp [JoinNode.hasMarker, h.1, hmark _ h.2]
    · simp [JoinNode.hasMarker, h.1, hmark _ h.2]
    · next limitCount kept hloop =>
      have hkept : ∀ e ∈ kept, haveOraColumnJoin e = false := by
        rw [rewriteRownumLoop_kept catalog makeMinus _ hloop]
        intro e he
        simp only [List.nil_append, List.mem_filter] at he
        exact haveOraColumnJoin_andArgs (hmark _ h.2) e he.1
      have hall := keptQuals_markerFree hkept
      simp only [Option.any_some, JoinNode.hasMarker, h.1, Bool.false_or]
      generalize keptQuals kept = quals at hall
      cases quals with
      | none => rfl
      | some q => simpa using hall
  · exact h

end Rownum

/-! ## The walk over the nested queries -/

section Enum

variable {rewrite : Query → Query}

/-- `rewrite_rownum_query_enum` rewrites the query after the queries nested in it. -/
theorem rewriteRownumQueryEnum_eq (query : Query) :
    rewriteRownumQueryEnum rewrite query =
      rewrite { query with
        utilityQuery := rewriteRownumQueryOpt rewrite query.utilityQuery
        rtable := rewriteRownumRtable rewrite query.rtable } := by
  cases query
  rfl

/-- Setting the wrapped query and the range table to what they are changes nothing. -/
theorem Query.update_utilityQuery_rtable {query : Query} {utilityQuery : Option Query}
    {rtable : List (RangeTblEntryOf Query)} (hu : query.utilityQuery = utilityQuery)
    (hr : query.rtable = rtable) :
    { query with utilityQuery, rtable } = query := by
  cases query
  subst hu hr
  rfl

/-- What the walk needs of the rewrite it runs at each query: that it settles in one run,
and keeps the range table and the wrapped query, which the walk has rewritten before. -/
structure SettlesInOneRun (rewrite : Query → Query) : Prop where
  idem : ∀ query, rewrite (rewrite query) = rewrite query
  rtable : ∀ query, (rewrite query).rtable = query.rtable
  utilityQuery : ∀ query, (rewrite query).utilityQuery = query.utilityQuery

/-- One level of the walk settles in one run when the levels below it do. -/
theorem rewriteRownumQueryEnum_idem_of (hrewrite : SettlesInOneRun rewrite) (query : Query)
    (hopt : rewriteRownumQueryOpt rewrite (rewriteRownumQueryOpt rewrite query.utilityQuery) =
      rewriteRownumQueryOpt rewrite query.utilityQuery)
    (hrt : rewriteRownumRtable rewrite (rewriteRownumRtable rewrite query.rtable) =
      rewriteRownumRtable rewrite query.rtable) :
    rewriteRownumQueryEnum rewrite (rewriteRownumQueryEnum rewrite query) =
      rewriteRownumQueryEnum rewrite query := by
  have hu := hrewrite.utilityQuery { query with
    utilityQuery := rewriteRownumQueryOpt rewrite query.utilityQuery
    rtable := rewriteRownumRtable rewrite query.rtable }
  have hr := hrewrite.rtable { query with
    utilityQuery := rewriteRownumQueryOpt rewrite query.utilityQuery
    rtable := rewriteRownumRtable rewrite query.rtable }
  rw [rewriteRownumQueryEnum_eq query, rewriteRownumQueryEnum_eq, hu, hr]
  dsimp only at hu hr ⊢
  rw [hopt, hrt, Query.update_utilityQuery_rtable hu hr, hrewrite.idem]

mutual
/-- **The walk settles in one run**, at every query of the tree. -/
theorem rewriteRownumQueryEnum_idem (hrewrite : SettlesInOneRun rewrite) :
    ∀ query : Query, rewriteRownumQueryEnum rewrite (rewriteRownumQueryEnum rewrite query) =
      rewriteRownumQueryEnum rewrite query
  | ⟨_, utilityQuery, rtable, _, _, _, _, _, _, _, _, _, _, _, _, _⟩ =>
    rewriteRownumQueryEnum_idem_of hrewrite _ (rewriteRownumQueryOpt_idem hrewrite utilityQuery)
      (rewriteRownumRtable_idem hrewrite rtable)

theorem rewriteRownumQueryOpt_idem (hrewrite : SettlesInOneRun rewrite) :
    ∀ query : Option Query, rewriteRownumQueryOpt rewrite (rewriteRownumQueryOpt rewrite query) =
      rewriteRownumQueryOpt rewrite query
  | none => rfl
  | some query => by
    simp only [rewriteRownumQueryOpt, rewriteRownumQueryEnum_idem hrewrite query]

theorem rewriteRownumRtable_idem (hrewrite : SettlesInOneRun rewrite) :
    ∀ rtable : List (RangeTblEntryOf Query),
      rewriteRownumRtable rewrite (rewriteRownumRtable rewrite rtable) =
        rewriteRownumRtable rewrite rtable
  | [] => rfl
  | rte :: rest => by
    simp only [rewriteRownumRtable, rewriteRownumRte_idem hrewrite rte,
      rewriteRownumRtable_idem hrewrite rest]

theorem rewriteRownumRte_idem (hrewrite : SettlesInOneRun rewrite) :
    ∀ rte : RangeTblEntryOf Query,
      rewriteRownumRte rewrite (rewriteRownumRte rewrite rte) = rewriteRownumRte rewrite rte
  | ⟨_, _, _, subquery, _, _, _, _, _⟩ => by
    simp only [rewriteRownumRte, rewriteRownumQueryOpt_idem hrewrite subquery]
end

/-- The walk rewrites a query whatever its join tree was set to, as long as it is the same. -/
theorem rewriteRownumQueryEnum_update_jointree (query : Query) :
    rewriteRownumQueryEnum rewrite { query with jointree := query.jointree } =
      rewriteRownumQueryEnum rewrite query := by
  rw [rewriteRownumQueryEnum_eq, rewriteRownumQueryEnum_eq]

end Enum

/-! ## The two rewrites together -/

/-- The ROWNUM rewrite is one the walk settles with, when `canonicalize_qual` is idempotent. -/
theorem rewriteRownumQuery_settles (canonicalizeQual : Expr → Expr) (catalog : List PgOperator)
    (makeMinus : Expr → Expr → Option Expr)
    (hcanon : ∀ e, canonicalizeQual (canonicalizeQual e) = canonicalizeQual e) :
    SettlesInOneRun (rewriteRownumQuery canonicalizeQual catalog makeMinus) :=
  ⟨rewriteRownumQuery_idem canonicalizeQual catalog makeMinus hcanon,
    rewriteRownumQuery_rtable canonicalizeQual catalog makeMinus,
    rewriteRownumQuery_utilityQuery canonicalizeQual catalog makeMinus⟩

/-- The join tree, if there is one, that the check returns has no marker. -/
theorem mapM_checkJoinonColumnJoin_hasMarker {jointree jointree' : Option JoinNode}
    (h : jointree.mapM checkJoinonColumnJoin = .ok jointree') :
    jointree'.any (·.hasMarker) = false := by
  cases jointree with
  | none => cases h; rfl
  | some node =>
    obtain ⟨node', hnode, rfl⟩ := except_map_eq_ok.mp h
    exact checkJoinonColumnJoin_hasMarker hnode

/-- The check accepts a join tree without markers, if there is one, as it is. -/
theorem mapM_checkJoinonColumnJoin_of_hasMarker {jointree : Option JoinNode}
    (h : jointree.any (·.hasMarker) = false) : jointree.mapM checkJoinonColumnJoin = .ok jointree := by
  cases jointree with
  | none => rfl
  | some node =>
    simp only [Option.any_some] at h
    show some <$> checkJoinonColumnJoin node = _
    rw [checkJoinonColumnJoin_of_hasMarker h]
    rfl

/-- **The two Oracle rewrites settle in one run.** When `canonicalize_qual` is idempotent and
puts no marker in a WHERE, the query the two ADB lines of `parse_analyze_for_gram` return
passes them again, unchanged. -/
theorem finishAnalyzeForGram_idem (canonicalizeQual : Expr → Expr)
    (hcanon : ∀ e, canonicalizeQual (canonicalizeQual e) = canonicalizeQual e)
    (hmark : ∀ e, haveOraColumnJoin e = false → haveOraColumnJoin (canonicalizeQual e) = false)
    (catalog : List PgOperator) (makeMinus : Expr → Expr → Option Expr) {query query' : Query}
    (h : finishAnalyzeForGram canonicalizeQual catalog makeMinus query = .ok query') :
    finishAnalyzeForGram canonicalizeQual catalog makeMinus query' = .ok query' := by
  have hsettles := rewriteRownumQuery_settles canonicalizeQual catalog makeMinus hcanon
  obtain ⟨jointree, hcheck, h⟩ := except_bind_eq_ok.mp h
  cases h
  have hjoin : (rewriteRownumQueryEnum (rewriteRownumQuery canonicalizeQual catalog makeMinus)
      { query with jointree }).jointree.any (·.hasMarker) = false := by
    rw [rewriteRownumQueryEnum_eq]
    exact rewriteRownumQuery_hasMarker canonicalizeQual catalog makeMinus hmark
      (mapM_checkJoinonColumnJoin_hasMarker hcheck)
  unfold finishAnalyzeForGram
  rw [mapM_checkJoinonColumnJoin_of_hasMarker hjoin, ok_bind_eq,
    rewriteRownumQueryEnum_update_jointree, rewriteRownumQueryEnum_idem hsettles]
  rfl

/-- `SELECT t1.a FROM t1 LEFT JOIN t2 ON t1.a = t2.a(+) WHERE rownum <= 10`, as
`transformTopLevelStmt` returns it. -/
def markedRownumQuery : Query :=
  { markedJoinQuery with
    jointree := some (.fromExpr [.joinExpr .left (.rangeTblRef 1) (.rangeTblRef 2)
      (some (int4Eq (.var { varno := 1, varattno := 1 })
        (.columnRefJoin { varno := 2, varattno := 1 } 40))) 3]
      (some (.opExpr 420 478 [.rownumExpr, .const int4Oid 10 false]))) }

/-- The rewrites strip the marker and turn the ROWNUM conjunct into a limit; run again, they
change nothing. -/
theorem finishAnalyzeForGram_idem_marked_rownum :
    ∃ query, finishAnalyzeForGram id builtinOperators int8Minus markedRownumQuery = .ok query ∧
      query.limitCount.isSome ∧ query.jointree.any (·.hasMarker) = false ∧
      finishAnalyzeForGram id builtinOperators int8Minus query = .ok query := by
  refine ⟨_, rfl, by decide, by decide, ?_⟩
  exact @finishAnalyzeForGram_idem id (fun _ => rfl) (fun _ h => h) builtinOperators int8Minus
    markedRownumQuery _ rfl

end AntdbAnalyze
