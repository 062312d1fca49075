import AntdbAnalyze.OuterJoin.FromAndWhere
import AntdbAnalyze.Catalog

/-!
# What the `(+)` rewrite does to the rows of a query

`transformFromAndWhere` is meant to turn Oracle outer-join markers into joins without
changing what the query returns. This module measures it against the row semantics of
`Semantics`: the rows of the FROM list it installs, filtered by the WHERE it returns.

- The entries `get_join_qual_exprs` returns hold on a row exactly when the conjuncts of
  the canonicalized WHERE do (`getJoinQualExprs_holds`): merging is an AND.
- **`transformFromAndWhere_single_item_agrees`**: on one FROM item, the fast path and
  the general path agree when every conjunct names at most one table: same FROM list,
  same range table, and WHEREs that hold on the same rows.

Where the two paths part, and where the rewrite changes the rows, is shown on concrete
queries at the end: a two-table conjunct over one `LEFT JOIN` item, which the fast path
keeps in WHERE where the general path fuses it into the ON
(`transformFromAndWhere_paths_differ`), a plain conjunct fused into the ON of a
`LEFT JOIN` (`transformFromAndWhere_fuses_plain_conjunct`), a preserved table released
into a nullable side (`transformFromAndWhere_wraps_preserved_table`), and a marker on the
conjunct's own table (`transformFromAndWhere_self_marker_fails`).
-/

namespace AntdbAnalyze

section Holds

variable (sem : ExprSem) (row : Row) (rownum : Int)

@[simp] theorem holds_combineAnd (e e₂ : Expr) :
    (combineAnd e e₂).holds sem row rownum =
      (e.holds sem row rownum && e₂.holds sem row rownum) := by
  unfold combineAnd
  split <;> simp [makeAndExpr]

/-- Adding a conjunct to the entries ANDs it in, merged or appended. -/
theorem all_addJoinQual (jinfo₂ : JoinExprInfo) (infos : List JoinExprInfo) :
    (addJoinQual jinfo₂ infos).all (·.expr.holds sem row rownum) =
      (infos.all (·.expr.holds sem row rownum) && jinfo₂.expr.holds sem row rownum) := by
  induction infos with
  | nil => simp [addJoinQual]
  | cons jinfo rest ih =>
    unfold addJoinQual
    split_ifs <;> simp [ih, Bool.and_assoc, Bool.and_comm, Bool.and_left_comm]

theorem mapM_getOraColumnJoin_holds : ∀ {es : List Expr} {infos : List JoinExprInfo},
    es.mapM getOraColumnJoin = .ok infos →
      infos.all (·.expr.holds sem row rownum) = es.all (·.holds sem row rownum)
  | [], _, h => by cases h; rfl
  | e :: es, infos, h => by
    rw [List.mapM_cons] at h
    cases he : getOraColumnJoin e with
    | error err => rw [he] at h; cases h
    | ok info =>
      cases hes : es.mapM getOraColumnJoin with
      | error err => rw [he, hes] at h; cases h
      | ok rest =>
        rw [he, hes] at h
        cases h
        simp [getOraColumnJoin_expr he, mapM_getOraColumnJoin_holds hes]

theorem foldlM_addClassifiedQual_holds : ∀ {es : List Expr} {acc infos : List JoinExprInfo},
    es.foldlM addClassifiedQual acc = .ok infos →
      infos.all (·.expr.holds sem row rownum) =
        (acc.all (·.expr.holds sem row rownum) && es.all (·.holds sem row rownum))
  | [], _, _, h => by cases h; simp
  | e :: es, acc, infos, h => by
    rw [List.foldlM_cons, addClassifiedQual] at h
    cases he : getOraColumnJoin e with
    | error err => rw [he] at h; cases h
    | ok info =>
      rw [he] at h
      simp [foldlM_addClassifiedQual_holds h, all_addJoinQual, getOraColumnJoin_expr he,
        Bool.and_assoc]

/-- The entries of `get_join_qual_exprs` hold on a row iff the conjuncts of the
canonicalized WHERE do. -/
theorem getJoinQualExprs_holds {canonicalizeQual : Expr → Expr} {q : Expr}
    {infos : List JoinExprInfo} (h : getJoinQualExprs canonicalizeQual (some q) = .ok infos) :
    infos.all (·.expr.holds sem row rownum) =
      (canonicalizeQual q).andArgs.all (·.holds sem row rownum) := by
  simp only [getJoinQualExprs, bind, Except.bind] at h
  split at h
  · cases h
  · next marked hmarked =>
    rw [foldlM_addClassifiedQual_holds sem row rownum h,
      mapM_getOraColumnJoin_holds sem row rownum hmarked, all_filter_and_all_filter_not]

/-- Stripping the markers of the entries keeps what holds. -/
theorem all_map_removeColumnJoinExpr (infos : List JoinExprInfo) :
    (infos.map (removeColumnJoinExpr ·.expr)).all (·.holds sem row rownum) =
      infos.all (·.expr.holds sem row rownum) := by
  induction infos with
  | nil => rfl
  | cons _ _ ih => simp [ih]

/-- The WHERE left for the kept conjuncts holds iff they all do. -/
theorem qualHolds_keptQuals (es : List Expr) :
    qualHolds sem rownum (keptQuals es) row = es.all (·.holds sem row rownum) := by
  unfold keptQuals
  split <;> simp [qualHolds, makeAndExpr]

end Holds

/-! ## One FROM item -/

/-- **The two paths on one FROM item.** With one registered FROM item and a WHERE with a
marker, the fast path returns the WHERE stripped and leaves the parse state alone. When
every conjunct of the canonicalized WHERE names at most one table, at every level, and no
table both marked and unmarked, the general path agrees: it succeeds, leaves the FROM
list and the range table as they were, and returns a WHERE that holds on exactly the rows
the stripped WHERE holds on. `canonicalize_qual` is assumed to keep the meaning. -/
theorem transformFromAndWhere_single_item_agrees (canonicalizeQual : Expr → Expr)
    (hcanon : ∀ sem row rownum e,
      (canonicalizeQual e).holds sem row rownum = e.holds sem row rownum)
    {pstate : ParseState} {item : JoinNode} (hjoin : pstate.p_joinlist = [item])
    (hreg : item.registered) {q : Expr} (hq : haveOraColumnJoin q)
    (hone : ∀ e ∈ (canonicalizeQual q).andArgs,
      Disjoint (oraMarkedRels e) (oraPlainRels e) ∧ (oraMarkedRels e ∪ oraPlainRels e).card ≤ 1) :
    transformFromAndWhere canonicalizeQual pstate (some q) =
        .ok (pstate, some (removeColumnJoinExpr q)) ∧
      ∃ pstate' quals', transformFromAndWhereGeneral canonicalizeQual pstate (some q) =
          .ok (pstate', quals') ∧
        pstate'.p_joinlist = pstate.p_joinlist ∧ pstate'.p_rtable = pstate.p_rtable ∧
        ∀ sem row rownum,
          qualHolds sem rownum quals' row = (removeColumnJoinExpr q).holds sem row rownum := by
  refine ⟨transformFromAndWhere_single_item canonicalizeQual hjoin hq, ?_⟩
  obtain ⟨infos, hinfos, hall⟩ := getJoinQualExprs_of_oneTable canonicalizeQual
    fun e he => getOraColumnJoin_oneTable (hone e he).1 (hone e he).2
  obtain ⟨pstate', hgeneral, hjoin', hrtable⟩ :=
    transformFromAndWhereGeneral_of_oneTable canonicalizeQual hjoin hreg hinfos hall
  refine ⟨pstate', _, hgeneral, hjoin'.trans hjoin.symm, hrtable, fun sem row rownum => ?_⟩
  rw [qualHolds_keptQuals, all_map_removeColumnJoinExpr,
    getJoinQualExprs_holds sem row rownum hinfos, all_andArgs_holds, hcanon,
    holds_removeColumnJoinExpr]

/-! ## Concrete queries -/

/-- The parse state `FROM t1, ..., tn` leaves: entry `i` is the relation `ti` with columns
`a` and `b`, exposed by a namespace item of its own. -/
def relationsFrom (n : Nat) : ParseState :=
  ⟨(List.range n).map fun i =>
      ⟨.relation, 16384 + i, true, none, "t" ++ toString (i + 1), ["a", "b"], 2, .inner, []⟩,
    [], (List.range n).map fun i => .rangeTblRef (i + 1),
    (List.range n).map fun i => ⟨i + 1, true, true, false, true⟩, [], .oracle, 1, none⟩

/-- `x = y` on `int4` operands, as `make_op` builds it. -/
def int4Eq (x y : Expr) : Expr :=
  .opExpr 96 65 [x, y]

/-- The parse state `FROM t1 LEFT JOIN t2 ON t1.a = t2.a` leaves: the join is entry 3. -/
def leftJoinFrom : ParseState :=
  let join := JoinNode.joinExpr .left (.rangeTblRef 1) (.rangeTblRef 2)
    (some (int4Eq (.var { varno := 1, varattno := 1 }) (.var { varno := 2, varattno := 1 }))) 3
  { relationsFrom 2 with
    p_rtable := (relationsFrom 2).p_rtable ++
      [⟨.join, 0, false, none, "unnamed_join", ["a", "b", "a", "b"], 0, .left,
        [.var { varno := 1, varattno := 1 }, .var { varno := 1, varattno := 2 },
         .var { varno := 2, varattno := 1 }, .var { varno := 2, varattno := 2 }]⟩]
    p_joinexprs := [none, none, some join]
    p_joinlist := [join]
    p_namespace := [⟨1, true, false, false, true⟩, ⟨2, true, false, false, true⟩,
      ⟨3, false, true, false, true⟩] }

/-- A database holding the listed rows of the listed entries, and no row elsewhere. -/
def tableRows (tables : List (Nat × List Tuple)) : Database :=
  fun i => ((tables.find? (·.1 = i)).map (·.2)).getD []

/-- How many rows the SELECT level a rewrite returns has over `db`, the operators read
from `builtinOperators`. -/
def rewrittenRowCount (db : Database) (result : Except ErrorData (ParseState × Option Expr)) :
    Option Nat :=
  result.toOption.map fun r => (selectRows (catalogSem builtinOperators) db r.1.p_joinlist r.2).length

/-- `FROM t1 LEFT JOIN t2 ON t1.a = t2.a WHERE t1.b = t2.b(+)` over `t1 = {(1, 1)}` and
`t2 = {(1, 2)}`: the fast path keeps the conjunct in WHERE, which removes the joined row;
the general path fuses it into the ON of the `LEFT JOIN`, which keeps `t1`'s row
NULL-extended. -/
theorem transformFromAndWhere_paths_differ :
    rewrittenRowCount (tableRows [(1, [[some 1, some 1]]), (2, [[some 1, some 2]])])
        (transformFromAndWhere id leftJoinFrom (some (int4Eq (.var { varno := 1, varattno := 2 })
          (.columnRefJoin { varno := 2, varattno := 2 } 0)))) = some 0 ∧
      rewrittenRowCount (tableRows [(1, [[some 1, some 1]]), (2, [[some 1, some 2]])])
        (transformFromAndWhereGeneral id leftJoinFrom (some (int4Eq
          (.var { varno := 1, varattno := 2 }) (.columnRefJoin { varno := 2, varattno := 2 } 0))))
        = some 1 := by
  decide

/-! ## Two or more FROM items -/

/-- `FROM t1, t2 WHERE t1.a = t2.a(+) AND t1.b = t2.b` over `t1 = {(1, 1)}` and
`t2 = {(1, 2)}`: the rewrite fuses the plain conjunct into the ON of the `LEFT JOIN` it
built for the marker one, so `t1`'s row comes back NULL-extended; the `LEFT JOIN` on the
marker conjunct, filtered by the plain one, returns no row. -/
theorem transformFromAndWhere_fuses_plain_conjunct :
    rewrittenRowCount (tableRows [(1, [[some 1, some 1]]), (2, [[some 1, some 2]])])
        (transformFromAndWhere id (relationsFrom 2) (some (makeAndExpr
          [int4Eq (.var { varno := 1, varattno := 1 }) (.columnRefJoin { varno := 2, varattno := 1 } 0),
           int4Eq (.var { varno := 1, varattno := 2 }) (.var { varno := 2, varattno := 2 })]))) =
        some 1 ∧
      (selectRows (catalogSem builtinOperators)
        (tableRows [(1, [[some 1, some 1]]), (2, [[some 1, some 2]])])
        [.joinExpr .left (.rangeTblRef 1) (.rangeTblRef 2)
          (some (int4Eq (.var { varno := 1, varattno := 1 }) (.var { varno := 2, varattno := 1 }))) 3]
        (some (int4Eq (.var { varno := 1, varattno := 2 }) (.var { varno := 2, varattno := 2 })))).length
        = 0 := by
  decide

/-- `FROM t1, t2, t3 WHERE t1.a = t2.a(+) AND t2.b(+) = t3.b`: the rewrite builds
`t3 LEFT JOIN (t1 LEFT JOIN t2 ON t1.a = t2.a) ON t2.b = t3.b`, with `t1` in the nullable
input of a join whose preserved input is `t3`, which no marker links it to. Over
`t1 = {(1, 1), (2, 2)}`, `t2 = {}` and `t3 = {(5, 5)}` it returns one row, where the
cross product of `t1` and `t3` outer-joined to `t2` on both conjuncts returns two. -/
theorem transformFromAndWhere_wraps_preserved_table :
    (transformFromAndWhere id (relationsFrom 3) (some (makeAndExpr
        [int4Eq (.var { varno := 1, varattno := 1 }) (.columnRefJoin { varno := 2, varattno := 1 } 0),
         int4Eq (.columnRefJoin { varno := 2, varattno := 2 } 0) (.var { varno := 3, varattno := 2 })]))
      ).toOption.map (·.1.p_joinlist) =
      some [.joinExpr .left (.rangeTblRef 3)
        (.joinExpr .left (.rangeTblRef 1) (.rangeTblRef 2)
          (some (int4Eq (.var { varno := 1, varattno := 1 }) (.var { varno := 2, varattno := 1 }))) 4)
        (some (int4Eq (.var { varno := 2, varattno := 2 }) (.var { varno := 3, varattno := 2 }))) 5] ∧
    rewrittenRowCount (tableRows [(1, [[some 1, some 1], [some 2, some 2]]), (3, [[some 5, some 5]])])
        (transformFromAndWhere id (relationsFrom 3) (some (makeAndExpr
          [int4Eq (.var { varno := 1, varattno := 1 }) (.columnRefJoin { varno := 2, varattno := 1 } 0),
           int4Eq (.columnRefJoin { varno := 2, varattno := 2 } 0) (.var { varno := 3, varattno := 2 })])))
        = some 1 ∧
      (selectRows (catalogSem builtinOperators)
        (tableRows [(1, [[some 1, some 1], [some 2, some 2]]), (3, [[some 5, some 5]])])
        [.joinExpr .left (.fromExpr [.rangeTblRef 1, .rangeTblRef 3] none) (.rangeTblRef 2)
          (some (makeAndExpr
            [int4Eq (.var { varno := 1, varattno := 1 }) (.var { varno := 2, varattno := 1 }),
             int4Eq (.var { varno := 2, varattno := 2 }) (.var { varno := 3, varattno := 2 })])) 0]
        none).length = 2 := by
  refine ⟨rfl, by decide, by decide⟩

/-- `FROM t1, t2 WHERE t1.b = t1.a(+)`: the conjunct is classified `JOIN_LEFT` from
`t1` onto `t1`, `pullup_rel_for_join` finds one end only, and the rewrite fails with the
internal error. -/
theorem transformFromAndWhere_self_marker_fails :
    transformFromAndWhere id (relationsFrom 2) (some (int4Eq (.var { varno := 1, varattno := 2 })
      (.columnRefJoin { varno := 1, varattno := 1 } 0))) = .error moveFilterQualError := by
  rfl

end AntdbAnalyze
