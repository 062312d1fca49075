import AntdbAnalyze.OuterJoin.FromAndWhere
import AntdbAnalyze.Catalog

/-!
# The ROWNUM-to-LIMIT rewrite (analyze.c:3671-3970)

`rewrite_rownum_query` turns the `ROWNUM` conjuncts of a query's WHERE into a
`limitCount`. It runs on a query with a join tree, no LIMIT or OFFSET, and `ROWNUM` in its
WHERE: it canonicalizes the WHERE, then looks at each conjunct that mentions `ROWNUM`.

- `rewriteRownumConjunct`: what the loop body does with one conjunct: leave it, drop it
  as always true, drop it for a limit, stop with no rows, or abandon the rewrite;
- `rewriteRownumLoop`: the loop, with the one-limit rule;
- `rewriteRownumQuery`, and `rewriteRownumQueryEnum` over every query of the tree.

An abandoned rewrite leaves the canonicalized WHERE installed, as the source does.
`canonicalize_qual` and `make_op2` (not under src/) are parameters.
-/

namespace AntdbAnalyze

mutual
/-- Modelled from the spec: `contain_rownum` (not under src/) tells whether an expression
mentions `ROWNUM`. -/
def containRownum : Expr → Bool
  | .rownumExpr => true
  | .opExpr _ _ args => containRownumList args
  | .funcExpr _ args => containRownumList args
  | .boolExpr _ args => containRownumList args
  | _ => false

/-- `contain_rownum` over an argument list. -/
def containRownumList : List Expr → Bool
  | [] => false
  | e :: es => containRownum e || containRownumList es
end

/-- `IsA(node, RownumExpr)`. -/
def Expr.isRownum : Expr → Bool
  | .rownumExpr => true
  | _ => false

/-- `const_get_int64`: the value of a non-NULL `int8`, `int4` or `int2` constant; no cast is
tried. -/
def constGetInt64 : Expr → Option Int
  | .const consttype value false =>
    if consttype = int8Oid ∨ consttype = int4Oid ∨ consttype = int2Oid then some value else none
  | _ => none

/-- `make_int8_const(value)`. -/
def makeInt8Const (value : Int) : Expr :=
  .const int8Oid value false

/-- The operator, function and arguments of an `OpExpr` (`opno`, `opfuncid`), or of a
`FuncExpr` (`InvalidOid`, `funcid`). -/
def operatorCall : Expr → Option (Oid × Oid × List Expr)
  | .opExpr opno opfuncid args => some (opno, opfuncid, args)
  | .funcExpr funcid args => some (0, funcid, args)
  | _ => none

/-- What the loop of `rewrite_rownum_query` does with a conjunct that mentions `ROWNUM`. -/
inductive RownumAction where
  /-- `return`: the rewrite stops, the canonicalized WHERE stays -/
  | abandon
  /-- the conjunct holds on every row; it is dropped -/
  | hint
  /-- the conjunct is dropped for `limitCount = count`, unless a limit is already set -/
  | limit (count : Expr)
  /-- `limitCount = 0` and the loop ends, the WHERE kept whole -/
  | noRows

/-- The branch on the operator's name, with `ROWNUM` on the left and `r` on the right.
`makeMinus l r` is `make_op2(NULL, "-", l, r, -1, true)`. -/
def rownumComparison (makeMinus : Expr → Expr → Option Expr) (name : String) (r : Expr) :
    RownumAction :=
  let minusOne := match makeMinus r (makeInt8Const 1) with
    | some count => .limit count
    | none => .abandon
  if name.front = '<' then
    match constGetInt64 r with
    | none => .abandon
    | some v =>
      if name = "<=" then (if v ≤ 0 then .noRows else .limit r)
      else if name = "<" then (if v ≤ 1 then .noRows else minusOne)
      else if name = "<>" then (if v ≤ 0 then .hint else minusOne)
      else .abandon
  else if name.front = '>' then
    match constGetInt64 r with
    | none => .abandon
    | some v =>
      if name = ">=" then (if v = 1 then .hint else .abandon)
      else if name = ">" then (if v = 0 then .hint else .abandon)
      else .abandon
  else if name = "=" then (if r.isRownum then .hint else .abandon)
  else .abandon

/-- The rest of the loop body once the operator is known: `ROWNUM` must be on the left,
and the operator's name decides. -/
def rownumOperator (catalog : List PgOperator) (makeMinus : Expr → Expr → Option Expr)
    (opno : Oid) (l r : Expr) : RownumAction :=
  if opno = 0 then .abandon
  else if !l.isRownum then .abandon
  else match getOpname catalog opno with
    | some name => rownumComparison makeMinus name r
    | none => .abandon

/-- The body of the loop of `rewrite_rownum_query` on a call of operator `opno` (or, when
it is `InvalidOid`, of function `funcid`) on `l` and `r`: one of them must be `ROWNUM`, and
a call with `ROWNUM` on the right is exchanged for its commutator. The source's
`contain_mutable_functions(r)` check is left out: a constant contains no function, and any
other right operand fails `const_get_int64` next. -/
def rewriteRownumCall (catalog : List PgOperator) (makeMinus : Expr → Expr → Option Expr)
    (opno funcid : Oid) (l r : Expr) : RownumAction :=
  if !l.isRownum && !r.isRownum then .abandon
  else
    let opno := if opno = 0 then getOperatorForFunction catalog funcid else opno
    if opno = 0 then .abandon
    else if r.isRownum then rownumOperator catalog makeMinus (getCommutator catalog opno) r l
    else rownumOperator catalog makeMinus opno l r

/-- The body of the loop of `rewrite_rownum_query` on a conjunct that mentions `ROWNUM`: it
must be an operator call with two arguments. -/
def rewriteRownumConjunct (catalog : List PgOperator) (makeMinus : Expr → Expr → Option Expr)
    (expr : Expr) : RownumAction :=
  match operatorCall expr with
  | some (opno, funcid, [l, r]) => rewriteRownumCall catalog makeMinus opno funcid l r
  | _ => .abandon

/-- How the loop of `rewrite_rownum_query` ends. -/
inductive RownumOutcome where
  | abandoned
  | noRows
  | rewritten (limitCount : Option Expr) (kept : List Expr)

/-- The loop of `rewrite_rownum_query` over the conjuncts, with the limit found so far and
the conjuncts kept; a second limit abandons the rewrite. -/
def rewriteRownumLoop (catalog : List PgOperator) (makeMinus : Expr → Expr → Option Expr) :
    Option Expr → List Expr → List Expr → RownumOutcome
  | limitCount, kept, [] => .rewritten limitCount kept
  | limitCount, kept, expr :: rest =>
    if !containRownum expr then rewriteRownumLoop catalog makeMinus limitCount (kept ++ [expr]) rest
    else match rewriteRownumConjunct catalog makeMinus expr with
    | .hint => rewriteRownumLoop catalog makeMinus limitCount kept rest
    | .limit count =>
      if limitCount.isSome then .abandoned
      else rewriteRownumLoop catalog makeMinus (some count) kept rest
    | .noRows => .noRows
    | .abandon => .abandoned

/-- `rewrite_rownum_query(query)`. -/
def rewriteRownumQuery (canonicalizeQual : Expr → Expr) (catalog : List PgOperator)
    (makeMinus : Expr → Expr → Option Expr) (query : Query) : Query :=
  match query.jointree with
  | some (.fromExpr fromlist (some quals)) =>
    if query.limitOffset.isSome || query.limitCount.isSome || !containRownum quals then query
    else
      let expr := canonicalizeQual quals
      let query₁ := { query with jointree := some (.fromExpr fromlist (some expr)) }
      match rewriteRownumLoop catalog makeMinus none [] expr.andArgs with
      | .abandoned => query₁
      | .noRows => { query₁ with limitCount := some (makeInt8Const 0) }
      | .rewritten limitCount kept =>
        { query with limitCount, jointree := some (.fromExpr fromlist (keptQuals kept)) }
  | _ => query

section Enum

variable (rewrite : Query → Query)

mutual
/-- `rewrite_rownum_query_enum`: `node_tree_walker` reaches every query nested in this one
first (the sub-queries of its range table and the query a utility statement wraps), then
the query itself is rewritten. -/
def rewriteRownumQueryEnum : Query → Query
  | ⟨commandType, utilityQuery, rtable, jointree, targetList, limitOffset, limitCount,
      rowMarks, hasForUpdate, setOperations, sortClause, distinctClause, groupClause, havingQual,
      hasAggs, hasWindowFuncs⟩ =>
    rewrite ⟨commandType, rewriteRownumQueryOpt utilityQuery, rewriteRownumRtable rtable,
      jointree, targetList, limitOffset, limitCount, rowMarks, hasForUpdate, setOperations,
      sortClause, distinctClause, groupClause, havingQual, hasAggs, hasWindowFuncs⟩

/-- The walk into an optional query. -/
def rewriteRownumQueryOpt : Option Query → Option Query
  | none => none
  | some query => some (rewriteRownumQueryEnum query)

/-- The walk into the sub-queries of a range table. -/
def rewriteRownumRtable : List (RangeTblEntryOf Query) → List (RangeTblEntryOf Query)
  | [] => []
  | rte :: rest => rewriteRownumRte rte :: rewriteRownumRtable rest

/-- The walk into the sub-query of one range-table entry. -/
def rewriteRownumRte : RangeTblEntryOf Query → RangeTblEntryOf Query
  | ⟨rtekind, relid, inh, subquery, aliasname, colnames, requiredPerms, jointype,
      joinaliasvars⟩ =>
    ⟨rtekind, relid, inh, rewriteRownumQueryOpt subquery, aliasname, colnames, requiredPerms,
      jointype, joinaliasvars⟩
end

end Enum

end AntdbAnalyze
