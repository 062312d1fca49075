import AntdbAnalyze.OuterJoin.Classify

/-!
# What a FROM tree and a qualifier mean

The row semantics the rewrites are measured against; the analyzer itself never
evaluates anything.

- `Expr.eval`: SQL three-valued evaluation of an expression on one row, with the meaning
  of operators and functions a parameter (`ExprSem`) and `ROWNUM` given by the caller.
  A `(+)` marker means the column it wraps (`eval_removeColumnJoinExpr`).
- `JoinNode.eval`: the rows of a FROM tree over a database: the cross product of a
  `FromExpr`'s items, and inner, left, right and full joins with NULL extension, as
  nested loops.

A `Row` maps each range-table index to the tuple it contributes; an index that is
NULL-extended, or not in the tree, maps to `none`.
-/

namespace AntdbAnalyze

/-- SQL values of the model: an integer, or NULL (`none`). Booleans are `1` and `0`. -/
abbrev Datum := Option Int

/-- A tuple of one range-table entry: its column values, attribute 1 first. -/
abbrev Tuple := List Datum

/-- A row of a FROM tree: the tuple each range-table index contributes. -/
abbrev Row := Nat → Option Tuple

/-- The rows of each range-table entry. -/
abbrev Database := Nat → List Tuple

/-- The meaning of operators (by `opno`) and functions (by `funcid`) on argument values. -/
structure ExprSem where
  oper : Oid → List Datum → Datum
  func : Oid → List Datum → Datum

/-- Whether a value is TRUE: non-NULL and non-zero. -/
def datumIsTrue : Datum → Bool
  | some v => v != 0
  | none => false

/-- Three-valued AND: FALSE if an argument is FALSE, else NULL if one is NULL. -/
def boolAndDatum (ds : List Datum) : Datum :=
  if ds.any (· == some 0) then some 0 else if ds.any (·.isNone) then none else some 1

/-- Three-valued OR: TRUE if an argument is TRUE, else NULL if one is NULL. -/
def boolOrDatum (ds : List Datum) : Datum :=
  if ds.any datumIsTrue then some 1 else if ds.any (·.isNone) then none else some 0

/-- Three-valued NOT. -/
def boolNotDatum : Datum → Datum
  | some v => some (if v == 0 then 1 else 0)
  | none => none

/-- The value of column `v` in a row: NULL when its entry is NULL-extended. -/
def columnValue (row : Row) (v : Var) : Datum :=
  match row v.varno with
  | some t => if v.varattno < 1 then none else (t[(v.varattno - 1).toNat]?).getD none
  | none => none

mutual
/-- Evaluate an expression on a row, `rownum` being the value `ROWNUM` has there. An
`OpExpr` is evaluated through its operator, or through its function when it has none
(`InvalidOid`, which `make_op` never leaves). -/
def Expr.eval (sem : ExprSem) (row : Row) (rownum : Int) : Expr → Datum
  | .var v => columnValue row v
  | .columnRefJoin v _ => columnValue row v
  | .const _ value isnull => if isnull then none else some value
  | .opExpr opno opfuncid args =>
    if opno = 0 then sem.func opfuncid (exprListEval sem row rownum args)
    else sem.oper opno (exprListEval sem row rownum args)
  | .funcExpr funcid args => sem.func funcid (exprListEval sem row rownum args)
  | .boolExpr .andExpr args => boolAndDatum (exprListEval sem row rownum args)
  | .boolExpr .orExpr args => boolOrDatum (exprListEval sem row rownum args)
  | .boolExpr .notExpr args => boolNotDatum ((exprListEval sem row rownum args).headD none)
  | .rownumExpr => some rownum
  | .setToDefault _ _ _ => none

/-- Evaluate an argument list. -/
def exprListEval (sem : ExprSem) (row : Row) (rownum : Int) : List Expr → List Datum
  | [] => []
  | e :: es => e.eval sem row rownum :: exprListEval sem row rownum es
end

/-- Whether an expression is TRUE on a row. -/
def Expr.holds (sem : ExprSem) (row : Row) (rownum : Int) (e : Expr) : Bool :=
  datumIsTrue (e.eval sem row rownum)

/-- Whether an optional qualifier holds on a row (an absent one always does). -/
def qualHolds (sem : ExprSem) (rownum : Int) (quals : Option Expr) (row : Row) : Bool :=
  quals.all (·.holds sem row rownum)

theorem all_exprListEval (sem : ExprSem) (row : Row) (rownum : Int) (es : List Expr) :
    (exprListEval sem row rownum es).all datumIsTrue = es.all (·.holds sem row rownum) := by
  induction es with
  | nil => rfl
  | cons e es ih => simp [exprListEval, Expr.holds, ih]

/-- A list's elements all satisfy `q` iff those `p` picks and those it leaves do. -/
theorem all_filter_and_all_filter_not {α : Type} (p q : α → Bool) (l : List α) :
    ((l.filter p).all q && (l.filter (!p ·)).all q) = l.all q := by
  induction l with
  | nil => rfl
  | cons a l ih =>
    by_cases hp : p a <;> simp [List.filter_cons, hp, ← ih] <;> cases q a <;> simp

/-- Three-valued AND is TRUE iff every argument is. -/
theorem datumIsTrue_boolAndDatum (ds : List Datum) :
    datumIsTrue (boolAndDatum ds) = ds.all datumIsTrue := by
  induction ds with
  | nil => rfl
  | cons d ds ih =>
    rcases d with _ | v
    · simp only [boolAndDatum]
      split_ifs <;> simp_all [datumIsTrue]
    · by_cases hv : v = 0 <;> simp_all [boolAndDatum, datumIsTrue]

/-- An AND of conjuncts holds iff each conjunct does. -/
@[simp] theorem holds_and (sem : ExprSem) (row : Row) (rownum : Int) (es : List Expr) :
    (Expr.boolExpr .andExpr es).holds sem row rownum = es.all (·.holds sem row rownum) := by
  rw [Expr.holds, Expr.eval, datumIsTrue_boolAndDatum, all_exprListEval]

/-- A qualifier holds iff all the conjuncts the rewrites split it into do. -/
theorem all_andArgs_holds (sem : ExprSem) (row : Row) (rownum : Int) (e : Expr) :
    e.andArgs.all (·.holds sem row rownum) = e.holds sem row rownum := by
  match e with
  | .boolExpr .andExpr args => exact (holds_and sem row rownum args).symm
  | .var _ | .columnRefJoin _ _ | .const _ _ _ | .opExpr _ _ _ | .funcExpr _ _
  | .boolExpr .orExpr _ | .boolExpr .notExpr _ | .rownumExpr | .setToDefault _ _ _ =>
    simp [Expr.andArgs]

mutual
theorem eval_removeColumnJoinExpr (sem : ExprSem) (row : Row) (rownum : Int) :
    ∀ e : Expr, (removeColumnJoinExpr e).eval sem row rownum = e.eval sem row rownum
  | .columnRefJoin _ _ => rfl
  | .var _ => rfl
  | .const _ _ _ => rfl
  | .opExpr _ _ args => by
    simp only [removeColumnJoinExpr, Expr.eval, exprListEval_removeColumnJoinExprList]
  | .funcExpr _ args => by
    simp only [removeColumnJoinExpr, Expr.eval, exprListEval_removeColumnJoinExprList]
  | .boolExpr op args => by
    cases op <;>
      simp only [removeColumnJoinExpr, Expr.eval, exprListEval_removeColumnJoinExprList]
  | .rownumExpr => rfl
  | .setToDefault _ _ _ => rfl

/-- A `(+)` marker is transparent: stripping markers keeps every value. -/
theorem exprListEval_removeColumnJoinExprList (sem : ExprSem) (row : Row) (rownum : Int) :
    ∀ es : List Expr,
      exprListEval sem row rownum (removeColumnJoinExprList es) = exprListEval sem row rownum es
  | [] => rfl
  | e :: es => by
    simp only [removeColumnJoinExprList, exprListEval, eval_removeColumnJoinExpr,
      exprListEval_removeColumnJoinExprList sem row rownum es]
end

@[simp] theorem holds_removeColumnJoinExpr (sem : ExprSem) (row : Row) (rownum : Int)
    (e : Expr) : (removeColumnJoinExpr e).holds sem row rownum = e.holds sem row rownum := by
  simp only [Expr.holds, eval_removeColumnJoinExpr]

/-! ## Rows of a FROM tree -/

/-- The row holding one tuple of entry `i`. -/
def singletonRow (i : Nat) (t : Tuple) : Row :=
  fun j => if j = i then some t else none

/-- Two rows of disjoint parts of a FROM tree, side by side. -/
def Row.merge (a b : Row) : Row :=
  fun i => (a i).or (b i)

/-- The rows a join of `L` and `R` on `quals` gives, as nested loops. A row with no match
is kept NULL-extended on an outer side: its other side's entries are absent already. -/
def joinRows (sem : ExprSem) (jointype : JoinType) (L R : List Row) (quals : Option Expr) :
    List Row :=
  let matchesOf (a : Row) := (R.map (Row.merge a)).filter (qualHolds sem 0 quals)
  let leftJoin := L.flatMap fun a => if (matchesOf a).isEmpty then [a] else matchesOf a
  let unmatchedRight :=
    R.filter fun b => ((L.map (Row.merge · b)).filter (qualHolds sem 0 quals)).isEmpty
  match jointype with
  | .inner => L.flatMap matchesOf
  | .left => leftJoin
  | .right => L.flatMap matchesOf ++ unmatchedRight
  | .full => leftJoin ++ unmatchedRight

mutual
/-- The rows of a FROM tree over a database. ROWNUM has no meaning inside FROM; it is
evaluated as `0` there. -/
def JoinNode.eval (sem : ExprSem) (db : Database) : JoinNode → List Row
  | .rangeTblRef i => (db i).map (singletonRow i)
  | .joinExpr jointype larg rarg quals _ =>
    joinRows sem jointype (JoinNode.eval sem db larg) (JoinNode.eval sem db rarg) quals
  | .fromExpr fromlist quals => (crossRows sem db fromlist).filter (qualHolds sem 0 quals)

/-- The cross product of the rows of a list of FROM items. -/
def crossRows (sem : ExprSem) (db : Database) : List JoinNode → List Row
  | [] => [fun _ => none]
  | item :: rest =>
    (JoinNode.eval sem db item).flatMap fun a => (crossRows sem db rest).map (Row.merge a)
end

/-- The rows of one SELECT level before its target list: the FROM list's cross product
filtered by the WHERE, ROWNUM left out. -/
def selectRows (sem : ExprSem) (db : Database) (fromlist : List JoinNode)
    (quals : Option Expr) : List Row :=
  (crossRows sem db fromlist).filter (qualHolds sem 0 quals)

end AntdbAnalyze
