import AntdbAnalyze.Semantics

/-!
# The operator catalog

The lookups the ROWNUM rewrite makes in `pg_operator`, over a catalog given as a list of
rows, and what an operator means when its name is one of the integer comparisons.

- `getOpname`, `getCommutator`: the `lsyscache` lookups (not under src/), each a scan for
  the row of an operator `oid`;
- `getOperatorForFunction` (analyze.c:3944-3970): the first row whose `oprcode` is the
  function;
- `catalogSem`: every operator and function of the catalog read by its name, as integer
  comparison or subtraction (`usualOper`). Proofs about the rewrite assume the query's
  semantics agrees with it on the names they need, and no more.

`builtinOperators` is an excerpt of the built-in rows, for concrete runs.
-/

namespace AntdbAnalyze

/-- A `pg_operator` row: the columns the analyzer reads. `oprcom = 0` is no commutator. -/
structure PgOperator where
  oid : Oid
  oprname : String
  oprcom : Oid
  oprcode : Oid

/-- The row of operator `opno`. -/
def findOperator (catalog : List PgOperator) (opno : Oid) : Option PgOperator :=
  catalog.find? (·.oid = opno)

/-- Modelled from the spec: `get_opname(opno)` (not under src/), the operator's name, `NULL`
when there is no such operator. -/
def getOpname (catalog : List PgOperator) (opno : Oid) : Option String :=
  (findOperator catalog opno).map (·.oprname)

/-- Modelled from the spec: `get_commutator(opno)` (not under src/), the commutator's oid,
`InvalidOid` (0) when there is none. -/
def getCommutator (catalog : List PgOperator) (opno : Oid) : Oid :=
  ((findOperator catalog opno).map (·.oprcom)).getD 0

/-- `get_operator_for_function(funcid)`: the first operator implemented by the function,
`InvalidOid` for `InvalidOid` or when none is. -/
def getOperatorForFunction (catalog : List PgOperator) (funcid : Oid) : Oid :=
  if funcid = 0 then 0 else ((catalog.find? (·.oprcode = funcid)).map (·.oid)).getD 0

/-- A truth value as a `Datum`. -/
def boolDatum (b : Bool) : Datum := some (if b then 1 else 0)

/-- What an integer operator named `name` computes on two non-NULL operands; strict, so
NULL when either is NULL. -/
def usualOper (name : String) : List Datum → Datum
  | [some a, some b] =>
    if name = "=" then boolDatum (a == b)
    else if name = "<>" then boolDatum (a != b)
    else if name = "<" then boolDatum (decide (a < b))
    else if name = "<=" then boolDatum (decide (a ≤ b))
    else if name = ">" then boolDatum (decide (a > b))
    else if name = ">=" then boolDatum (decide (a ≥ b))
    else if name = "-" then some (a - b)
    else none
  | _ => none

/-- `-` subtracts, NULL when either operand is. -/
theorem usualOper_minus (a b : Datum) :
    usualOper "-" [a, b] = match a, b with
      | some a, some b => some (a - b)
      | _, _ => none := by
  cases a <;> cases b <;> rfl

/-- The comparisons, by name. -/
def comparisonNames : List String :=
  ["<", "<=", "<>", ">", ">=", "="]

/-- The comparison that holds of `b, a` when `name` holds of `a, b`. -/
def mirrorName (name : String) : String :=
  if name = "<" then ">" else if name = ">" then "<"
  else if name = "<=" then ">=" else if name = ">=" then "<=" else name

/-- A comparison computes on swapped operands what its mirror image computes. -/
theorem usualOper_mirrorName {name : String} (hname : name ∈ comparisonNames) (a b : Datum) :
    usualOper (mirrorName name) [a, b] = usualOper name [b, a] := by
  simp only [comparisonNames, List.mem_cons, List.mem_singleton, List.not_mem_nil,
    or_false] at hname
  rcases hname with rfl | rfl | rfl | rfl | rfl | rfl <;>
    rcases a with _ | a <;> rcases b with _ | b <;> simp [mirrorName, usualOper, eq_comm, bne,
      BEq.comm]

/-- Every operator of the catalog that has a commutator is a comparison, and its
commutator is named as its mirror image. -/
def commutatorsMirrored (catalog : List PgOperator) : Bool :=
  (catalog.map (·.oid)).all fun opno => getCommutator catalog opno == 0 ||
    ((getOpname catalog opno).any (· ∈ comparisonNames) &&
      getOpname catalog (getCommutator catalog opno) == (getOpname catalog opno).map mirrorName)

/-- An operator with a commutator is in the catalog. -/
theorem mem_of_getCommutator_ne_zero {catalog : List PgOperator} {opno : Oid}
    (h : getCommutator catalog opno ≠ 0) : opno ∈ catalog.map (·.oid) := by
  unfold getCommutator findOperator at h
  cases hfind : catalog.find? (·.oid = opno) with
  | none => simp [hfind] at h
  | some row =>
    exact List.mem_map.mpr ⟨row, List.mem_of_find?_eq_some hfind,
      by simpa using List.find?_some hfind⟩

/-- Read every operator, and every function that implements one, by its name. -/
def catalogSem (catalog : List PgOperator) : ExprSem where
  oper opno args := match getOpname catalog opno with
    | some name => usualOper name args
    | none => none
  func funcid args := match getOpname catalog (getOperatorForFunction catalog funcid) with
    | some name => usualOper name args
    | none => none

/-- An operator of the catalog means what its name says. -/
theorem catalogSem_oper {catalog : List PgOperator} {opno : Oid} {name : String}
    (h : getOpname catalog opno = some name) : (catalogSem catalog).oper opno = usualOper name :=
  funext fun _ => by simp only [catalogSem, h]

/-- An excerpt of the built-in operators: `int4` `=`, `<` and `>`, the `int8` comparisons,
`int8 <= int4` and its commutator, each with its commutator and function, and `int8 -`. -/
def builtinOperators : List PgOperator :=
  [⟨96, "=", 96, 65⟩, ⟨97, "<", 521, 66⟩, ⟨521, ">", 97, 147⟩,
   ⟨410, "=", 410, 467⟩, ⟨411, "<>", 411, 468⟩, ⟨412, "<", 413, 469⟩, ⟨413, ">", 412, 470⟩,
   ⟨414, "<=", 415, 471⟩, ⟨415, ">=", 414, 472⟩, ⟨420, "<=", 82, 478⟩, ⟨82, ">=", 420, 857⟩,
   ⟨685, "-", 0, 464⟩]

end AntdbAnalyze
