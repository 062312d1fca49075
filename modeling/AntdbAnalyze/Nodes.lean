import Mathlib.Data.List.Forall2

/-!
# Nodes read and built by the analyzer

The node kinds of `primnodes.h` and `parsenodes.h` that `analyze.c` inspects, reduced to
the fields the modelled functions read or write.

- `Expr`: the expression nodes the two dialect rewrites walk: `Var`, the outer-join
  marker `ColumnRefJoin`, `Const`, `OpExpr`, `FuncExpr`, `BoolExpr`, `RownumExpr`, and the
  `SetToDefault` placeholder of the set-operation column lists.
- `JoinNode`: the FROM tree (`RangeTblRef`, `JoinExpr`, `FromExpr`), one constructor per
  node tag that `pullup_rel_for_join` and `check_joinon_column_join` dispatch on.
- `Query`, `RangeTblEntry`: the analyzer's output, recursive through the sub-queries of
  the range table; `SetOpNode`, the `SetOperationStmt` tree of a set-operation query.
- `ErrorData`: an `ereport(ERROR, ...)` with its SQLSTATE and message; `lcsAsString`, the
  name of a locking strength its messages use.

Node pointers become values. Where the C code mutates a node in place and keeps reading
it through another pointer, the model returns the new node and the caller threads it on.
-/

namespace AntdbAnalyze

/-- Object identifiers; `0` is `InvalidOid`. -/
abbrev Oid := Nat

/-- `Var`: column `varattno` of range-table entry `varno`, `varlevelsup` query levels
up. Range-table indexes start at 1, and the parser never builds `varno = 0`
(`Assert(var->varno != 0)` in `get_ora_column_join_walker`), so the structure carries
that fact. -/
structure Var where
  varno : Nat
  varattno : Int
  vartype : Oid := 0
  vartypmod : Int := -1
  varcollid : Oid := 0
  varlevelsup : Nat := 0
  varno_pos : 0 < varno := by decide
deriving DecidableEq, Repr

/-- `INT8OID`. -/
def int8Oid : Oid := 20

/-- `INT4OID`. -/
def int4Oid : Oid := 23

/-- `INT2OID`. -/
def int2Oid : Oid := 21

/-- `UNKNOWNOID`, the type of an untyped literal. -/
def unknownOid : Oid := 705

/-- `BoolExprType`. -/
inductive BoolExprType where
  | andExpr
  | orExpr
  | notExpr
deriving DecidableEq, Repr

/-- Expression nodes. `constvalue` is the integer a constant of an integer type holds;
`columnRefJoin` is the parser's `col(+)` marker around one `Var`. -/
inductive Expr where
  | var (v : Var)
  | columnRefJoin (var : Var) (location : Int)
  | const (consttype : Oid) (constvalue : Int) (constisnull : Bool)
  | opExpr (opno : Oid) (opfuncid : Oid) (args : List Expr)
  | funcExpr (funcid : Oid) (args : List Expr)
  | boolExpr (boolop : BoolExprType) (args : List Expr)
  | rownumExpr
  | setToDefault (typeId : Oid) (typeMod : Int) (collation : Oid)
deriving BEq, Repr

/-- `and_clause`: is the node an AND `BoolExpr`. -/
def Expr.isAndClause : Expr → Bool
  | .boolExpr .andExpr _ => true
  | _ => false

/-- `makeBoolExpr(AND_EXPR, args, -1)`. -/
def makeAndExpr (args : List Expr) : Expr :=
  .boolExpr .andExpr args

/-- The conjuncts of a qualifier the way both rewrites split one after
`canonicalize_qual`: the arguments of a top-level AND, else the qualifier alone. -/
def Expr.andArgs : Expr → List Expr
  | .boolExpr .andExpr args => args
  | e => [e]

/-- `JoinType`, in the order of `nodes.h`. -/
inductive JoinType where
  | inner
  | left
  | full
  | right
deriving DecidableEq, Repr

/-- The FROM tree. `joinExpr.rtindex` is `0` for a join the outer-join rewrite has just
built and not yet entered in the range table. -/
inductive JoinNode where
  | rangeTblRef (rtindex : Nat)
  | joinExpr (jointype : JoinType) (larg rarg : JoinNode) (quals : Option Expr)
      (rtindex : Nat)
  | fromExpr (fromlist : List JoinNode) (quals : Option Expr)
deriving Repr

/-- The SQLSTATEs the modelled error paths raise; `elog` and an `ereport` without
`errcode` raise `internalError`. -/
inductive SqlState where
  | syntaxError
  | featureNotSupported
  | undefinedTable
  | undefinedColumn
  | invalidColumnReference
  | statementTooComplex
  | invalidCursorDefinition
  | undefinedObject
  | internalError
deriving DecidableEq, Repr

/-- `LCS_asString`, over the order of `LockClauseStrength` in parsenodes.h. -/
def lcsAsString : Nat → String
  | 0 => "FOR KEY SHARE"
  | 1 => "FOR SHARE"
  | 2 => "FOR NO KEY UPDATE"
  | 3 => "FOR UPDATE"
  | _ => "FOR some"

/-- The data of an `ereport(ERROR, ...)`: its SQLSTATE and its message text. -/
structure ErrorData where
  sqlerrcode : SqlState
  message : String
deriving DecidableEq, Repr

/-- `TargetEntry`. -/
structure TargetEntry where
  expr : Expr
  resno : Nat
  resname : Option String
  resjunk : Bool
deriving Repr

/-- `RTEKind`. -/
inductive RTEKind where
  | relation
  | subquery
  | join
  | function
  | values
  | cte
deriving DecidableEq, Repr

/-- `RowMarkClause`: `strength` is the integer value of the `LockClauseStrength` enum,
which `applyLockingClause` compares with `Max`. -/
structure RowMarkClause where
  rti : Nat
  strength : Nat
  noWait : Bool
  pushedDown : Bool
deriving DecidableEq, Repr

/-- `RangeTblEntry`, over the type of the sub-query it may hold; `aliasname` and
`colnames` are its `eref`; `jointype` and `joinaliasvars` are set for `RTE_JOIN`. -/
structure RangeTblEntryOf (Q : Type) where
  rtekind : RTEKind
  relid : Oid
  inh : Bool
  subquery : Option Q
  aliasname : String
  colnames : List String
  requiredPerms : Nat
  jointype : JoinType
  joinaliasvars : List Expr

/-- `CmdType`. -/
inductive CmdType where
  | select
  | insert
  | update
  | delete
  | utility
deriving DecidableEq, Repr

/-- `SetOperation`, without `SETOP_NONE`: a `SelectStmt` with no set operation is a leaf
of the tree. -/
inductive SetOperation where
  | union
  | intersect
  | except
deriving DecidableEq, Repr

/-- `SortGroupClause`, as the set-operation code fills it. -/
structure SortGroupClause where
  tleSortGroupRef : Nat
  eqop : Oid
  sortop : Oid
  nulls_first : Bool
  hashable : Bool
deriving DecidableEq, Repr

/-- `SetOperationStmt`, and the `RangeTblRef` leaves of its tree. A leaf refers to an entry of
the range table, so its index is positive. -/
inductive SetOpNode where
  | rangeTblRef (rtindex : Nat) (rtindex_pos : 0 < rtindex)
  | setOperationStmt (op : SetOperation) (all : Bool) (larg rarg : SetOpNode)
      (colTypes : List Oid) (colTypmods : List Int) (colCollations : List Oid)
      (groupClauses : List SortGroupClause)
deriving DecidableEq, Repr

/-- `Query`, with the fields the modelled functions read or write. `utilityQuery` is the
analyzed query a utility statement wraps (EXPLAIN, CREATE TABLE AS). -/
structure Query where
  commandType : CmdType
  utilityQuery : Option Query
  rtable : List (RangeTblEntryOf Query)
  jointree : Option JoinNode
  targetList : List TargetEntry
  limitOffset : Option Expr
  limitCount : Option Expr
  rowMarks : List RowMarkClause
  hasForUpdate : Bool
  setOperations : Option SetOpNode
  sortClause : List SortGroupClause
  distinctClause : List SortGroupClause
  groupClause : List SortGroupClause
  havingQual : Option Expr
  hasAggs : Bool
  hasWindowFuncs : Bool

/-- `makeNode(Query)`: every list empty, every pointer NULL, every flag false. -/
def makeQuery : Query :=
  ⟨.select, none, [], none, [], none, none, [], false, none, [], [], [], none, false, false⟩

/-- Range-table entries of analyzed queries. -/
abbrev RangeTblEntry := RangeTblEntryOf Query

/-- `rt_fetch(i, rtable)`: the entry at 1-based index `i`. -/
def rtFetch (i : Nat) (rtable : List RangeTblEntry) : Option RangeTblEntry :=
  rtable[i - 1]?

/-- `ParseNamespaceItem`; `p_rte` is the range-table index of the entry it exposes. -/
structure ParseNamespaceItem where
  p_rte : Nat
  p_rel_visible : Bool
  p_cols_visible : Bool
  p_lateral_only : Bool
  p_lateral_ok : Bool
deriving DecidableEq, Repr

/-- `ParseGrammar`: the dialect the statement was parsed in. -/
inductive ParseGrammar where
  | postgres
  | oracle
deriving DecidableEq, Repr

/-- `CommonTableExpr`: whether it is recursive, and the output columns
`analyzeCTETargetList` records. -/
structure CommonTableExpr where
  cterecursive : Bool
  ctecolnames : List (Option String)
  ctecoltypes : List Oid
  ctecoltypmods : List Int
  ctecolcollations : List Oid
deriving DecidableEq, Repr

/-- `ParseState`, with the fields the modelled functions read or write. -/
structure ParseState where
  p_rtable : List RangeTblEntry
  p_joinexprs : List (Option JoinNode)
  p_joinlist : List JoinNode
  p_namespace : List ParseNamespaceItem
  p_save_namespace : List ParseNamespaceItem
  p_grammar : ParseGrammar
  p_next_resno : Nat
  p_parent_cte : Option CommonTableExpr

/-- A bind in `Except` succeeds iff its first step does and the rest succeeds on its value. -/
theorem except_bind_eq_ok {ε α β : Type} {x : Except ε α} {f : α → Except ε β} {b : β} :
    x >>= f = .ok b ↔ ∃ a, x = .ok a ∧ f a = .ok b := by
  cases x <;> simp [bind, Except.bind]

/-- A map in `Except` that succeeds applied its function to a value. -/
theorem except_map_eq_ok {ε α β : Type} {f : α → β} {x : Except ε α} {b : β} :
    f <$> x = .ok b ↔ ∃ a, x = .ok a ∧ f a = b := by
  cases x <;> simp [Functor.map, Except.map]

/-- A bind in `Except` on a value goes on with it. -/
theorem ok_bind_eq {ε α β : Type} (a : α) (f : α → Except ε β) : (Except.ok a >>= f) = f a :=
  rfl

/-- A bind in `Except` on an error stops there. -/
theorem error_bind_eq {ε α β : Type} (e : ε) (f : α → Except ε β) :
    (Except.error e >>= f) = .error e :=
  rfl

/-- A choice between two `Except` computations that both succeed succeeds. -/
theorem exists_ok_ite {ε α : Type} {c : Prop} [Decidable c] {a b : Except ε α}
    (ha : ∃ r, a = .ok r) (hb : ∃ r, b = .ok r) : ∃ r, (if c then a else b) = .ok r := by
  split <;> assumption

/-- A check `if c then throw e` the computation got past left the value it returns. -/
theorem eq_of_ite_throw_eq_ok {ε α : Type} {c : Prop} [Decidable c] {e : ε} {x y : α}
    (h : (if c then (throw e : Except ε α) else pure x) = .ok y) : x = y := by
  split at h <;> cases h
  rfl

/-- A check `if c then throw e` followed by more of a `do` block, which the notation joins in
`k`: a computation that succeeded got past it. -/
theorem jp_ite_throw_eq_ok {ε α : Type} {c : Prop} [Decidable c] {e : ε}
    {k : PUnit → Except ε α} {a : α}
    (h : (if c then (throw e : Except ε PUnit) >>= k else pure PUnit.unit >>= k) = .ok a) :
    ¬c ∧ k PUnit.unit = .ok a := by
  split at h
  · cases h
  · exact ⟨‹_›, h⟩

/-- A `mapM` in `Except` that succeeds pairs each input with its output. -/
theorem forall₂_of_mapM_eq_ok {ε α β : Type} {f : α → Except ε β} :
    ∀ {xs : List α} {ys : List β}, xs.mapM f = .ok ys → List.Forall₂ (fun x y => f x = .ok y) xs ys
  | [], _, h => by cases h; exact .nil
  | x :: xs, _, h => by
    rw [List.mapM_cons] at h
    obtain ⟨y, hy, h⟩ := except_bind_eq_ok.mp h
    obtain ⟨ys, hys, h⟩ := except_bind_eq_ok.mp h
    cases h
    exact .cons hy (forall₂_of_mapM_eq_ok hys)

end AntdbAnalyze
