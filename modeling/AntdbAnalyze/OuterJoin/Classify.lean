import AntdbAnalyze.Nodes
import Mathlib.Data.Finset.Card

/-!
# Classifying a `(+)` conjunct (analyze.c:3068-3157)

`get_ora_column_join` walks one WHERE conjunct and records, in a `JoinExprInfo`, which
table the conjunct outer-joins (`rrtindex`, set by the first `(+)` marker) and which
table preserves it (`lrtindex`, set by the first unmarked `Var`). A conjunct without a
marker stays `JOIN_INNER`, and its second unmarked table fills `rrtindex`.

- `getOraColumnJoinWalker`: the walker, one branch per node tag as in the source.
- `Expr.oraRefs`: the `Var`s and markers the walker meets, in visiting order;
  `getOraColumnJoinWalker_eq_foldlM` turns the walk into a fold of `oraWalkStep` over
  them.
- **`getOraColumnJoin_classification`**: when no table of the conjunct occurs both with
  and without a marker, the result depends only on the set `M` of marked tables and the
  set `U` of unmarked ones: it fails iff `OraFails M U`, is `JOIN_LEFT` onto the one
  marked table otherwise, and `JOIN_INNER` over `U` when nothing is marked.

The walker reads `varno` at every `varlevelsup`, so `U` counts outer-level tables too.
When a table occurs both marked and unmarked the visiting order decides
(`getOraColumnJoin_marked_after_plain`).
-/

namespace AntdbAnalyze

/-- `JoinExprInfo`. -/
structure JoinExprInfo where
  expr : Expr
  type : JoinType
  lrtindex : Nat
  rrtindex : Nat
  location : Int

/-- The error both the walker and the fuse step of `pullup_rel_for_join` raise. -/
def oneOuterJoinedError : ErrorData :=
  ⟨.syntaxError, "a predicate may reference only one outer-joined table"⟩

mutual
/-- `have_ora_column_join`: does the expression hold a `(+)` marker. -/
def haveOraColumnJoin : Expr → Bool
  | .columnRefJoin _ _ => true
  | .opExpr _ _ args => haveOraColumnJoinList args
  | .funcExpr _ args => haveOraColumnJoinList args
  | .boolExpr _ args => haveOraColumnJoinList args
  | _ => false

/-- `expression_tree_walker` of `have_ora_column_join` over an argument list. -/
def haveOraColumnJoinList : List Expr → Bool
  | [] => false
  | e :: es => haveOraColumnJoin e || haveOraColumnJoinList es
end

/-- The `ColumnRefJoin` branch of the walker: the first marker sets `JOIN_LEFT` and the
outer-joined table, a marker on another table fails. -/
def walkColumnRefJoin (info : JoinExprInfo) (v : Var) (location : Int) :
    Except ErrorData JoinExprInfo :=
  if info.rrtindex = 0 then
    .ok { info with type := .left, rrtindex := v.varno, location := location }
  else if info.rrtindex ≠ v.varno then .error oneOuterJoinedError
  else .ok info

/-- The `Var` branch of the walker: a new table fills `lrtindex`, then, while the conjunct
is `JOIN_INNER`, `rrtindex`; a further table fails. -/
def walkVar (info : JoinExprInfo) (v : Var) : Except ErrorData JoinExprInfo :=
  if info.lrtindex = v.varno ∨ info.rrtindex = v.varno then .ok info
  else if info.lrtindex = 0 then .ok { info with lrtindex := v.varno }
  else if info.rrtindex = 0 ∧ info.type = .inner then .ok { info with rrtindex := v.varno }
  else if info.rrtindex ≠ v.varno ∧ info.lrtindex ≠ v.varno then .error oneOuterJoinedError
  else .ok info

mutual
/-- `get_ora_column_join_walker`, threading the `JoinExprInfo` it updates in place. -/
def getOraColumnJoinWalker : Expr → JoinExprInfo → Except ErrorData JoinExprInfo
  | .columnRefJoin v location, info => walkColumnRefJoin info v location
  | .var v, info => walkVar info v
  | .opExpr _ _ args, info => getOraColumnJoinWalkerList args info
  | .funcExpr _ args, info => getOraColumnJoinWalkerList args info
  | .boolExpr _ args, info => getOraColumnJoinWalkerList args info
  | _, info => .ok info

/-- `expression_tree_walker` of the walker over an argument list, in order. -/
def getOraColumnJoinWalkerList : List Expr → JoinExprInfo → Except ErrorData JoinExprInfo
  | [], info => .ok info
  | e :: es, info => getOraColumnJoinWalker e info >>= getOraColumnJoinWalkerList es
end

/-- `get_ora_column_join`: classify one conjunct. The source leaves `location` unset
until a marker is met; the model starts it at `-1`. -/
def getOraColumnJoin (expr : Expr) : Except ErrorData JoinExprInfo :=
  getOraColumnJoinWalker expr ⟨expr, .inner, 0, 0, -1⟩

mutual
/-- `remove_column_join_expr`: replace every marker by the `Var` it wraps. -/
def removeColumnJoinExpr : Expr → Expr
  | .columnRefJoin v _ => .var v
  | .opExpr opno fid args => .opExpr opno fid (removeColumnJoinExprList args)
  | .funcExpr fid args => .funcExpr fid (removeColumnJoinExprList args)
  | .boolExpr op args => .boolExpr op (removeColumnJoinExprList args)
  | e => e

/-- `expression_tree_mutator` of `remove_column_join_expr` over an argument list. -/
def removeColumnJoinExprList : List Expr → List Expr
  | [] => []
  | e :: es => removeColumnJoinExpr e :: removeColumnJoinExprList es
end

mutual
/-- Stripping the markers leaves none. -/
theorem haveOraColumnJoin_removeColumnJoinExpr :
    ∀ e : Expr, haveOraColumnJoin (removeColumnJoinExpr e) = false
  | .columnRefJoin _ _ | .var _ | .const _ _ _ | .rownumExpr | .setToDefault _ _ _ => rfl
  | .opExpr _ _ args | .funcExpr _ args | .boolExpr _ args => by
    simp only [removeColumnJoinExpr, haveOraColumnJoin,
      haveOraColumnJoinList_removeColumnJoinExprList args]

/-- Stripping the markers of an argument list leaves none. -/
theorem haveOraColumnJoinList_removeColumnJoinExprList :
    ∀ es : List Expr, haveOraColumnJoinList (removeColumnJoinExprList es) = false
  | [] => rfl
  | e :: es => by
    simp only [removeColumnJoinExprList, haveOraColumnJoinList,
      haveOraColumnJoin_removeColumnJoinExpr e, haveOraColumnJoinList_removeColumnJoinExprList es,
      Bool.or_false]
end

/-! ## The walk as a fold -/

/-- A `Var` the walker meets, under a `(+)` marker or not. -/
inductive OraRef where
  | marked (v : Var) (location : Int)
  | plain (v : Var)

/-- One walker step on the reference met. -/
def oraWalkStep (info : JoinExprInfo) : OraRef → Except ErrorData JoinExprInfo
  | .marked v location => walkColumnRefJoin info v location
  | .plain v => walkVar info v

mutual
/-- The references of a conjunct in the walker's visiting order. -/
def Expr.oraRefs : Expr → List OraRef
  | .columnRefJoin v location => [.marked v location]
  | .var v => [.plain v]
  | .opExpr _ _ args => exprListOraRefs args
  | .funcExpr _ args => exprListOraRefs args
  | .boolExpr _ args => exprListOraRefs args
  | _ => []

/-- The references of an argument list, in order. -/
def exprListOraRefs : List Expr → List OraRef
  | [] => []
  | e :: es => e.oraRefs ++ exprListOraRefs es
end

mutual
theorem getOraColumnJoinWalker_eq_foldlM :
    ∀ (e : Expr) (info : JoinExprInfo),
      getOraColumnJoinWalker e info = e.oraRefs.foldlM oraWalkStep info
  | .columnRefJoin _ _, _ | .var _, _ => by
    simp only [getOraColumnJoinWalker, Expr.oraRefs, List.foldlM_cons, oraWalkStep,
      List.foldlM_nil, bind_pure]
  | .opExpr _ _ args, info => getOraColumnJoinWalkerList_eq_foldlM args info
  | .funcExpr _ args, info => getOraColumnJoinWalkerList_eq_foldlM args info
  | .boolExpr _ args, info => getOraColumnJoinWalkerList_eq_foldlM args info
  | .const _ _ _, _ => rfl
  | .rownumExpr, _ => rfl
  | .setToDefault _ _ _, _ => rfl

theorem getOraColumnJoinWalkerList_eq_foldlM :
    ∀ (es : List Expr) (info : JoinExprInfo),
      getOraColumnJoinWalkerList es info = (exprListOraRefs es).foldlM oraWalkStep info
  | [], _ => rfl
  | e :: es, info => by
    simp only [getOraColumnJoinWalkerList, exprListOraRefs, List.foldlM_append,
      getOraColumnJoinWalker_eq_foldlM e]
    congr 1
    funext info'
    exact getOraColumnJoinWalkerList_eq_foldlM es info'
end

/-! ## What the classification depends on -/

/-- The table a reference names under a marker, as a set. -/
def OraRef.markedRels : OraRef → Finset Nat
  | .marked v _ => {v.varno}
  | .plain _ => ∅

/-- The table a reference names without a marker, as a set. -/
def OraRef.plainRels : OraRef → Finset Nat
  | .marked _ _ => ∅
  | .plain v => {v.varno}

/-- The marked tables of a list of references. -/
def oraRefsMarked (refs : List OraRef) : Finset Nat :=
  refs.foldr (fun ref M => ref.markedRels ∪ M) ∅

/-- The unmarked tables of a list of references. -/
def oraRefsPlain (refs : List OraRef) : Finset Nat :=
  refs.foldr (fun ref U => ref.plainRels ∪ U) ∅

/-- `M`: the tables whose columns carry a `(+)` marker in the conjunct. -/
def oraMarkedRels (e : Expr) : Finset Nat := oraRefsMarked e.oraRefs

/-- `U`: the tables of the conjunct's unmarked `Var`s, at every `varlevelsup`. -/
def oraPlainRels (e : Expr) : Finset Nat := oraRefsPlain e.oraRefs

/-- When classifying a conjunct fails: two marked tables, one marked table beside two
unmarked ones, or three unmarked tables and no marker. -/
def OraFails (M U : Finset Nat) : Prop :=
  2 ≤ M.card ∨ (M.card = 1 ∧ 2 ≤ U.card) ∨ (M.card = 0 ∧ 3 ≤ U.card)

/-- The marked table a `JoinExprInfo` records. -/
def JoinExprInfo.markedRels (info : JoinExprInfo) : Finset Nat :=
  if info.type = .left then {info.rrtindex} else ∅

/-- The unmarked tables a `JoinExprInfo` records. -/
def JoinExprInfo.plainRels (info : JoinExprInfo) : Finset Nat :=
  Finset.erase (if info.type = .left then {info.lrtindex} else {info.lrtindex, info.rrtindex}) 0

/-- The shapes the walker leaves a `JoinExprInfo` in: `JOIN_LEFT` onto a table other
than the preserving one, or `JOIN_INNER` with `lrtindex` filled before `rrtindex`. -/
def JoinExprInfo.WellFormed (info : JoinExprInfo) : Prop :=
  (info.type = .left ∧ info.rrtindex ≠ 0 ∧ info.lrtindex ≠ info.rrtindex) ∨
  (info.type = .inner ∧ (info.lrtindex = 0 → info.rrtindex = 0) ∧
    (info.rrtindex ≠ 0 → info.lrtindex ≠ info.rrtindex))

/-- The outcome of classifying a conjunct `e` whose marked tables are `M` and unmarked
tables `U`: the one error when `OraFails M U`, else a well-formed record of `M` and `U`. -/
def OraClassified (M U : Finset Nat) (e : Expr) : Except ErrorData JoinExprInfo → Prop
  | .error err => err = oneOuterJoinedError ∧ OraFails M U
  | .ok info => info.WellFormed ∧ info.expr = e ∧ info.markedRels = M ∧ info.plainRels = U

theorem oraFails_mono {M U M' U' : Finset Nat} (hM : M ⊆ M') (hU : U ⊆ U')
    (h : OraFails M U) : OraFails M' U' := by
  have hm := Finset.card_le_card hM
  have hu := Finset.card_le_card hU
  unfold OraFails at *
  omega

@[simp] theorem JoinExprInfo.markedRels_left (e : Expr) (l r : Nat) (loc : Int) :
    (⟨e, .left, l, r, loc⟩ : JoinExprInfo).markedRels = {r} := rfl

@[simp] theorem JoinExprInfo.markedRels_inner (e : Expr) (l r : Nat) (loc : Int) :
    (⟨e, .inner, l, r, loc⟩ : JoinExprInfo).markedRels = ∅ := rfl

@[simp] theorem JoinExprInfo.plainRels_left (e : Expr) (l r : Nat) (loc : Int) :
    (⟨e, .left, l, r, loc⟩ : JoinExprInfo).plainRels = ({l} : Finset Nat).erase 0 := rfl

@[simp] theorem JoinExprInfo.plainRels_inner (e : Expr) (l r : Nat) (loc : Int) :
    (⟨e, .inner, l, r, loc⟩ : JoinExprInfo).plainRels = ({l, r} : Finset Nat).erase 0 := rfl

@[simp] theorem JoinExprInfo.wellFormed_left (e : Expr) (l r : Nat) (loc : Int) :
    (⟨e, .left, l, r, loc⟩ : JoinExprInfo).WellFormed ↔ r ≠ 0 ∧ l ≠ r := by
  simp [JoinExprInfo.WellFormed]

@[simp] theorem JoinExprInfo.wellFormed_inner (e : Expr) (l r : Nat) (loc : Int) :
    (⟨e, .inner, l, r, loc⟩ : JoinExprInfo).WellFormed ↔ (l = 0 → r = 0) ∧ (r ≠ 0 → l ≠ r) := by
  simp [JoinExprInfo.WellFormed]

@[simp] theorem oraClassified_ok (M U : Finset Nat) (e : Expr) (info : JoinExprInfo) :
    OraClassified M U e (.ok info) ↔
      info.WellFormed ∧ info.expr = e ∧ info.markedRels = M ∧ info.plainRels = U := Iff.rfl

@[simp] theorem oraClassified_error (M U : Finset Nat) (e : Expr) (err : ErrorData) :
    OraClassified M U e (.error err) ↔ err = oneOuterJoinedError ∧ OraFails M U := Iff.rfl

theorem two_le_card_of_mem {s : Finset Nat} {a b : Nat} (ha : a ∈ s) (hb : b ∈ s)
    (hab : a ≠ b) : 2 ≤ s.card :=
  Finset.one_lt_card_iff.mpr ⟨a, b, ha, hb, hab⟩

/-- The `ColumnRefJoin` step records a marked table not yet seen unmarked, or fails when
the record already holds another marked table or two unmarked ones. -/
theorem walkColumnRefJoin_classified {info : JoinExprInfo} (hwf : info.WellFormed) (v : Var)
    (loc : Int) (hv : v.varno ∉ info.plainRels) :
    OraClassified (info.markedRels ∪ {v.varno}) info.plainRels info.expr
      (walkColumnRefJoin info v loc) := by
  obtain ⟨expr, type, l, r, loc₀⟩ := info
  obtain ⟨x, _, _, _, _, _, hx⟩ := v
  rcases hwf with ⟨rfl, hr, hlr⟩ | ⟨rfl, hl0, hr0⟩
  · simp only [JoinExprInfo.plainRels_left, JoinExprInfo.markedRels_left] at hr hlr hv ⊢
    simp only [walkColumnRefJoin, if_neg hr]
    by_cases hrx : r = x
    · subst hrx
      simp [hr, hlr]
    · simp only [ne_eq, hrx, not_false_eq_true, if_true, oraClassified_error, true_and]
      exact Or.inl (two_le_card_of_mem (by simp) (by simp) hrx)
  · simp only [JoinExprInfo.plainRels_inner, JoinExprInfo.markedRels_inner, Finset.mem_erase,
      Finset.mem_insert, Finset.mem_singleton, not_and, Finset.empty_union] at hl0 hr0 hv ⊢
    simp only [walkColumnRefJoin]
    by_cases hr : r = 0
    · simp only [hr, if_true, oraClassified_ok, JoinExprInfo.wellFormed_left,
        JoinExprInfo.markedRels_left, JoinExprInfo.plainRels_left, true_and]
      refine ⟨⟨by omega, fun h => hv (by omega) (Or.inl h.symm)⟩, ?_⟩
      ext y; simp only [Finset.mem_erase, Finset.mem_insert, Finset.mem_singleton]; omega
    · have hrx : r ≠ x := fun h => hv (by omega) (Or.inr h.symm)
      simp only [hr, hrx, ne_eq, not_false_eq_true, if_true, if_false, oraClassified_error,
        true_and, Finset.card_singleton]
      refine Or.inr (Or.inl ⟨rfl, two_le_card_of_mem (a := l) (b := r) ?_ ?_ (hr0 hr)⟩) <;>
        simp only [Finset.mem_erase, Finset.mem_insert, Finset.mem_singleton, true_or, or_true,
          and_true] <;> omega

/-- The `Var` step records an unmarked table not yet seen marked, or fails when the
record already holds a marked table and an unmarked one, or two unmarked ones. -/
theorem walkVar_classified {info : JoinExprInfo} (hwf : info.WellFormed) (v : Var)
    (hv : v.varno ∉ info.markedRels) :
    OraClassified info.markedRels (info.plainRels ∪ {v.varno}) info.expr
      (walkVar info v) := by
  obtain ⟨expr, type, l, r, loc₀⟩ := info
  obtain ⟨x, _, _, _, _, _, hx⟩ := v
  rcases hwf with ⟨rfl, hr, hlr⟩ | ⟨rfl, hl0, hr0⟩
  · simp only [JoinExprInfo.plainRels_left, JoinExprInfo.markedRels_left,
      Finset.mem_singleton] at hr hlr hv ⊢
    simp only [walkVar, reduceCtorEq, and_false, if_false]
    by_cases hlx : l = x
    · subst hlx
      simp only [true_or, if_true, oraClassified_ok, JoinExprInfo.wellFormed_left,
        JoinExprInfo.markedRels_left, JoinExprInfo.plainRels_left, true_and]
      refine ⟨⟨hr, hlr⟩, ?_⟩
      ext y; simp only [Finset.mem_union, Finset.mem_erase, Finset.mem_singleton]; omega
    · have hrx : r ≠ x := Ne.symm hv
      simp only [hlx, hrx, or_self, if_false]
      by_cases hl : l = 0
      · simp only [hl, if_true, oraClassified_ok, JoinExprInfo.wellFormed_left,
          JoinExprInfo.markedRels_left, JoinExprInfo.plainRels_left, true_and]
        refine ⟨⟨hr, hv⟩, ?_⟩
        ext y; simp only [Finset.mem_union, Finset.mem_erase, Finset.mem_singleton]; omega
      · simp only [hl, ne_eq, hrx, hlx, not_false_eq_true, and_self, if_true, if_false,
          oraClassified_error, true_and, Finset.card_singleton]
        exact Or.inr (Or.inl ⟨rfl, two_le_card_of_mem (a := l) (b := x)
          (by simp only [Finset.mem_union, Finset.mem_erase, Finset.mem_singleton, and_true]; omega)
          (by simp) hlx⟩)
  · simp only [JoinExprInfo.plainRels_inner, JoinExprInfo.markedRels_inner] at hl0 hr0 hv ⊢
    simp only [walkVar, and_true]
    by_cases hin : l = x ∨ r = x
    · simp only [hin, if_true, oraClassified_ok, JoinExprInfo.wellFormed_inner,
        JoinExprInfo.markedRels_inner, JoinExprInfo.plainRels_inner, true_and]
      refine ⟨⟨hl0, hr0⟩, ?_⟩
      ext y; simp only [Finset.mem_union, Finset.mem_erase, Finset.mem_insert,
        Finset.mem_singleton]; omega
    · simp only [hin, if_false]
      by_cases hl : l = 0
      · simp only [hl, if_true, oraClassified_ok, JoinExprInfo.wellFormed_inner,
          JoinExprInfo.markedRels_inner, JoinExprInfo.plainRels_inner, true_and]
        refine ⟨⟨fun h => by omega, fun h => by omega⟩, ?_⟩
        ext y; simp only [Finset.mem_union, Finset.mem_erase, Finset.mem_insert,
          Finset.mem_singleton]; omega
      · by_cases hr : r = 0
        · simp only [hl, hr, if_true, if_false, oraClassified_ok, JoinExprInfo.wellFormed_inner,
            JoinExprInfo.markedRels_inner, JoinExprInfo.plainRels_inner, true_and]
          refine ⟨⟨False.elim, fun _ => by omega⟩, ?_⟩
          ext y; simp only [Finset.mem_union, Finset.mem_erase, Finset.mem_insert,
            Finset.mem_singleton]; omega
        · have hne : r ≠ x ∧ l ≠ x := by omega
          simp only [hl, hr, hne, ne_eq, not_false_eq_true, and_self, if_true, if_false,
            oraClassified_error, true_and, Finset.card_empty]
          refine Or.inr (Or.inr ⟨rfl, Finset.two_lt_card_iff.mpr
            ⟨l, r, x, ?_, ?_, ?_, hr0 hr, hne.2, hne.1⟩⟩) <;>
            simp only [Finset.mem_union, Finset.mem_erase, Finset.mem_insert,
            Finset.mem_singleton, true_or, or_true, and_true] <;> omega

/-- Step lemma: one walker step, with the reference's table on the side it was not yet
seen on, records it or fails exactly when the recorded sets reach `OraFails`. -/
theorem oraWalkStep_classified {info : JoinExprInfo} (hwf : info.WellFormed) (ref : OraRef)
    (hdisj : Disjoint (info.markedRels ∪ ref.markedRels) (info.plainRels ∪ ref.plainRels)) :
    OraClassified (info.markedRels ∪ ref.markedRels) (info.plainRels ∪ ref.plainRels)
      info.expr (oraWalkStep info ref) := by
  cases ref with
  | marked v loc =>
    have hv : v.varno ∉ info.plainRels := fun h =>
      Finset.disjoint_left.mp hdisj (show v.varno ∈ _ by simp [OraRef.markedRels])
        (show v.varno ∈ _ by simp [OraRef.plainRels, h])
    simpa [OraRef.markedRels, OraRef.plainRels, oraWalkStep] using
      walkColumnRefJoin_classified hwf v loc hv
  | plain v =>
    have hv : v.varno ∉ info.markedRels := fun h =>
      Finset.disjoint_left.mp hdisj (show v.varno ∈ _ by simp [OraRef.markedRels, h])
        (show v.varno ∈ _ by simp [OraRef.plainRels])
    simpa [OraRef.markedRels, OraRef.plainRels, oraWalkStep] using walkVar_classified hwf v hv

/-- Run lemma: the walk over a list of references from a well-formed record. -/
theorem foldlM_oraWalkStep_classified (refs : List OraRef) {info : JoinExprInfo}
    (hwf : info.WellFormed)
    (hdisj : Disjoint (info.markedRels ∪ oraRefsMarked refs) (info.plainRels ∪ oraRefsPlain refs)) :
    OraClassified (info.markedRels ∪ oraRefsMarked refs) (info.plainRels ∪ oraRefsPlain refs)
      info.expr (refs.foldlM oraWalkStep info) := by
  induction refs generalizing info with
  | nil =>
    show OraClassified _ _ _ (.ok info)
    simpa [oraRefsMarked, oraRefsPlain] using hwf
  | cons ref rest ih =>
    simp only [oraRefsMarked, oraRefsPlain, List.foldr_cons] at hdisj ⊢
    have hstep := oraWalkStep_classified hwf ref (hdisj.mono
      (Finset.union_subset_union_right Finset.subset_union_left)
      (Finset.union_subset_union_right Finset.subset_union_left))
    rw [List.foldlM_cons]
    cases h : oraWalkStep info ref with
    | error err =>
      rw [h] at hstep
      exact ⟨hstep.1, oraFails_mono (by rw [← Finset.union_assoc]; exact Finset.subset_union_left)
        (by rw [← Finset.union_assoc]; exact Finset.subset_union_left) hstep.2⟩
    | ok info₁ =>
      rw [h] at hstep
      obtain ⟨hwf₁, hexpr, hM, hU⟩ := hstep
      have hrest := ih hwf₁ (by rwa [hM, hU, Finset.union_assoc, Finset.union_assoc])
      rwa [hM, hU, hexpr, Finset.union_assoc, Finset.union_assoc] at hrest

/-- The walk fills the indexes, type and location of the record, never its conjunct. -/
theorem foldlM_oraWalkStep_expr (refs : List OraRef) {info info' : JoinExprInfo}
    (h : refs.foldlM oraWalkStep info = .ok info') : info'.expr = info.expr := by
  induction refs generalizing info with
  | nil => cases h; rfl
  | cons ref rest ih =>
    rw [List.foldlM_cons] at h
    cases hstep : oraWalkStep info ref with
    | error err => rw [hstep] at h; cases h
    | ok info₁ =>
      rw [hstep] at h
      have hexpr : info₁.expr = info.expr := by
        cases ref <;> simp only [oraWalkStep, walkColumnRefJoin, walkVar] at hstep <;>
          split_ifs at hstep <;> cases hstep <;> rfl
      exact (ih h).trans hexpr

/-- A classified conjunct is recorded as it is. -/
theorem getOraColumnJoin_expr {e : Expr} {info : JoinExprInfo}
    (h : getOraColumnJoin e = .ok info) : info.expr = e := by
  rw [getOraColumnJoin, getOraColumnJoinWalker_eq_foldlM] at h
  exact foldlM_oraWalkStep_expr _ h

/-- A well-formed record of at most one table leaves one of its indexes empty. -/
theorem JoinExprInfo.WellFormed.index_eq_zero {info : JoinExprInfo} (hwf : info.WellFormed)
    (hone : (info.markedRels ∪ info.plainRels).card ≤ 1) :
    info.lrtindex = 0 ∨ info.rrtindex = 0 := by
  obtain ⟨expr, type, l, r, loc⟩ := info
  by_contra hne
  push_neg at hne
  rcases hwf with ⟨rfl, -, hlr⟩ | ⟨rfl, -, hlr⟩
  · exact hlr (Finset.card_le_one.mp hone l (by simp [hne.1]) r (by simp))
  · exact hlr hne.2 (Finset.card_le_one.mp hone l (by simp [hne.1]) r (by simp [hne.2]))

/-- `getOraColumnJoin` on a conjunct whose marked and unmarked tables are disjoint. -/
theorem getOraColumnJoin_classified (e : Expr)
    (hdisj : Disjoint (oraMarkedRels e) (oraPlainRels e)) :
    OraClassified (oraMarkedRels e) (oraPlainRels e) e (getOraColumnJoin e) := by
  have h := @foldlM_oraWalkStep_classified e.oraRefs ⟨e, .inner, 0, 0, -1⟩
    (by simp) (by simpa [oraMarkedRels, oraPlainRels] using hdisj)
  rw [getOraColumnJoin, getOraColumnJoinWalker_eq_foldlM]
  simpa [oraMarkedRels, oraPlainRels] using h

/-- A conjunct of at most one table, never both marked and unmarked, is classified with
an index left empty. -/
theorem getOraColumnJoin_oneTable {e : Expr}
    (hdisj : Disjoint (oraMarkedRels e) (oraPlainRels e))
    (hone : (oraMarkedRels e ∪ oraPlainRels e).card ≤ 1) :
    ∃ info, getOraColumnJoin e = .ok info ∧ (info.lrtindex = 0 ∨ info.rrtindex = 0) := by
  have h := getOraColumnJoin_classified e hdisj
  have hM := (Finset.card_le_card Finset.subset_union_left).trans hone
  have hU := (Finset.card_le_card Finset.subset_union_right).trans hone
  cases hres : getOraColumnJoin e with
  | error err => rw [hres] at h; exact absurd h.2 (by unfold OraFails; omega)
  | ok info =>
    rw [hres] at h
    obtain ⟨hwf, -, hMi, hUi⟩ := h
    exact ⟨info, rfl, hwf.index_eq_zero (by rwa [hMi, hUi])⟩

end AntdbAnalyze