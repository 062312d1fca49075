import AntdbAnalyze.Rownum.Rewrite
import AntdbAnalyze.OuterJoin.Meaning

/-!
# What the ROWNUM rewrite does to the rows of a query

Under Oracle semantics `ROWNUM` numbers the rows that pass WHERE: a candidate row sees
`ROWNUM` = 1 + the number of rows accepted before it (`rownumFilter`). The rewrite replaces
`ROWNUM` conjuncts by a LIMIT on the rows the rest of the WHERE accepts.

- `rownumFilter_of_bounded`: a WHERE whose `ROWNUM` part holds up to `m` and fails at
  `m + 1` accepts the first `m` rows the rest accepts;
- `rewriteRownumConjunct_meaning`: each action of the loop body says what the conjunct
  means (`RownumActionMeaning`), when the operators read by name mean what their names
  say (`UsualMeaning`);
- **`rewriteRownumQuery_oracleSelect`**: the rewritten query returns what the query
  returns under Oracle semantics, for every output stage that commutes with taking a
  prefix of its input (a target list does; aggregation, grouping, DISTINCT and ORDER BY
  do not, `rewriteRownumQuery_count_differs`).
-/

namespace AntdbAnalyze

/-- Oracle ROWNUM semantics: a candidate is numbered 1 + the candidates accepted before
it, and accepted when `accept` holds at that number. -/
def rownumFilter {α : Type} (accept : Nat → α → Bool) : Nat → List α → List α
  | _, [] => []
  | accepted, x :: rest =>
    if accept (accepted + 1) x then x :: rownumFilter accept (accepted + 1) rest
    else rownumFilter accept accepted rest

/-- The value of a LIMIT or OFFSET expression, which has no column to read. -/
def limitValue (sem : ExprSem) (e : Expr) : Option Int :=
  e.eval sem (fun _ => none) 0

/-- OFFSET, then LIMIT; a NULL or absent count keeps every row. -/
def applyLimitOffset {α : Type} (sem : ExprSem) (limitOffset limitCount : Option Expr)
    (rows : List α) : List α :=
  let rows := match limitOffset.bind (limitValue sem) with
    | some v => rows.drop v.toNat
    | none => rows
  match limitCount.bind (limitValue sem) with
  | some v => rows.take v.toNat
  | none => rows

@[simp] theorem applyLimitOffset_none {α : Type} (sem : ExprSem) (rows : List α) :
    applyLimitOffset sem none none rows = rows := rfl

theorem applyLimitOffset_some {α : Type} {sem : ExprSem} {count : Expr} {v : Int}
    (hv : limitValue sem count = some v) (rows : List α) :
    applyLimitOffset sem none (some count) rows = rows.take v.toNat := by
  simp [applyLimitOffset, hv]

/-- The rows a SELECT level returns under Oracle semantics: the rows of its FROM list,
filtered by its WHERE with `ROWNUM` numbering the rows accepted, passed through `output`
(the target list and whatever else of the level comes after WHERE), then cut by OFFSET
and LIMIT. -/
def oracleSelect {α : Type} (sem : ExprSem) (db : Database) (output : List Row → List α)
    (query : Query) : List α :=
  match query.jointree with
  | some (.fromExpr fromlist quals) =>
    applyLimitOffset sem query.limitOffset query.limitCount
      (output (rownumFilter (fun n => qualHolds sem n quals) 0 (crossRows sem db fromlist)))
  | _ => []

/-! ## Counting accepted rows -/

section Filter

variable {α : Type} {accept : Nat → α → Bool} {p : α → Bool}

/-- A WHERE whose `ROWNUM` part holds from 1 to `m` and fails at `m + 1` accepts the first
`m` rows the rest accepts: once `m` rows are in, every candidate sees `m + 1`. -/
theorem rownumFilter_of_bounded {m : Nat}
    (hin : ∀ n x, 1 ≤ n → n ≤ m → accept n x = p x) (hout : ∀ x, accept (m + 1) x = false) :
    ∀ (xs : List α) (accepted : Nat), accepted ≤ m →
      rownumFilter accept accepted xs = (xs.filter p).take (m - accepted)
  | [], _, _ => by simp [rownumFilter]
  | x :: rest, accepted, hle => by
    rcases Nat.lt_or_eq_of_le hle with hlt | rfl
    · have ih := rownumFilter_of_bounded hin hout rest
      rw [rownumFilter, hin _ _ (by omega) (by omega)]
      by_cases hx : p x
      · rw [if_pos hx, ih (accepted + 1) (by omega), List.filter_cons_of_pos hx,
          show m - accepted = m - (accepted + 1) + 1 by omega, List.take_succ_cons]
      · rw [if_neg hx, ih accepted hle, List.filter_cons_of_neg hx]
    · rw [rownumFilter, hout, if_neg Bool.false_ne_true,
        rownumFilter_of_bounded hin hout rest accepted le_rfl, Nat.sub_self, List.take_zero,
        List.take_zero]

/-- A WHERE whose `ROWNUM` part always holds accepts what the rest accepts. -/
theorem rownumFilter_of_forall (h : ∀ n x, 1 ≤ n → accept n x = p x) :
    ∀ (xs : List α) (accepted : Nat), rownumFilter accept accepted xs = xs.filter p
  | [], _ => rfl
  | x :: rest, accepted => by
    rw [rownumFilter, h _ _ (by omega)]
    by_cases hx : p x
    · rw [if_pos hx, rownumFilter_of_forall h rest, List.filter_cons_of_pos hx]
    · rw [if_neg hx, rownumFilter_of_forall h rest, List.filter_cons_of_neg hx]

end Filter

/-! ## Expressions without `ROWNUM` -/

mutual
/-- An expression without `ROWNUM` has one value whatever `ROWNUM` is. -/
theorem eval_of_not_containRownum (sem : ExprSem) (row : Row) :
    ∀ e : Expr, containRownum e = false → ∀ n n' : Int, e.eval sem row n = e.eval sem row n'
  | .var _, _, _, _ => rfl
  | .columnRefJoin _ _, _, _, _ => rfl
  | .const _ _ _, _, _, _ => rfl
  | .opExpr _ _ args, h, n, n' => by
    simp only [Expr.eval, exprListEval_of_not_containRownum sem row args h n n']
  | .funcExpr _ args, h, n, n' => by
    simp only [Expr.eval, exprListEval_of_not_containRownum sem row args h n n']
  | .boolExpr op args, h, n, n' => by
    cases op <;> simp only [Expr.eval, exprListEval_of_not_containRownum sem row args h n n']
  | .rownumExpr, h, _, _ => by simp [containRownum] at h
  | .setToDefault _ _ _, _, _, _ => rfl

/-- The list form of `eval_of_not_containRownum`. -/
theorem exprListEval_of_not_containRownum (sem : ExprSem) (row : Row) :
    ∀ es : List Expr, containRownumList es = false →
      ∀ n n' : Int, exprListEval sem row n es = exprListEval sem row n' es
  | [], _, _, _ => rfl
  | e :: es, h, n, n' => by
    simp only [containRownumList, Bool.or_eq_false_iff] at h
    simp only [exprListEval, eval_of_not_containRownum sem row e h.1 n n',
      exprListEval_of_not_containRownum sem row es h.2 n n']
end

/-! ## What the loop body says of a conjunct -/

/-- What the rewrite takes for granted about what it reads from the catalog: a comparison
means what its name says on integers, a commutator computes the same with the operands
swapped, a function implementing an operator computes what the operator does, and
`makeMinus` subtracts. -/
structure UsualMeaning (sem : ExprSem) (catalog : List PgOperator)
    (makeMinus : Expr → Expr → Option Expr) : Prop where
  comparison : ∀ opno name, getOpname catalog opno = some name → name ∈ comparisonNames →
    sem.oper opno = usualOper name
  commutator : ∀ opno, getCommutator catalog opno ≠ 0 →
    ∀ a b, sem.oper (getCommutator catalog opno) [a, b] = sem.oper opno [b, a]
  function : ∀ funcid, getOperatorForFunction catalog funcid ≠ 0 →
    sem.func funcid = sem.oper (getOperatorForFunction catalog funcid)
  minus : ∀ l r count, makeMinus l r = some count → ∀ row n,
    count.eval sem row n = match l.eval sem row n, r.eval sem row n with
      | some a, some b => some (a - b)
      | _, _ => none

/-- What an action of the loop body says of the conjunct's truth `holds row n` on a row
whose `ROWNUM` is `n`: a dropped conjunct holds from 1 on, a
limit `m` holds from 1 to `m` and fails at `m + 1`, and `noRows` fails at 1. -/
def RownumActionMeaning (sem : ExprSem) (holds : Row → Nat → Bool) : RownumAction → Prop
  | .abandon => True
  | .hint => ∀ row n, 1 ≤ n → holds row n
  | .limit count => ∃ m : Nat, limitValue sem count = some (m : Int) ∧
      (∀ row n, 1 ≤ n → n ≤ m → holds row n) ∧ ∀ row, holds row (m + 1) = false
  | .noRows => ∀ row, holds row 1 = false

@[simp] theorem datumIsTrue_boolDatum (b : Bool) : datumIsTrue (boolDatum b) = b := by
  cases b <;> rfl

theorem eval_of_constGetInt64 {r : Expr} {v : Int} (h : constGetInt64 r = some v)
    (sem : ExprSem) (row : Row) (n : Int) : r.eval sem row n = some v := by
  unfold constGetInt64 at h
  split at h
  · split_ifs at h
    cases h
    rfl
  · cases h

section Meaning

variable {sem : ExprSem} {catalog : List PgOperator} {makeMinus : Expr → Expr → Option Expr}

theorem limitValue_minusOne (hmean : UsualMeaning sem catalog makeMinus) {r count : Expr}
    {v : Int} (hc : constGetInt64 r = some v) (hm : makeMinus r (makeInt8Const 1) = some count) :
    limitValue sem count = some (v - 1) := by
  rw [limitValue, hmean.minus r _ count hm, eval_of_constGetInt64 hc]
  rfl

/-- The limit `r - 1` means a comparison with the constant `r = v ≥ 1` that, from 1 to `v`,
holds exactly below `v`. -/
theorem minusOne_meaning (hmean : UsualMeaning sem catalog makeMinus) {r : Expr} {v : Int}
    (hc : constGetInt64 r = some v) (hv : 1 ≤ v) {holds : Row → Nat → Bool}
    (hholds : ∀ row (n : Nat), 1 ≤ n → (n : Int) ≤ v → (holds row n ↔ (n : Int) < v)) :
    RownumActionMeaning sem holds (match makeMinus r (makeInt8Const 1) with
      | some count => .limit count
      | none => .abandon) := by
  cases hm : makeMinus r (makeInt8Const 1) with
  | none => trivial
  | some count =>
    refine ⟨(v - 1).toNat, ?_, fun row n h1 h2 => (hholds row n h1 (by omega)).mpr (by omega),
      fun row => Bool.eq_false_iff.mpr fun h => ?_⟩
    · rw [limitValue_minusOne hmean hc hm, Int.toNat_of_nonneg (by omega)]
    · have := (hholds row _ (by omega) (by omega)).mp h
      omega

/-- Step lemma of the loop body: what `rownumComparison` decides is what the comparison
`ROWNUM name r` means. -/
theorem rownumComparison_meaning (hmean : UsualMeaning sem catalog makeMinus) {opno : Oid}
    {name : String} (hname : getOpname catalog opno = some name) (r : Expr) :
    RownumActionMeaning sem (fun row n => datumIsTrue (sem.oper opno [some (n : Int), r.eval sem row n]))
      (rownumComparison makeMinus name r) := by
  have hop := hmean.comparison opno name hname
  unfold rownumComparison
  by_cases hlt : name.front = '<'
  · rw [if_pos hlt]
    cases hc : constGetInt64 r with
    | none => trivial
    | some v =>
      have hr := eval_of_constGetInt64 hc sem
      dsimp only
      by_cases hle : name = "<="
      · subst hle
        have hop := hop (by decide)
        rw [if_pos rfl]
        split_ifs with hv
        · intro row; simp [hop, hr, usualOper]; omega
        · refine ⟨v.toNat, ?_, fun row n h1 h2 => ?_, fun row => ?_⟩
          · simp [limitValue, hr, Int.toNat_of_nonneg (by omega : 0 ≤ v)]
          all_goals simp [hop, hr, usualOper]; omega
      · rw [if_neg hle]
        by_cases hlt' : name = "<"
        · subst hlt'
          have hop := hop (by decide)
          rw [if_pos rfl]
          split_ifs with hv
          · intro row; simp [hop, hr, usualOper]; omega
          · exact minusOne_meaning hmean hc (by omega) fun row n _ _ => by
              simp [hop, hr, usualOper]
        · rw [if_neg hlt']
          by_cases hne : name = "<>"
          · subst hne
            have hop := hop (by decide)
            rw [if_pos rfl]
            split_ifs with hv
            · intro row n h1; simp [hop, hr, usualOper]; omega
            · exact minusOne_meaning hmean hc (by omega) fun row n _ h2 => by
                simp [hop, hr, usualOper]; omega
          · rw [if_neg hne]; trivial
  · rw [if_neg hlt]
    by_cases hgt : name.front = '>'
    · rw [if_pos hgt]
      cases hc : constGetInt64 r with
      | none => trivial
      | some v =>
        have hr := eval_of_constGetInt64 hc sem
        dsimp only
        split_ifs with hge hv hgt' hv'
        · subst hge hv
          intro row n h1; simp [hop (by decide), hr, usualOper]; omega
        · trivial
        · subst hgt' hv'
          intro row n h1; simp [hop (by decide), hr, usualOper]; omega
        all_goals trivial
    · rw [if_neg hgt]
      split_ifs with heq hrow
      · subst heq
        cases r with
        | rownumExpr => intro row n h1; simp [hop (by decide), Expr.eval, usualOper]
        | _ => simp [Expr.isRownum] at hrow
      all_goals trivial

/-- The meaning of an action carries over to a truth function that agrees everywhere. -/
theorem RownumActionMeaning.congr {holds holds' : Row → Nat → Bool}
    (heq : ∀ row n, holds row n = holds' row n) {a : RownumAction}
    (ha : RownumActionMeaning sem holds a) : RownumActionMeaning sem holds' a := by
  have : holds = holds' := funext fun row => funext fun n => heq row n
  exact this ▸ ha

theorem eq_rownumExpr_of_isRownum {e : Expr} (h : e.isRownum) : e = .rownumExpr := by
  cases e <;> simp_all [Expr.isRownum]

/-- The loop body once the operator is known means what it decides. -/
theorem rownumOperator_meaning (hmean : UsualMeaning sem catalog makeMinus) (opno : Oid)
    (l r : Expr) :
    RownumActionMeaning sem
      (fun row n => datumIsTrue (sem.oper opno [l.eval sem row n, r.eval sem row n]))
      (rownumOperator catalog makeMinus opno l r) := by
  unfold rownumOperator
  split_ifs with h0 hl
  · trivial
  · trivial
  · obtain rfl := eq_rownumExpr_of_isRownum (by simpa using hl)
    cases hname : getOpname catalog opno with
    | none => trivial
    | some name => exact (rownumComparison_meaning hmean hname r).congr fun row n => rfl

/-- The loop body on an operator call means what it decides, `F` being what the call
computes: the operator's, or the function's operator's, meaning. -/
theorem rewriteRownumCall_meaning (hmean : UsualMeaning sem catalog makeMinus)
    (opno funcid : Oid) (l r : Expr) (F : List Datum → Datum)
    (hF : (if opno = 0 then getOperatorForFunction catalog funcid else opno) ≠ 0 →
      F = sem.oper (if opno = 0 then getOperatorForFunction catalog funcid else opno)) :
    RownumActionMeaning sem (fun row n => datumIsTrue (F [l.eval sem row n, r.eval sem row n]))
      (rewriteRownumCall catalog makeMinus opno funcid l r) := by
  unfold rewriteRownumCall
  generalize (if opno = 0 then getOperatorForFunction catalog funcid else opno) = op at hF ⊢
  dsimp only
  split_ifs with hboth h0 hr
  · trivial
  · trivial
  · obtain rfl := eq_rownumExpr_of_isRownum hr
    by_cases hc : getCommutator catalog op = 0
    · simp [rownumOperator, hc, RownumActionMeaning]
    · exact (rownumOperator_meaning hmean _ .rownumExpr l).congr fun row n => by
        simp [hF h0, Expr.eval, hmean.commutator op hc]
  · exact (rownumOperator_meaning hmean op l r).congr fun row n => by rw [hF h0]

theorem eval_of_operatorCall {e : Expr} {opno funcid : Oid} {args : List Expr}
    (h : operatorCall e = some (opno, funcid, args)) (sem : ExprSem) (row : Row) (n : Int) :
    e.eval sem row n = (if opno = 0 then sem.func funcid else sem.oper opno)
      (exprListEval sem row n args) := by
  unfold operatorCall at h
  split at h <;> cases h
  · simp only [Expr.eval]
    split_ifs <;> rfl
  · simp [Expr.eval]

/-- **Step lemma of the loop**: every action the loop body takes on a conjunct means what
`RownumActionMeaning` says of the conjunct. -/
theorem rewriteRownumConjunct_meaning (hmean : UsualMeaning sem catalog makeMinus) (e : Expr) :
    RownumActionMeaning sem (fun row n => e.holds sem row n)
      (rewriteRownumConjunct catalog makeMinus e) := by
  unfold rewriteRownumConjunct
  split
  · next opno funcid l r he =>
    refine (rewriteRownumCall_meaning hmean opno funcid l r
      (if opno = 0 then sem.func funcid else sem.oper opno) fun h0 => ?_).congr
      fun row n => by simp [Expr.holds, eval_of_operatorCall he, exprListEval]
    by_cases hop : opno = 0
    · simp only [hop, if_true] at h0 ⊢
      exact hmean.function funcid h0
    · simp only [hop, if_false]
  · trivial

/-! ## The loop -/

/-- What the limit found so far says of the `ROWNUM` part `holds` of the conjuncts seen: it
is read as the action that set it, and no limit as a conjunct dropped. -/
def LimitMeaning (sem : ExprSem) (limitCount : Option Expr) (holds : Row → Nat → Bool) : Prop :=
  match limitCount with
  | none => RownumActionMeaning sem holds .hint
  | some count => RownumActionMeaning sem holds (.limit count)

theorem LimitMeaning.congr {limitCount : Option Expr} {holds holds' : Row → Nat → Bool}
    (heq : ∀ row n, holds row n = holds' row n) (h : LimitMeaning sem limitCount holds) :
    LimitMeaning sem limitCount holds' := by
  unfold LimitMeaning at h ⊢
  cases limitCount <;> exact RownumActionMeaning.congr heq h

/-- ANDing in a conjunct that holds from 1 on keeps what the limit says. -/
theorem LimitMeaning.and_hint {limitCount : Option Expr} {holds holds' : Row → Nat → Bool}
    (h : LimitMeaning sem limitCount holds) (h' : RownumActionMeaning sem holds' .hint) :
    LimitMeaning sem limitCount (fun row n => holds row n && holds' row n) := by
  cases limitCount with
  | none => intro row n hn; simp [h row n hn, h' row n hn]
  | some count =>
    obtain ⟨m, hv, hin, hout⟩ := h
    exact ⟨m, hv, fun row n h1 h2 => by simp [hin row n h1 h2, h' row n h1],
      fun row => by simp [hout row]⟩

/-- ANDing in the first limit makes it the limit. -/
theorem LimitMeaning.and_limit {holds holds' : Row → Nat → Bool} {count : Expr}
    (h : LimitMeaning sem none holds) (h' : RownumActionMeaning sem holds' (.limit count)) :
    LimitMeaning sem (some count) (fun row n => holds row n && holds' row n) := by
  obtain ⟨m, hv, hin, hout⟩ := h'
  exact ⟨m, hv, fun row n h1 h2 => by simp [h row n h1, hin row n h1 h2],
    fun row => by simp [hout row]⟩

/-- **Run lemma of the loop**: a loop that gets to the end keeps the conjuncts without
`ROWNUM`, in order, and its limit says what the `ROWNUM` conjuncts mean together. -/
theorem rewriteRownumLoop_rewritten (hmean : UsualMeaning sem catalog makeMinus) :
    ∀ (conjuncts : List Expr) {limitCount₀ limitCount : Option Expr} {kept₀ kept : List Expr}
      {holds₀ : Row → Nat → Bool},
      rewriteRownumLoop catalog makeMinus limitCount₀ kept₀ conjuncts =
        .rewritten limitCount kept →
      LimitMeaning sem limitCount₀ holds₀ →
      kept = kept₀ ++ conjuncts.filter (!containRownum ·) ∧
        LimitMeaning sem limitCount fun row n =>
          holds₀ row n && (conjuncts.filter containRownum).all (·.holds sem row n)
  | [], _, _, _, _, _, h, hl => by
    cases h
    exact ⟨by simp, hl.congr fun row n => by simp⟩
  | e :: rest, limitCount₀, _, kept₀, _, holds₀, h, hl => by
    unfold rewriteRownumLoop at h
    by_cases hc : containRownum e
    · rw [if_neg (by simp [hc])] at h
      have hmeaning := rewriteRownumConjunct_meaning hmean e
      cases ha : rewriteRownumConjunct catalog makeMinus e with
      | abandon => rw [ha] at h; cases h
      | noRows => rw [ha] at h; cases h
      | hint =>
        rw [ha] at h hmeaning
        obtain ⟨hk, hm⟩ := rewriteRownumLoop_rewritten hmean rest h (hl.and_hint hmeaning)
        exact ⟨by simp [hk, List.filter_cons, hc],
          hm.congr fun row n => by simp [List.filter_cons, hc, Bool.and_assoc]⟩
      | limit count =>
        rw [ha] at h hmeaning
        cases limitCount₀ with
        | some _ => cases h
        | none =>
          obtain ⟨hk, hm⟩ := rewriteRownumLoop_rewritten hmean rest h (hl.and_limit hmeaning)
          exact ⟨by simp [hk, List.filter_cons, hc],
            hm.congr fun row n => by simp [List.filter_cons, hc, Bool.and_assoc]⟩
    · rw [if_pos (by simp [hc])] at h
      obtain ⟨hk, hm⟩ := rewriteRownumLoop_rewritten hmean rest h hl
      exact ⟨by simp [hk, List.filter_cons, hc], hm.congr fun row n => by simp [List.filter_cons, hc]⟩

/-- A loop that stops with no rows met a conjunct the body decided so. -/
theorem rewriteRownumLoop_noRows :
    ∀ (conjuncts : List Expr) {limitCount₀ : Option Expr} {kept₀ : List Expr},
      rewriteRownumLoop catalog makeMinus limitCount₀ kept₀ conjuncts = .noRows →
      ∃ e ∈ conjuncts, rewriteRownumConjunct catalog makeMinus e = .noRows
  | [], _, _, h => by cases h
  | e :: rest, limitCount₀, kept₀, h => by
    unfold rewriteRownumLoop at h
    have hrest : ∀ {limitCount kept}, rewriteRownumLoop catalog makeMinus limitCount kept rest =
        .noRows → ∃ e' ∈ e :: rest, rewriteRownumConjunct catalog makeMinus e' = .noRows :=
      fun h' => let ⟨e', he', h''⟩ := rewriteRownumLoop_noRows rest h'
        ⟨e', List.mem_cons_of_mem e he', h''⟩
    by_cases hc : containRownum e
    · rw [if_neg (by simp [hc])] at h
      cases ha : rewriteRownumConjunct catalog makeMinus e with
      | noRows => exact ⟨e, List.mem_cons_self e rest, ha⟩
      | abandon => rw [ha] at h; cases h
      | hint => rw [ha] at h; exact hrest h
      | limit count =>
        simp only [ha] at h
        split_ifs at h
        exact hrest h
    · rw [if_pos (by simp [hc])] at h
      exact hrest h

/-! ## The query -/

/-- Conjuncts without `ROWNUM` hold on a row whatever `ROWNUM` is. -/
theorem all_holds_of_not_containRownum (sem : ExprSem) (kept : List Expr)
    (hkept : ∀ e ∈ kept, containRownum e = false) (row : Row) (n n' : Int) :
    kept.all (·.holds sem row n) = kept.all (·.holds sem row n') := by
  induction kept with
  | nil => rfl
  | cons e rest ih =>
    rw [List.forall_mem_cons] at hkept
    rw [List.all_cons, List.all_cons, ih hkept.2]
    simp only [Expr.holds, eval_of_not_containRownum sem row e hkept.1 n n']

/-- An output stage that commutes with taking a prefix maps no rows to no rows. -/
theorem output_nil {α : Type} {output : List Row → List α}
    (houtput : ∀ k rows, output (rows.take k) = (output rows).take k) : output [] = [] := by
  simpa using houtput 0 []

/-- A WHERE whose `ROWNUM` part means what the limit says returns the rows the rest of it
accepts, cut by that limit: the LIMIT does the work of the `ROWNUM` conjuncts. -/
theorem applyLimitOffset_filter {α : Type} {output : List Row → List α}
    (houtput : ∀ k rows, output (rows.take k) = (output rows).take k)
    {limitCount : Option Expr} {holds : Row → Nat → Bool} {accept : Nat → Row → Bool}
    {p : Row → Bool} (hlimit : LimitMeaning sem limitCount holds)
    (haccept : ∀ n row, accept n row = (holds row n && p row)) (rows : List Row) :
    applyLimitOffset sem none limitCount (output (rows.filter p)) =
      output (rownumFilter accept 0 rows) := by
  cases limitCount with
  | none =>
    rw [applyLimitOffset_none, rownumFilter_of_forall fun n row h1 => by
      rw [haccept, hlimit row n h1, Bool.true_and]]
  | some count =>
    obtain ⟨m, hv, hin, hout⟩ := hlimit
    rw [applyLimitOffset_some hv, Int.toNat_natCast, ← houtput,
      rownumFilter_of_bounded (fun n row h1 h2 => by rw [haccept, hin row n h1 h2, Bool.true_and])
        (fun row => by rw [haccept, hout, Bool.false_and]) _ 0 (Nat.zero_le m), Nat.sub_zero]

/-- A loop that stops with no rows lets no row through its conjuncts under Oracle
semantics: one of them fails at `ROWNUM` = 1. -/
theorem rownumFilter_of_noRows (hmean : UsualMeaning sem catalog makeMinus)
    {conjuncts : List Expr}
    (h : rewriteRownumLoop catalog makeMinus none [] conjuncts = .noRows) (rows : List Row) :
    rownumFilter (fun n row => conjuncts.all (·.holds sem row n)) 0 rows = [] := by
  obtain ⟨e, he, hnone⟩ := rewriteRownumLoop_noRows _ h
  have hmeaning := rewriteRownumConjunct_meaning hmean e
  rw [hnone] at hmeaning
  rw [rownumFilter_of_bounded (p := fun _ => false) (m := 0) (fun n x h1 h2 => by omega)
    (fun row => List.all_eq_false.mpr ⟨e, he, by simpa using hmeaning row⟩) _ 0 le_rfl]
  rfl

/-- The WHERE a completed loop leaves has no `ROWNUM`: Oracle semantics filters by it
as a plain filter does, at any `ROWNUM`. -/
theorem rownumFilter_keptQuals_of_rewritten (hmean : UsualMeaning sem catalog makeMinus)
    {conjuncts : List Expr} {limitCount : Option Expr} {kept : List Expr}
    (h : rewriteRownumLoop catalog makeMinus none [] conjuncts = .rewritten limitCount kept)
    (rownum : Int) (rows : List Row) :
    rownumFilter (fun n => qualHolds sem n (keptQuals kept)) 0 rows =
      rows.filter (qualHolds sem rownum (keptQuals kept)) := by
  obtain ⟨rfl, -⟩ := rewriteRownumLoop_rewritten hmean _ h
    (show LimitMeaning sem none fun _ _ => true from fun _ _ _ => rfl)
  have hP := all_holds_of_not_containRownum sem ([] ++ conjuncts.filter (!containRownum ·))
    (fun e he => by simp at he; exact he.2)
  exact rownumFilter_of_forall (fun n row _ => by rw [qualHolds_keptQuals, qualHolds_keptQuals,
    hP row n rownum]) _ _

/-- **What a completed loop leaves means.** Cut by the limit the loop found, the rows the
WHERE it leaves accepts, at any `ROWNUM`, are the rows the conjuncts accept under Oracle
semantics, through any output stage that commutes with taking a prefix. -/
theorem rownumFilter_of_rewritten (hmean : UsualMeaning sem catalog makeMinus)
    {conjuncts : List Expr} {limitCount : Option Expr} {kept : List Expr}
    (h : rewriteRownumLoop catalog makeMinus none [] conjuncts = .rewritten limitCount kept)
    {α : Type} {output : List Row → List α}
    (houtput : ∀ k rows, output (rows.take k) = (output rows).take k) (rownum : Int)
    (rows : List Row) :
    applyLimitOffset sem none limitCount (output (rows.filter (qualHolds sem rownum (keptQuals kept)))) =
      output (rownumFilter (fun n row => conjuncts.all (·.holds sem row n)) 0 rows) := by
  obtain ⟨rfl, hlimit⟩ := rewriteRownumLoop_rewritten hmean _ h
    (show LimitMeaning sem none fun _ _ => true from fun _ _ _ => rfl)
  have hP := all_holds_of_not_containRownum sem (conjuncts.filter (!containRownum ·))
    (fun e he => by simpa using (List.mem_filter.mp he).2)
  refine applyLimitOffset_filter houtput hlimit (fun n row => ?_) rows
  rw [← all_filter_and_all_filter_not containRownum _ conjuncts, List.nil_append,
    qualHolds_keptQuals, hP row n rownum, Bool.true_and]

/-- **The ROWNUM rewrite keeps the rows of a query.** For every query and every database,
the query `rewrite_rownum_query` returns gives, under Oracle semantics, the rows the query
gives, provided `canonicalize_qual` keeps the meaning of a WHERE, the catalog's operators
mean what their names say (`UsualMeaning`), and the output stage of the query commutes
with taking a prefix of its input rows, as a target list does. -/
theorem rewriteRownumQuery_oracleSelect {α : Type} (canonicalizeQual : Expr → Expr)
    (hcanon : ∀ sem row rownum e,
      (canonicalizeQual e).holds sem row rownum = e.holds sem row rownum)
    (hmean : UsualMeaning sem catalog makeMinus) (db : Database) (output : List Row → List α)
    (houtput : ∀ k rows, output (rows.take k) = (output rows).take k) (query : Query) :
    oracleSelect sem db output (rewriteRownumQuery canonicalizeQual catalog makeMinus query) =
      oracleSelect sem db output query := by
  unfold rewriteRownumQuery
  split
  · next fromlist quals hjt =>
    split_ifs with hskip
    · rfl
    simp only [Bool.or_eq_true, not_or, Option.not_isSome_iff_eq_none] at hskip
    obtain ⟨⟨hoff, hcount⟩, -⟩ := hskip
    rw [show oracleSelect sem db output query = output (rownumFilter
        (fun n => qualHolds sem n (some quals)) 0 (crossRows sem db fromlist)) by
      simp [oracleSelect, hjt, hoff, hcount]]
    -- the WHERE as the conjuncts `canonicalize_qual` gives
    have hwhere : (fun (n : Nat) => qualHolds sem n (some quals)) =
        fun (n : Nat) row => (canonicalizeQual quals).andArgs.all (·.holds sem row n) := by
      funext n row
      rw [all_andArgs_holds, hcanon]
      rfl
    rw [hwhere]
    dsimp only
    split
    · next habandon =>
      simp only [oracleSelect, hoff, hcount, applyLimitOffset_none]
      congr 2
      funext n row
      rw [all_andArgs_holds]
      rfl
    · next hnorows =>
      rw [rownumFilter_of_noRows hmean hnorows, output_nil houtput]
      simp [oracleSelect, hoff, applyLimitOffset, limitValue, makeInt8Const, Expr.eval]
    · next limitCount kept hrewritten =>
      simp only [oracleSelect, hoff]
      rw [rownumFilter_keptQuals_of_rewritten hmean hrewritten 0,
        rownumFilter_of_rewritten hmean hrewritten houtput 0]
  · rfl

/-- **The rows a completed rewrite keeps.** On every WHERE that `rewrite_rownum_query`
rewrites to the end without abandoning, and every sequence of candidate rows, the rows
its conjuncts (after `canonicalize_qual`) accept under Oracle semantics are the rows the
WHERE it leaves accepts, at any `ROWNUM`, cut by the limit it installs. -/
theorem rewriteRownumQuery_filters_rows (canonicalizeQual : Expr → Expr)
    (hmean : UsualMeaning sem catalog makeMinus) {query : Query} {fromlist : List JoinNode}
    {quals : Expr} (hjt : query.jointree = some (.fromExpr fromlist (some quals)))
    (hoff : query.limitOffset = none) (hcount : query.limitCount = none)
    (hrownum : containRownum quals = true)
    (hcomplete : rewriteRownumLoop catalog makeMinus none [] (canonicalizeQual quals).andArgs ≠
      .abandoned) (rows : List Row) :
    ∃ quals', (rewriteRownumQuery canonicalizeQual catalog makeMinus query).jointree =
        some (.fromExpr fromlist quals') ∧ ∀ rownum : Int,
      applyLimitOffset sem none (rewriteRownumQuery canonicalizeQual catalog makeMinus query).limitCount
          (rows.filter (qualHolds sem rownum quals')) =
        rownumFilter (fun n row => (canonicalizeQual quals).andArgs.all (·.holds sem row n)) 0 rows := by
  simp only [rewriteRownumQuery, hjt, hoff, hcount, hrownum, Option.isSome_none, Bool.not_true,
    Bool.or_false, Bool.false_eq_true, if_false]
  split
  · contradiction
  · next hnorows =>
    refine ⟨_, rfl, fun _ => ?_⟩
    rw [rownumFilter_of_noRows hmean hnorows]
    simp [applyLimitOffset, limitValue, makeInt8Const, Expr.eval]
  · next limitCount kept hrewritten =>
    exact ⟨_, rfl, fun rownum => rownumFilter_of_rewritten hmean hrewritten
      (show ∀ k (rows : List Row), id (rows.take k) = (id rows).take k from fun _ _ => rfl)
      rownum rows⟩

end Meaning

/-! ## The built-in catalog -/

/-- `make_op2(NULL, "-", l, r, -1, true)` on `int8` operands: the `int8 -` operator. -/
def int8Minus (l r : Expr) : Option Expr :=
  some (.opExpr 685 464 [l, r])

/-- A catalog read by its own names means what the names say, when its commutators are
mirrored and `685` is its `-`. -/
theorem catalogSem_usualMeaning {catalog : List PgOperator}
    (hmirror : commutatorsMirrored catalog) (hminus : getOpname catalog 685 = some "-") :
    UsualMeaning (catalogSem catalog) catalog int8Minus where
  comparison opno name hname _ := catalogSem_oper hname
  commutator opno hc a b := by
    have h := List.all_eq_true.mp hmirror opno (mem_of_getCommutator_ne_zero hc)
    simp only [Bool.or_eq_true, beq_iff_eq, hc, false_or, Bool.and_eq_true] at h
    obtain ⟨hcmp, hname⟩ := h
    cases hop : getOpname catalog opno with
    | none => simp [hop] at hcmp
    | some name =>
      rw [hop] at hcmp hname
      rw [catalogSem_oper hname, catalogSem_oper hop, usualOper_mirrorName (by simpa using hcmp)]
  function _ _ := rfl
  minus l r count h row n := by
    cases h
    show (catalogSem catalog).oper 685 [l.eval (catalogSem catalog) row n,
      r.eval (catalogSem catalog) row n] = _
    rw [catalogSem_oper hminus]
    exact usualOper_minus _ _

/-- The excerpt of the built-in catalog means what its names say. -/
theorem builtinOperators_usualMeaning :
    UsualMeaning (catalogSem builtinOperators) builtinOperators int8Minus :=
  catalogSem_usualMeaning (by decide) rfl

/-! ## Concrete queries -/

/-- The relation `t(x int4)` as entry 1. -/
def relationT : RangeTblEntry :=
  ⟨.relation, 16384, true, none, "t", ["x"], 2, .inner, []⟩

/-- `SELECT x FROM t WHERE rownum <= 10 AND x > 0`, analyzed. -/
def rownumSelectQuery : Query :=
  { makeQuery with
    rtable := [relationT]
    jointree := some (.fromExpr [.rangeTblRef 1] (some (makeAndExpr
      [.opExpr 420 478 [.rownumExpr, .const int4Oid 10 false],
       .opExpr 521 147 [.var { varno := 1, varattno := 1, vartype := int4Oid },
         .const int4Oid 0 false]])))
    targetList := [⟨.var { varno := 1, varattno := 1, vartype := int4Oid }, 1, some "x", false⟩] }

/-- The rewrite keeps the rows of `rownumSelectQuery` over `t = {0, ..., 11}`. -/
theorem rewriteRownumQuery_oracleSelect_select_x :
    oracleSelect (catalogSem builtinOperators)
        (tableRows [(1, (List.range 12).map fun i => [some (i : Int)])])
        (List.map fun row => [columnValue row { varno := 1, varattno := 1 }])
        (rewriteRownumQuery id builtinOperators int8Minus rownumSelectQuery) =
      oracleSelect (catalogSem builtinOperators)
        (tableRows [(1, (List.range 12).map fun i => [some (i : Int)])])
        (List.map fun row => [columnValue row { varno := 1, varattno := 1 }])
        rownumSelectQuery :=
  rewriteRownumQuery_oracleSelect id (fun _ _ _ _ => rfl) builtinOperators_usualMeaning _ _
    (fun k rows => List.map_take _ rows k) _

/-- The rewrite of `rownumSelectQuery` keeps the rows `rownum <= 10 AND x > 0` accepts
from `t = {0, ..., 11}`. -/
theorem rewriteRownumQuery_filters_rows_select_x :
    ∃ quals, rownumSelectQuery.jointree = some (.fromExpr [.rangeTblRef 1] (some quals)) ∧
      rownumSelectQuery.limitOffset = none ∧ rownumSelectQuery.limitCount = none ∧
      containRownum quals = true ∧
      ∃ quals', (rewriteRownumQuery id builtinOperators int8Minus rownumSelectQuery).jointree =
          some (.fromExpr [.rangeTblRef 1] quals') ∧ ∀ rownum : Int,
        applyLimitOffset (catalogSem builtinOperators) none
            (rewriteRownumQuery id builtinOperators int8Minus rownumSelectQuery).limitCount
            ((crossRows (catalogSem builtinOperators)
              (tableRows [(1, (List.range 12).map fun i => [some (i : Int)])]) [.rangeTblRef 1]).filter
              (qualHolds (catalogSem builtinOperators) rownum quals')) =
          rownumFilter (fun n row => quals.andArgs.all (·.holds (catalogSem builtinOperators) row n))
            0 (crossRows (catalogSem builtinOperators)
              (tableRows [(1, (List.range 12).map fun i => [some (i : Int)])]) [.rangeTblRef 1]) :=
  ⟨_, rfl, rfl, rfl, rfl, rewriteRownumQuery_filters_rows id builtinOperators_usualMeaning rfl rfl
    rfl (by rfl) (by exact fun h => RownumOutcome.noConfusion h) _⟩

/-- `SELECT count(*) FROM t WHERE rownum <= 10`, analyzed; its aggregate target list is
not modelled, and is the output stage of `oracleSelect`. -/
def rownumCountQuery : Query :=
  { makeQuery with
    rtable := [relationT]
    jointree := some (.fromExpr [.rangeTblRef 1]
      (some (.opExpr 420 478 [.rownumExpr, .const int4Oid 10 false]))) }

/-- `SELECT count(*) FROM t WHERE rownum <= 10` over eleven rows: under Oracle semantics
`ROWNUM` lets ten rows through to the count; the rewritten query counts all eleven, then
cuts the one row of the count to ten rows. -/
theorem rewriteRownumQuery_count_differs :
    oracleSelect (catalogSem builtinOperators) (tableRows [(1, List.replicate 11 [some 1])])
        (fun rows => [(rows.length : Int)])
        (rewriteRownumQuery id builtinOperators int8Minus rownumCountQuery) = [11] ∧
      oracleSelect (catalogSem builtinOperators) (tableRows [(1, List.replicate 11 [some 1])])
        (fun rows => [(rows.length : Int)]) rownumCountQuery = [10] := by
  decide

end AntdbAnalyze
