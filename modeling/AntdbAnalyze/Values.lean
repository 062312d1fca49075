import AntdbAnalyze.SetOp.Tree

/-!
# VALUES lists (analyze.c:1221-1447)

`transformValuesClause` analyzes a VALUES list used as a stand-alone SELECT, as if
`SELECT * FROM (VALUES ...) AS "*VALUES*"` had been written. It transforms each row, gathers
the expressions column by column so that each column gets one common type and collation, and
then puts the coerced expressions back into rows for the VALUES range-table entry.

- `transformValuesRow`: one row of the first loop: the row's length checked against the first
  row's (`checkValuesLength`), DEFAULT rejected, each expression appended to its column's list.
- `coerceValuesColumn`: one column of the second loop: the common type, the coercions, the
  common collation.
- `rebuildValuesRows`: the rebuild into rows, which starts from `colexprs[0]`.
- `transformValuesLists`: the three together (lines 1272-1385); `transformValuesClause`.

The gathering into columns and the rebuild fold the same step, `appendEach`, which adds the
`i`-th element of a list to the end of the `i`-th list; `forall₂_transpose` is the round trip.
**`transformValuesLists_rows`**: when every row has `n ≥ 1` expressions, the result has one
row per input row, in order, whose `c`-th element is the row's `c`-th expression coerced to
the common type of column `c`. **`transformValuesLists_zero_width`**: when every row has none,
the rebuild reads `colexprs[0]` past the end of a zero-length array, and the rows are
whatever list it finds there, never one empty row per input row.
-/

namespace AntdbAnalyze

variable {α β γ ρ : Type}

/-! ## The step both loops fold -/

/-- Add the `i`-th element of `xs` to the end of the `i`-th list, as far as both lists reach:
the inner `foreach` of the first loop (`colexprs[i] = lappend(colexprs[i], col)`) and the
`forboth` of the rebuild (`lappend(sublist, col)`). -/
def appendEach : List (List α) → List α → List (List α)
  | list :: lists, x :: xs => (list ++ [x]) :: appendEach lists xs
  | lists, _ => lists

@[simp] theorem appendEach_cons_cons (list : List α) (lists : List (List α)) (x : α)
    (xs : List α) : appendEach (list :: lists) (x :: xs) = (list ++ [x]) :: appendEach lists xs :=
  rfl

@[simp] theorem appendEach_nil_left (xs : List α) : appendEach [] xs = [] := by
  cases xs <;> rfl

@[simp] theorem appendEach_nil_right (lists : List (List α)) : appendEach lists [] = lists := by
  cases lists <;> rfl

/-- The `i`-th list gains the `i`-th element, if there is one. -/
theorem getElem?_appendEach : ∀ (lists : List (List α)) (xs : List α) (i : Nat),
    (appendEach lists xs)[i]? = lists[i]?.map (· ++ xs[i]?.toList)
  | [], _, _ => by simp
  | _ :: _, [], _ => by simp
  | _ :: _, _ :: _, 0 => by
    simp only [appendEach_cons_cons, List.getElem?_cons_zero, Option.toList_some, Option.map_some']
  | _ :: lists, _ :: xs, i + 1 => by
    simp only [appendEach_cons_cons, List.getElem?_cons_succ, getElem?_appendEach lists xs i]

/-- Folding rows into lists adds to list `c` the `c`-th elements of the rows, in order. -/
theorem getElem?_foldl_appendEach (c : Nat) : ∀ (rows lists : List (List α)),
    (rows.foldl appendEach lists)[c]? = lists[c]?.map (· ++ rows.filterMap fun row => row[c]?)
  | [], _ => by simp
  | row :: rows, lists => by
    rw [List.foldl_cons, getElem?_foldl_appendEach c rows, getElem?_appendEach, Option.map_map]
    congr 1
    funext list
    cases h : row[c]? <;> simp [List.filterMap_cons, h]

/-- **The first loop builds the columns**: list `c` holds the `c`-th elements of the rows. -/
theorem foldl_appendEach_replicate (n : Nat) (rows : List (List α)) :
    rows.foldl appendEach (List.replicate n []) =
      (List.range n).map fun c => rows.filterMap fun row => row[c]? := by
  apply List.ext_getElem?
  intro c
  by_cases hc : c < n
  · simp [getElem?_foldl_appendEach, List.getElem?_range hc, hc]
  · have hrange : (List.range n).length ≤ c := by simpa using hc
    simp [getElem?_foldl_appendEach, List.getElem?_replicate, hc, List.getElem?_eq_none hrange]

/-- Lists led by a column `ys` gain elements behind it. -/
theorem appendEach_zipWith_cons : ∀ (ys : List α) (lists : List (List α)) (xs : List α),
    appendEach (List.zipWith List.cons ys lists) xs =
      List.zipWith List.cons ys (appendEach lists xs)
  | [], _, _ => by simp
  | _ :: _, [], _ => by simp
  | _ :: _, _ :: _, [] => by simp
  | y :: ys, list :: lists, x :: xs => by simp [appendEach_zipWith_cons ys lists xs]

theorem foldl_appendEach_zipWith_cons (ys : List α) : ∀ (cols lists : List (List α)),
    cols.foldl appendEach (List.zipWith List.cons ys lists) =
      List.zipWith List.cons ys (cols.foldl appendEach lists)
  | [], _ => rfl
  | _ :: cols, _ => by
    rw [List.foldl_cons, appendEach_zipWith_cons, foldl_appendEach_zipWith_cons ys cols]
    rfl

/-- One singleton list per element: empty lists, one per element, each gaining it. -/
theorem map_singleton_eq_zipWith_cons : ∀ xs : List α,
    xs.map (fun x => [x]) = List.zipWith List.cons xs (List.replicate xs.length [])
  | [] => rfl
  | x :: xs => by simp [List.replicate_succ, map_singleton_eq_zipWith_cons xs]

theorem appendEach_replicate_nil (xs : List α) :
    appendEach (List.replicate xs.length []) xs = xs.map fun x => [x] := by
  induction xs with
  | nil => rfl
  | cons x xs ih => simp [List.replicate_succ, ih]

/-- Folding rows whose first elements are `xs` into lists led by `list` adds `xs` to `list`. -/
theorem foldl_appendEach_zipWith_cons_rows : ∀ {xs : List α} {rows : List (List α)},
    xs.length = rows.length → ∀ (list : List α) (lists : List (List α)),
    (List.zipWith List.cons xs rows).foldl appendEach (list :: lists) =
      (list ++ xs) :: rows.foldl appendEach lists
  | [], [], _, _, _ => by simp
  | _ :: _, _ :: _, h, list, lists => by
    simp only [List.zipWith_cons_cons, List.foldl_cons, appendEach_cons_cons]
    rw [foldl_appendEach_zipWith_cons_rows (Nat.succ.inj h)]
    simp

/-- Rows of `n + 1` elements are their first elements put in front of rows of `n`. -/
theorem exists_eq_zipWith_cons {n : Nat} : ∀ {rows : List (List α)},
    (∀ row ∈ rows, row.length = n + 1) → ∃ xs rows', rows = List.zipWith List.cons xs rows' ∧
      xs.length = rows'.length ∧ ∀ row ∈ rows', row.length = n
  | [], _ => ⟨[], [], rfl, rfl, by simp⟩
  | [] :: _, h => absurd (h [] (.head _)) (by simp)
  | (x :: row) :: rows, h => by
    obtain ⟨xs, rows', rfl, hlen, hwidth⟩ := exists_eq_zipWith_cons fun r hr => h r (.tail _ hr)
    refine ⟨x :: xs, row :: rows', rfl, by simp [hlen], ?_⟩
    rintro r (_ | ⟨_, hr⟩)
    · simpa using h _ (.head _)
    · exact hwidth r hr

/-! ## The round trip -/

/-- `row'` is `row` with its `c`-th element taken through `R ts[c]`. -/
def RelatedRow (R : γ → α → β → Prop) (ts : List γ) (row : List α) (row' : List β) : Prop :=
  List.Forall₂ (fun (p : α × γ) y => R p.2 p.1 y) (row.zip ts) row'

theorem forall₂_zipWith_cons {R : γ → α → β → Prop} {t : γ} {ts : List γ} :
    ∀ {xs : List α} {ys : List β} {rows : List (List α)} {rows' : List (List β)},
    List.Forall₂ (R t) xs ys → List.Forall₂ (RelatedRow R ts) rows rows' →
    List.Forall₂ (RelatedRow R (t :: ts)) (List.zipWith List.cons xs rows)
      (List.zipWith List.cons ys rows')
  | [], [], _, _, .nil, _ => .nil
  | _ :: _, _ :: _, [], [], .cons _ _, .nil => .nil
  | _ :: _, _ :: _, _ :: _, _ :: _, .cons hxy hxys, .cons hrow hrows =>
    .cons (.cons hxy hrow) (forall₂_zipWith_cons hxys hrows)

/-- **Gathering into columns and rebuilding rows round-trips.** Rows of `ts.length`
elements are gathered into columns; columns related to those, column `c` by `R ts[c]`, are
folded back into rows; each rebuilt row is the original one, its `c`-th element taken
through `R ts[c]`. -/
theorem forall₂_transpose {R : γ → α → β → Prop} : ∀ (ts : List γ) {rows : List (List α)}
    {cols : List (List β)}, (∀ row ∈ rows, row.length = ts.length) →
    List.Forall₂ (fun (p : List α × γ) col => List.Forall₂ (R p.2) p.1 col)
      ((rows.foldl appendEach (List.replicate ts.length [])).zip ts) cols →
    List.Forall₂ (RelatedRow R ts) rows (cols.foldl appendEach (List.replicate rows.length []))
  | [], rows, _, hwidth, hcols => by
    rw [List.zip_nil_right] at hcols
    cases hcols
    induction rows with
    | nil => exact .nil
    | cons row rows ih =>
      have hrow : row = [] := List.eq_nil_of_length_eq_zero (hwidth row (.head _))
      subst hrow
      exact .cons .nil (ih fun r hr => hwidth r (.tail _ hr))
  | t :: ts, _, _, hwidth, hcols => by
    obtain ⟨xs, rows', rfl, hlen, hwidth'⟩ := exists_eq_zipWith_cons hwidth
    rw [List.length_cons, List.replicate_succ, foldl_appendEach_zipWith_cons_rows hlen,
      List.nil_append, List.zip_cons_cons] at hcols
    cases hcols with
    | cons hxs hcols =>
      rename_i ys cols
      have hys : ys.length = rows'.length := hxs.length_eq.symm.trans hlen
      rw [List.length_zipWith, hlen, Nat.min_self, List.foldl_cons, ← hys,
        appendEach_replicate_nil, map_singleton_eq_zipWith_cons, foldl_appendEach_zipWith_cons, hys]
      exact forall₂_zipWith_cons hxs (forall₂_transpose ts hwidth' hcols)

/-! ## The model -/

/-- `IsA(col, SetToDefault)`. -/
def Expr.isSetToDefault : Expr → Bool
  | .setToDefault _ _ _ => true
  | _ => false

/-- The functions of other files (parse_target.c, parse_coerce.c, parse_relation.c,
parse_clause.c, var.c) that `transformValuesClause` calls, over the type `ρ` of raw
expressions. -/
structure ValuesCallees (ρ : Type) where
  /-- `transformExpressionList(pstate, sublist, EXPR_KIND_VALUES)`, which expands `t.*` into
  the columns of `t` -/
  transformExpressionList : List ρ → Except ErrorData (List Expr)
  selectCommonType : List Expr → String → Except ErrorData Oid
  coerceToCommonType : Expr → Oid → String → Except ErrorData Expr
  /-- `select_common_collation(pstate, exprs, none_ok)` -/
  selectCommonCollation : List Expr → Bool → Except ErrorData Oid
  containVarsOfLevel : List (List Expr) → Nat → Bool
  /-- `addRangeTableEntryForValues(pstate, exprsLists, collations, NULL, lateral, true)`
  followed by `addRTEtoQuery`: the entry appended to the range table, the join list and the
  namespace -/
  addRangeTableEntryForValues : ParseState → List (List Expr) → List Oid → Bool → ParseState
  /-- `expandRelAttrs(pstate, rte, rtindex, 0, -1)` for the entry at `rtindex` -/
  expandRelAttrs : ParseState → Nat → List TargetEntry
  transformSortClause : ParseState → List ρ → List TargetEntry →
    Except ErrorData (ParseState × List SortGroupClause × List TargetEntry)
  transformLimitClause : Option ρ → String → Except ErrorData (Option Expr)

/-- A raw VALUES statement: its rows, of which the grammar's `values_clause` gives at least
one, and the ORDER BY, LIMIT and FOR UPDATE the grammar allows after it. -/
structure ValuesStmt (ρ : Type) where
  valuesLists : List (List ρ)
  valuesLists_ne_nil : valuesLists ≠ []
  clauses : SelectClauses ρ

/-- Two rows of different lengths once `*` is expanded. -/
def valuesLengthError : ErrorData :=
  ⟨.syntaxError, "VALUES lists must all be the same length"⟩

/-- A DEFAULT in a VALUES list that is not an INSERT's. -/
def valuesDefaultError : ErrorData :=
  ⟨.syntaxError, "DEFAULT can only appear in a VALUES list within INSERT"⟩

/-- FOR UPDATE/SHARE on a VALUES list; the first clause's strength names it. -/
def valuesLockingError (strength : Nat) : ErrorData :=
  ⟨.featureNotSupported, lcsAsString strength ++ " cannot be applied to VALUES"⟩

/-- The length check on a transformed row: the first row (`sublist_length < 0`) fixes the
length and allocates one empty list per column (`palloc0`); a later row must match it. -/
def checkValuesLength (sublistLength : Int) (colexprs : List (List Expr))
    (sublist : List Expr) : Except ErrorData (Int × List (List Expr)) :=
  if sublistLength < 0 then .ok (sublist.length, List.replicate sublist.length [])
  else if sublistLength ≠ sublist.length then .error valuesLengthError
  else .ok (sublistLength, colexprs)

/-- The inner `foreach`: a DEFAULT is an error, and each expression goes to the end of its
column's list. The error discards the lists, so checking the row before appending gives the
source's result. -/
def appendValuesRow (colexprs : List (List Expr)) (sublist : List Expr) :
    Except ErrorData (List (List Expr)) :=
  if sublist.any Expr.isSetToDefault then .error valuesDefaultError
  else .ok (appendEach colexprs sublist)

/-- One row of the first loop, over `(sublist_length, colexprs)`. -/
def transformValuesRow (callees : ValuesCallees ρ) (state : Int × List (List Expr))
    (raw : List ρ) : Except ErrorData (Int × List (List Expr)) := do
  let sublist ← callees.transformExpressionList raw
  let (sublistLength, colexprs) ← checkValuesLength state.1 state.2 sublist
  let colexprs ← appendValuesRow colexprs sublist
  pure (sublistLength, colexprs)

/-- One column of the second loop: the common type, every expression coerced to it in place,
and the common collation (`none_ok`: a conflict of implicit collations gives `InvalidOid`). -/
def coerceValuesColumn (callees : ValuesCallees ρ) (column : List Expr) :
    Except ErrorData (List Expr × Oid) := do
  let coltype ← callees.selectCommonType column "VALUES"
  let column ← column.mapM (callees.coerceToCommonType · coltype "VALUES")
  let colcoll ← callees.selectCommonCollation column true
  pure (column, colcoll)

/-- The rebuild into rows: one list per element of `colexprs[0]`, then columns
`1 .. sublist_length - 1` added row by row. For a VALUES list of width 0, `colexprs` is
`palloc0(0)` and `colexprs[0]` reads past its end: `outOfBounds` is the list found there. -/
def rebuildValuesRows (outOfBounds : List α) (colexprs : List (List α)) : List (List α) :=
  colexprs.tail.foldl appendEach ((colexprs.headD outOfBounds).map fun col => [col])

/-- Lines 1272-1385 of `transformValuesClause`: the rows for the VALUES entry and the column
collations. `colexprs` starts as `NULL`, here `[]`; `for (i = 0; i < sublist_length; i++)`
runs over the `sublist_length` lists the first row allocated. -/
def transformValuesLists (callees : ValuesCallees ρ) (outOfBounds : List Expr)
    (valuesLists : List (List ρ)) : Except ErrorData (List (List Expr) × List Oid) := do
  let (_, colexprs) ← valuesLists.foldlM (transformValuesRow callees) (-1, [])
  let columns ← colexprs.mapM (coerceValuesColumn callees)
  pure (rebuildValuesRows outOfBounds (columns.map (·.1)), columns.map (·.2))

/-- `transformValuesClause`, without the WITH clause: the VALUES entry, a target list as if
`*` were expanded, ORDER BY and LIMIT, and the rejection of FOR UPDATE/SHARE. -/
def transformValuesClause (callees : ValuesCallees ρ) (outOfBounds : List Expr)
    (pstate : ParseState) (stmt : ValuesStmt ρ) : Except ErrorData (ParseState × Query) := do
  let (exprsLists, collations) ← transformValuesLists callees outOfBounds stmt.valuesLists
  let lateral := !pstate.p_rtable.isEmpty && callees.containVarsOfLevel exprsLists 0
  let pstate := callees.addRangeTableEntryForValues pstate exprsLists collations lateral
  let targetList := callees.expandRelAttrs pstate pstate.p_rtable.length
  let (pstate, sortClause, targetList) ←
    callees.transformSortClause pstate stmt.clauses.sortClause targetList
  let limitOffset ← callees.transformLimitClause stmt.clauses.limitOffset "OFFSET"
  let limitCount ← callees.transformLimitClause stmt.clauses.limitCount "LIMIT"
  match stmt.clauses.lockingClause with
  | strength :: _ => throw (valuesLockingError strength)
  | [] => pure (pstate, { makeQuery with
      targetList := targetList, sortClause := sortClause, limitOffset := limitOffset,
      limitCount := limitCount, rtable := pstate.p_rtable,
      jointree := some (.fromExpr pstate.p_joinlist none) })

/-! ## The rebuild -/

/-- Every column of rows of `n` elements has one element per row. -/
theorem length_of_mem_foldl_appendEach {n : Nat} {rows : List (List α)}
    (hwidth : ∀ row ∈ rows, row.length = n) :
    ∀ col ∈ rows.foldl appendEach (List.replicate n []), col.length = rows.length := by
  rw [foldl_appendEach_replicate]
  intro _ hcol
  obtain ⟨c, hc, rfl⟩ := List.mem_map.mp hcol
  rw [List.length_filterMap_eq_countP, List.countP_eq_length]
  intro row hrow
  simp [hwidth row hrow, List.mem_range.mp hc]

/-- Columns related to those of rows of at least one element start with a column of one
element per row, so the rebuild reads `colexprs[0]` within bounds and folds all columns. -/
theorem rebuildValuesRows_eq_foldl {R : γ → α → β → Prop} (outOfBounds : List β) {t : γ}
    {ts : List γ} {rows : List (List α)} {cols : List (List β)}
    (hwidth : ∀ row ∈ rows, row.length = (t :: ts).length)
    (hcols : List.Forall₂ (fun (p : List α × γ) col => List.Forall₂ (R p.2) p.1 col)
      ((rows.foldl appendEach (List.replicate (t :: ts).length [])).zip (t :: ts)) cols) :
    rebuildValuesRows outOfBounds cols = cols.foldl appendEach (List.replicate rows.length []) := by
  obtain ⟨col, rest, hT⟩ := List.exists_cons_of_length_pos
    (show 0 < (rows.foldl appendEach (List.replicate (t :: ts).length [])).length by
      simp [foldl_appendEach_replicate])
  have hlen := length_of_mem_foldl_appendEach hwidth col (by rw [hT]; exact List.mem_cons_self _ _)
  rw [hT, List.zip_cons_cons] at hcols
  cases hcols with
  | cons hcol _ =>
    rw [← hlen, hcol.length_eq, List.foldl_cons, appendEach_replicate_nil]
    rfl

/-! ## The first loop -/

section Rows

variable (callees : ValuesCallees ρ)

/-- The first row fixes the length and starts one list per column. -/
theorem transformValuesRow_first {raw : List ρ} {row : List Expr}
    (hraw : callees.transformExpressionList raw = .ok row)
    (hdefault : row.any Expr.isSetToDefault = false) (colexprs : List (List Expr)) :
    transformValuesRow callees (-1, colexprs) raw =
      .ok (row.length, appendEach (List.replicate row.length []) row) := by
  simp only [transformValuesRow, hraw, ok_bind_eq, checkValuesLength, appendValuesRow, hdefault]
  rfl

/-- A later row must have the first row's length `n`. -/
theorem transformValuesRow_later {raw : List ρ} {row : List Expr}
    (hraw : callees.transformExpressionList raw = .ok row)
    (hdefault : row.any Expr.isSetToDefault = false) (n : Nat) (colexprs : List (List Expr)) :
    transformValuesRow callees ((n : Int), colexprs) raw =
      if row.length = n then .ok (n, appendEach colexprs row) else .error valuesLengthError := by
  have hpos : ¬(n : Int) < 0 := by omega
  simp only [transformValuesRow, hraw, ok_bind_eq, checkValuesLength, if_neg hpos]
  by_cases hrow : row.length = n
  · simp only [hrow, ne_eq, not_true_eq_false, if_false, if_true, ok_bind_eq, appendValuesRow,
      hdefault]
    rfl
  · have hne : (n : Int) ≠ row.length := by omega
    simp only [hne, hrow, ne_eq, not_false_eq_true, if_true, if_false, error_bind_eq]

/-- **The first loop after the first row**: over rows that all transform and hold no
DEFAULT, it gathers the rows into the columns if each has the first row's length `n`, and
fails with the length error otherwise. -/
theorem foldlM_transformValuesRow (n : Nat) : ∀ {valuesLists : List (List ρ)}
    {rows : List (List Expr)} (colexprs : List (List Expr)),
    List.Forall₂ (fun raw row => callees.transformExpressionList raw = .ok row) valuesLists rows →
    (∀ row ∈ rows, row.any Expr.isSetToDefault = false) →
    valuesLists.foldlM (transformValuesRow callees) ((n : Int), colexprs) =
      if rows.all (·.length = n) then .ok (n, rows.foldl appendEach colexprs)
      else .error valuesLengthError
  | [], [], _, .nil, _ => by simp; rfl
  | _ :: _, row :: rows, colexprs, .cons hraw hsub, hdefault => by
    rw [List.foldlM_cons, transformValuesRow_later callees hraw (hdefault row (.head _))]
    by_cases hrow : row.length = n
    · rw [if_pos hrow, ok_bind_eq,
        foldlM_transformValuesRow n _ hsub fun r hr => hdefault r (.tail _ hr), List.all_cons,
        decide_eq_true hrow, Bool.true_and]
      rfl
    · rw [if_neg hrow, error_bind_eq, List.all_cons, decide_eq_false hrow, Bool.false_and]
      rfl

/-- A VALUES list whose rows all transform to `n` expressions, none a DEFAULT: the first loop
gathers the columns of the rows, and the rest is the second loop and the rebuild. -/
theorem transformValuesLists_of_width (outOfBounds : List Expr) {valuesLists : List (List ρ)}
    {rows : List (List Expr)} (hne : valuesLists ≠ [])
    (hsub : List.Forall₂ (fun raw row => callees.transformExpressionList raw = .ok row)
      valuesLists rows)
    (hdefault : ∀ row ∈ rows, row.any Expr.isSetToDefault = false) {n : Nat}
    (hwidth : ∀ row ∈ rows, row.length = n) :
    transformValuesLists callees outOfBounds valuesLists =
      (rows.foldl appendEach (List.replicate n [])).mapM (coerceValuesColumn callees) >>=
        fun columns => .ok (rebuildValuesRows outOfBounds (columns.map (·.1)), columns.map (·.2)) := by
  cases hsub with
  | nil => contradiction
  | @cons _ row _ rows hraw hsub =>
    have hrow := hwidth row (.head _)
    rw [transformValuesLists, List.foldlM_cons,
      transformValuesRow_first callees hraw (hdefault row (.head _)), hrow, ok_bind_eq,
      foldlM_transformValuesRow callees n _ hsub fun r hr => hdefault r (.tail _ hr),
      if_pos (List.all_eq_true.mpr fun r hr => decide_eq_true (hwidth r (.tail _ hr)))]
    rfl

/-- **Rows of different lengths fail with the length error**, when all rows transform and
none holds a DEFAULT. -/
theorem transformValuesLists_length_error (outOfBounds : List Expr)
    {valuesLists : List (List ρ)} {rows : List (List Expr)}
    (hsub : List.Forall₂ (fun raw row => callees.transformExpressionList raw = .ok row)
      valuesLists rows)
    (hdefault : ∀ row ∈ rows, row.any Expr.isSetToDefault = false) {row₁ row₂ : List Expr}
    (h₁ : row₁ ∈ rows) (h₂ : row₂ ∈ rows) (hlen : row₁.length ≠ row₂.length) :
    transformValuesLists callees outOfBounds valuesLists = .error valuesLengthError := by
  cases hsub with
  | nil => cases h₁
  | @cons _ row _ rows hraw hsub =>
    have hall : ¬rows.all (·.length = row.length) := fun hall => by
      have hrows : ∀ r ∈ row :: rows, r.length = row.length := by
        rintro r (_ | ⟨_, hr⟩)
        · rfl
        · exact of_decide_eq_true (List.all_eq_true.mp hall r hr)
      exact hlen ((hrows row₁ h₁).trans (hrows row₂ h₂).symm)
    rw [transformValuesLists, List.foldlM_cons,
      transformValuesRow_first callees hraw (hdefault row (.head _)), ok_bind_eq,
      foldlM_transformValuesRow callees _ _ hsub fun r hr => hdefault r (.tail _ hr),
      if_neg hall]
    rfl

/-! ## The second loop, and the result -/

/-- The second loop: each column has a common type, and its coerced expressions are its
expressions coerced to that type. -/
theorem coerceValuesColumns_types : ∀ {cols : List (List Expr)}
    {columns : List (List Expr × Oid)},
    List.Forall₂ (fun col out => coerceValuesColumn callees col = .ok out) cols columns →
    ∃ ts : List Oid,
      List.Forall₂ (fun col t => callees.selectCommonType col "VALUES" = .ok t) cols ts ∧
      List.Forall₂ (fun (p : List Expr × Oid) col' =>
          List.Forall₂ (fun e e' => callees.coerceToCommonType e p.2 "VALUES" = .ok e') p.1 col')
        (cols.zip ts) (columns.map (·.1))
  | [], [], .nil => ⟨[], .nil, .nil⟩
  | _ :: _, _ :: _, .cons h hrest => by
    obtain ⟨t, ht, h⟩ := except_bind_eq_ok.mp h
    obtain ⟨col', hcol', h⟩ := except_bind_eq_ok.mp h
    obtain ⟨_, -, h⟩ := except_bind_eq_ok.mp h
    cases h
    obtain ⟨ts, hts, hcols⟩ := coerceValuesColumns_types hrest
    exact ⟨t :: ts, .cons ht hts, .cons (forall₂_of_mapM_eq_ok hcol') hcols⟩

/-- **VALUES lists of width `n ≥ 1` come back as rows.** When every row transforms to `n ≥ 1`
expressions, none a DEFAULT, the result has one row per input row, in order; column `c` has
the common type of the rows' `c`-th expressions, and the `c`-th element of a row is the
row's `c`-th expression coerced to it. -/
theorem transformValuesLists_rows (outOfBounds : List Expr) (stmt : ValuesStmt ρ)
    {rows : List (List Expr)}
    (hsub : List.Forall₂ (fun raw row => callees.transformExpressionList raw = .ok row)
      stmt.valuesLists rows)
    (hdefault : ∀ row ∈ rows, row.any Expr.isSetToDefault = false) {n : Nat} (hn : 0 < n)
    (hwidth : ∀ row ∈ rows, row.length = n) {exprsLists : List (List Expr)}
    {collations : List Oid}
    (h : transformValuesLists callees outOfBounds stmt.valuesLists = .ok (exprsLists, collations)) :
    ∃ coltypes : List Oid,
      List.Forall₂ (fun c t =>
          callees.selectCommonType (rows.filterMap fun row => row[c]?) "VALUES" = .ok t)
        (List.range n) coltypes ∧
      List.Forall₂
        (RelatedRow (fun t e e' => callees.coerceToCommonType e t "VALUES" = .ok e') coltypes)
        rows exprsLists := by
  rw [transformValuesLists_of_width callees outOfBounds stmt.valuesLists_ne_nil hsub hdefault
    hwidth] at h
  obtain ⟨columns, hcolumns, h⟩ := except_bind_eq_ok.mp h
  cases h
  obtain ⟨ts, htypes, hcoerced⟩ :=
    coerceValuesColumns_types callees (forall₂_of_mapM_eq_ok hcolumns)
  rw [foldl_appendEach_replicate] at htypes
  have hts : ts.length = n := by rw [← htypes.length_eq, List.length_map, List.length_range]
  refine ⟨ts, List.forall₂_map_left_iff.mp htypes, ?_⟩
  obtain ⟨t, ts, rfl⟩ := List.exists_cons_of_length_pos (hts ▸ hn : 0 < ts.length)
  subst hts
  let R := fun t e e' => callees.coerceToCommonType e t "VALUES" = .ok e'
  rw [rebuildValuesRows_eq_foldl (R := R) outOfBounds hwidth hcoerced]
  exact forall₂_transpose (R := R) _ hwidth hcoerced

/-- **At width 0 the rows are lost.** When every row transforms to no expression, the first
row allocates `palloc0(0)` for `colexprs`, the second loop runs no column, and the rebuild
reads `colexprs[0]` past the end of the array: the rows are one singleton per element of
whatever list that read finds, never one empty row per input row. -/
theorem transformValuesLists_zero_width (outOfBounds : List Expr) (stmt : ValuesStmt ρ)
    {rows : List (List Expr)}
    (hsub : List.Forall₂ (fun raw row => callees.transformExpressionList raw = .ok row)
      stmt.valuesLists rows)
    (hzero : ∀ row ∈ rows, row = []) :
    transformValuesLists callees outOfBounds stmt.valuesLists =
        .ok (outOfBounds.map fun col => [col], []) ∧
      outOfBounds.map (fun col => [col]) ≠ List.replicate stmt.valuesLists.length [] := by
  constructor
  · rw [transformValuesLists_of_width callees outOfBounds stmt.valuesLists_ne_nil hsub
      (fun row hr => by rw [hzero row hr]; rfl) (n := 0) (fun row hr => by rw [hzero row hr]; rfl),
      foldl_appendEach_replicate]
    rfl
  · obtain ⟨_, _, hvl⟩ := List.exists_cons_of_ne_nil stmt.valuesLists_ne_nil
    rw [hvl, List.length_cons, List.replicate_succ]
    cases outOfBounds <;> simp

end Rows

/-- Callees that transform each row with `transform` and need no coercion. -/
def trivialValuesCallees (transform : List ρ → Except ErrorData (List Expr)) :
    ValuesCallees ρ where
  transformExpressionList := transform
  selectCommonType _ _ := .ok int4Oid
  coerceToCommonType expr _ _ := .ok expr
  selectCommonCollation _ _ := .ok 0
  containVarsOfLevel _ _ := false
  addRangeTableEntryForValues pstate _ _ _ := pstate
  expandRelAttrs _ _ := []
  transformSortClause pstate _ targetList := .ok (pstate, [], targetList)
  transformLimitClause _ _ := .ok none

/-- `VALUES (1, 2), (3, 4)` comes back as its two rows. -/
example : transformValuesLists (trivialValuesCallees fun sublist => .ok sublist) []
    [[.const int4Oid 1 false, .const int4Oid 2 false],
      [.const int4Oid 3 false, .const int4Oid 4 false]] =
    .ok ([[.const int4Oid 1 false, .const int4Oid 2 false],
      [.const int4Oid 3 false, .const int4Oid 4 false]], [0, 0]) := rfl

/-- `SELECT * FROM t, LATERAL (VALUES (t.*), (t.*)) v` with `t` a table of no columns, where
the read past the array finds `NIL`: no row comes back instead of two empty ones. -/
theorem transformValuesLists_zero_width_star :
    transformValuesLists (trivialValuesCallees fun (_ : List String) => .ok []) []
        [["t.*"], ["t.*"]] = .ok ([], []) ∧ ([] : List (List Expr)) ≠ List.replicate 2 [] :=
  transformValuesLists_zero_width (trivialValuesCallees fun (_ : List String) => .ok []) []
    ⟨[["t.*"], ["t.*"]], by simp, ⟨none, [], none, none, [], false⟩⟩
    (.cons rfl (.cons rfl .nil)) (by simp)

end AntdbAnalyze
