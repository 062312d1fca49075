import AntdbAnalyze.OuterJoin.Conservation

/-!
# The row algebra of outer joins

The `(+)` rewrite nests the LEFT JOINs it builds differently from the marker edges: it
joins a marked table's tree to the whole FROM item holding its preserving table, not to
that table. This module proves the laws under which the two nestings return the same
rows, over the row semantics of `Semantics`. The argument rests on one fact: a row of a
tree names only the tree's tables (`JoinNode.eval_supportedOn`), so rows of disjoint
trees merge in either order, and a qualifier that reads only some tables sees only their
part of a merged row.

- `joinRows_left_assoc`: `(A ⟕ B ON q) ⟕ S ON m` and `A ⟕ (B ⟕ S ON m) ON q` return the
  same rows in the same order when `m` reads only `B` and `S` and is strict in a table
  of `B`;
- `joinRows_left_swap`: two LEFT JOINs onto one preserved input commute, up to the order
  of the rows;
- `JoinNode.attachAt`: a tree with a LEFT JOIN put under one of its tables, and
  **`JoinNode.eval_attachAt`**: LEFT JOINing a tree to a whole tree of LEFT JOINs, on a
  qualifier strict in one of its tables, returns the rows of the tree with the join put
  under that table;
- `crossRows_perm`: the order of the FROM items does not change the rows, up to order;
- **`crossRows_perm_filter_innerQuals`**: inner joins over a FROM list's trees of outer
  joins are the cross product of those trees (`JoinNode.leftTrees`) filtered by the inner
  joins' ON clauses (`JoinNode.innerQuals`).
-/

namespace AntdbAnalyze

/-! ## Rows and the tables they name -/

/-- A row names only the tables of `ts`. -/
def Row.SupportedOn (row : Row) (ts : List Nat) : Prop :=
  ∀ i, i ∉ ts → row i = none

namespace Row

@[simp] theorem merge_apply (a b : Row) (i : Nat) : a.merge b i = (a i).or (b i) := rfl

theorem merge_assoc (a b c : Row) : (a.merge b).merge c = a.merge (b.merge c) :=
  funext fun _ => Option.or_assoc

@[simp] theorem merge_none (a : Row) : a.merge (fun _ => none) = a :=
  funext fun _ => Option.or_none

@[simp] theorem none_merge (a : Row) : Row.merge (fun _ => none) a = a :=
  funext fun _ => Option.none_or

/-- Rows of disjoint tables merge in either order. -/
theorem merge_comm {a b : Row} (h : ∀ i, a i = none ∨ b i = none) : a.merge b = b.merge a := by
  funext i
  rcases h i with h | h <;> simp [h]

theorem SupportedOn.mono {row : Row} {s s' : List Nat} (h : row.SupportedOn s)
    (hs : ∀ i ∈ s, i ∈ s') : row.SupportedOn s' :=
  fun i hi => h i fun h' => hi (hs i h')

theorem SupportedOn.merge {a b : Row} {s t : List Nat} (ha : a.SupportedOn s)
    (hb : b.SupportedOn t) : (a.merge b).SupportedOn (s ++ t) := fun i hi => by
  rw [List.mem_append, not_or] at hi
  simp [ha i hi.1, hb i hi.2]

/-- Off the tables of `b`, a merge reads `a`. -/
theorem merge_of_not_mem_right {a b : Row} {t : List Nat} (hb : b.SupportedOn t) {i : Nat}
    (hi : i ∉ t) : a.merge b i = a i := by
  simp [hb i hi]

/-- Off the tables of `a`, a merge reads `b`. -/
theorem merge_of_not_mem_left {a b : Row} {s : List Nat} (ha : a.SupportedOn s) {i : Nat}
    (hi : i ∉ s) : a.merge b i = b i := by
  simp [ha i hi]

/-- Rows of disjoint tables merge in either order. -/
theorem merge_comm_of_disjoint {a b : Row} {s t : List Nat} (ha : a.SupportedOn s)
    (hb : b.SupportedOn t) (hst : s.Disjoint t) : a.merge b = b.merge a :=
  merge_comm fun i => if hi : i ∈ s then .inr (hb i fun ht => hst hi ht) else .inl (ha i hi)

end Row

/-! ## What a qualifier reads -/

/-- `quals` reads only the tables `s`: it holds alike on rows that agree there. -/
def QualReads (sem : ExprSem) (quals : Option Expr) (s : List Nat) : Prop :=
  ∀ row row' : Row, (∀ i ∈ s, row i = row' i) →
    qualHolds sem 0 quals row = qualHolds sem 0 quals row'

/-- `quals` is strict in table `l`: it fails on every row where `l` is NULL-extended. -/
def QualStrict (sem : ExprSem) (quals : Option Expr) (l : Nat) : Prop :=
  ∀ row : Row, row l = none → qualHolds sem 0 quals row = false

theorem QualReads.mono {sem : ExprSem} {quals : Option Expr} {s s' : List Nat}
    (h : QualReads sem quals s) (hs : ∀ i ∈ s, i ∈ s') : QualReads sem quals s' :=
  fun row row' hrow => h row row' fun i hi => hrow i (hs i hi)

/-- A qualifier reading `s` sees only the part of a merge that names `s`. -/
theorem QualReads.merge_right {sem : ExprSem} {quals : Option Expr} {s t : List Nat}
    (h : QualReads sem quals s) {a b : Row} (hb : b.SupportedOn t) (hst : s.Disjoint t) :
    qualHolds sem 0 quals (a.merge b) = qualHolds sem 0 quals a :=
  h _ _ fun _ hi => Row.merge_of_not_mem_right hb fun ht => hst hi ht

/-- A qualifier reading `s` sees only the part of a merge that names `s`. -/
theorem QualReads.merge_left {sem : ExprSem} {quals : Option Expr} {s t : List Nat}
    (h : QualReads sem quals s) {a b : Row} (ha : a.SupportedOn t) (hst : s.Disjoint t) :
    qualHolds sem 0 quals (a.merge b) = qualHolds sem 0 quals b :=
  h _ _ fun _ hi => Row.merge_of_not_mem_left ha fun ht => hst hi ht

/-- The table a reference reads. -/
def OraRef.varno : OraRef → Nat
  | .marked v _ => v.varno
  | .plain v => v.varno

mutual
/-- An expression reads only the tables of its references. -/
theorem Expr.eval_congr (sem : ExprSem) {row row' : Row} (rownum : Int) :
    ∀ e : Expr, (∀ ref ∈ e.oraRefs, row ref.varno = row' ref.varno) →
      e.eval sem row rownum = e.eval sem row' rownum
  | .var v, h => by
    have hv : row v.varno = row' v.varno := h (.plain v) (by simp [Expr.oraRefs])
    simp only [Expr.eval, columnValue, hv]
  | .columnRefJoin v loc, h => by
    have hv : row v.varno = row' v.varno := h (.marked v loc) (by simp [Expr.oraRefs])
    simp only [Expr.eval, columnValue, hv]
  | .const _ _ _, _ => rfl
  | .opExpr _ _ args, h => by
    simp only [Expr.eval, exprListEval_congr sem rownum args h]
  | .funcExpr _ args, h => by
    simp only [Expr.eval, exprListEval_congr sem rownum args h]
  | .boolExpr op args, h => by
    cases op <;> simp only [Expr.eval, exprListEval_congr sem rownum args h]
  | .rownumExpr, _ => rfl
  | .setToDefault _ _ _, _ => rfl

/-- The list form of `Expr.eval_congr`. -/
theorem exprListEval_congr (sem : ExprSem) {row row' : Row} (rownum : Int) :
    ∀ es : List Expr, (∀ ref ∈ exprListOraRefs es, row ref.varno = row' ref.varno) →
      exprListEval sem row rownum es = exprListEval sem row' rownum es
  | [], _ => rfl
  | e :: es, h => by
    simp only [exprListOraRefs, List.mem_append] at h
    simp only [exprListEval, Expr.eval_congr sem rownum e fun ref hr => h ref (.inl hr),
      exprListEval_congr sem rownum es fun ref hr => h ref (.inr hr)]
end

/-- The tables of a list of references, marked or not, are those they read. -/
theorem mem_oraRefs_rels {i : Nat} : ∀ {refs : List OraRef},
    i ∈ oraRefsMarked refs ∪ oraRefsPlain refs ↔ ∃ ref ∈ refs, ref.varno = i
  | [] => by simp [oraRefsMarked, oraRefsPlain]
  | ref :: refs => by
    have ih := @mem_oraRefs_rels i refs
    simp only [oraRefsMarked, oraRefsPlain, List.foldr_cons, Finset.mem_union, List.mem_cons,
      exists_eq_or_imp] at ih ⊢
    rw [← ih]
    cases ref
    · simp [OraRef.markedRels, OraRef.plainRels, OraRef.varno, eq_comm, or_assoc]
    · simp [OraRef.markedRels, OraRef.plainRels, OraRef.varno, eq_comm, or_left_comm]

/-- A conjunct reads only its tables, marked or not. -/
theorem qualReads_some {sem : ExprSem} {e : Expr} {s : List Nat}
    (hs : ∀ i ∈ oraMarkedRels e ∪ oraPlainRels e, i ∈ s) : QualReads sem (some e) s :=
  fun _ _ hrow => by
    simp only [qualHolds, Option.all_some, Expr.holds]
    rw [Expr.eval_congr sem 0 e fun ref hr =>
      hrow _ (hs _ (mem_oraRefs_rels.mpr ⟨ref, hr, rfl⟩))]

/-! ## LEFT and inner joins -/

/-- The rows a LEFT JOIN makes of one preserved row `a`: its matches in `R`, or `a` alone,
NULL-extended, when it has none. -/
def leftMatches (sem : ExprSem) (quals : Option Expr) (R : List Row) (a : Row) : List Row :=
  if ((R.map a.merge).filter (qualHolds sem 0 quals)).isEmpty then [a]
  else (R.map a.merge).filter (qualHolds sem 0 quals)

theorem joinRows_left (sem : ExprSem) (L R : List Row) (quals : Option Expr) :
    joinRows sem .left L R quals = L.flatMap (leftMatches sem quals R) := rfl

theorem joinRows_inner (sem : ExprSem) (L R : List Row) (quals : Option Expr) :
    joinRows sem .inner L R quals =
      (L.flatMap fun a => R.map a.merge).filter (qualHolds sem 0 quals) := by
  simp [joinRows, List.filter_flatMap]

/-- The matches of `a`, filtered before they are merged. -/
theorem leftMatches_eq (sem : ExprSem) (quals : Option Expr) (R : List Row) (a : Row) :
    leftMatches sem quals R a =
      if (R.filter fun b => qualHolds sem 0 quals (a.merge b)).isEmpty then [a]
      else (R.filter fun b => qualHolds sem 0 quals (a.merge b)).map a.merge := by
  rw [leftMatches, List.filter_map, Function.comp_def]
  generalize R.filter (fun b => qualHolds sem 0 quals (a.merge b)) = ms
  cases ms <;> rfl

theorem leftMatches_ne_nil (sem : ExprSem) (quals : Option Expr) (R : List Row) (a : Row) :
    leftMatches sem quals R a ≠ [] := by
  unfold leftMatches
  split
  · exact List.cons_ne_nil _ _
  · next h => exact fun h' => h (by rw [h']; rfl)

/-- A row `y` whose qualifier values on `R` are those of `a` has the matches of `a`,
merged into `y`. -/
theorem leftMatches_of_agree {sem : ExprSem} {quals : Option Expr} {R : List Row} {a y : Row}
    (h : ∀ b ∈ R, qualHolds sem 0 quals (y.merge b) = qualHolds sem 0 quals (a.merge b)) :
    leftMatches sem quals R y =
      if (R.filter fun b => qualHolds sem 0 quals (a.merge b)).isEmpty then [y]
      else (R.filter fun b => qualHolds sem 0 quals (a.merge b)).map y.merge := by
  rw [leftMatches_eq, List.filter_congr h]

theorem leftMatches_perm {sem : ExprSem} {quals : Option Expr} {R R' : List Row} (hR : R.Perm R')
    (a : Row) : (leftMatches sem quals R a).Perm (leftMatches sem quals R' a) := by
  have hms := (hR.map a.merge).filter (qualHolds sem 0 quals)
  unfold leftMatches
  rw [hms.isEmpty_eq]
  split
  · exact .refl _
  · exact hms

theorem joinRows_left_perm {sem : ExprSem} {quals : Option Expr} {L L' R R' : List Row}
    (hL : L.Perm L') (hR : R.Perm R') :
    (joinRows sem .left L R quals).Perm (joinRows sem .left L' R' quals) :=
  (List.Perm.flatMap_left L fun a _ => leftMatches_perm hR a).trans (hL.flatMap_right _)

theorem joinRows_inner_perm {sem : ExprSem} {quals : Option Expr} {L L' R R' : List Row}
    (hL : L.Perm L') (hR : R.Perm R') :
    (joinRows sem .inner L R quals).Perm (joinRows sem .inner L' R' quals) := by
  rw [joinRows_inner, joinRows_inner]
  exact ((List.Perm.flatMap_left L fun a _ => hR.map a.merge).trans
    (hL.flatMap_right _)).filter _

/-- A join names only the tables of its two inputs. -/
theorem joinRows_supportedOn {sem : ExprSem} {jointype : JoinType} {L R : List Row}
    {quals : Option Expr} {s t : List Nat} (hL : ∀ a ∈ L, a.SupportedOn s)
    (hR : ∀ b ∈ R, b.SupportedOn t) :
    ∀ row ∈ joinRows sem jointype L R quals, row.SupportedOn (s ++ t) := by
  have hmerge : ∀ a ∈ L, ∀ row ∈ (R.map a.merge).filter (qualHolds sem 0 quals),
      row.SupportedOn (s ++ t) := fun a ha row hrow => by
    obtain ⟨b, hb, rfl⟩ := List.mem_map.mp (List.mem_of_mem_filter hrow)
    exact (hL a ha).merge (hR b hb)
  have hleft : ∀ a ∈ L, ∀ row ∈ leftMatches sem quals R a, row.SupportedOn (s ++ t) :=
    fun a ha row hrow => by
      unfold leftMatches at hrow
      split at hrow
      · exact List.mem_singleton.mp hrow ▸ (hL a ha).mono fun _ h => List.mem_append_left _ h
      · exact hmerge a ha row hrow
  have hright : ∀ row ∈ R, row.SupportedOn (s ++ t) :=
    fun row h => (hR row h).mono fun _ h => List.mem_append_right _ h
  intro row hrow
  cases jointype <;>
    simp only [joinRows, List.mem_append, List.mem_flatMap] at hrow
  · obtain ⟨a, ha, hrow⟩ := hrow
    exact hmerge a ha row hrow
  · obtain ⟨a, ha, hrow⟩ := hrow
    exact hleft a ha row hrow
  · rcases hrow with ⟨a, ha, hrow⟩ | hrow
    · exact hleft a ha row hrow
    · exact hright row (List.mem_of_mem_filter hrow)
  · rcases hrow with ⟨a, ha, hrow⟩ | hrow
    · exact hmerge a ha row hrow
    · exact hright row (List.mem_of_mem_filter hrow)

mutual
/-- **A row of a tree names only the tree's tables.** -/
theorem JoinNode.eval_supportedOn (sem : ExprSem) (db : Database) :
    ∀ node : JoinNode, ∀ row ∈ node.eval sem db, row.SupportedOn node.leaves
  | .rangeTblRef i, row, h => by
    obtain ⟨t, -, rfl⟩ := List.mem_map.mp h
    intro j hj
    simp only [JoinNode.leaves, List.mem_singleton] at hj
    simp [singletonRow, hj]
  | .joinExpr _ larg rarg _ _, row, h =>
    joinRows_supportedOn (JoinNode.eval_supportedOn sem db larg)
      (JoinNode.eval_supportedOn sem db rarg) row h
  | .fromExpr fromlist _, row, h =>
    crossRows_supportedOn sem db fromlist row (List.mem_of_mem_filter h)

/-- A row of a cross product names only the tables of its items. -/
theorem crossRows_supportedOn (sem : ExprSem) (db : Database) :
    ∀ nodes : List JoinNode, ∀ row ∈ crossRows sem db nodes, row.SupportedOn (leavesList nodes)
  | [], row, h => by
    rw [crossRows, List.mem_singleton] at h
    exact fun _ _ => by rw [h]
  | node :: rest, row, h => by
    obtain ⟨a, ha, hrow⟩ := List.mem_flatMap.mp h
    obtain ⟨c, hc, rfl⟩ := List.mem_map.mp hrow
    exact (JoinNode.eval_supportedOn sem db node a ha).merge (crossRows_supportedOn sem db rest c hc)
end

/-! ## Two LEFT JOIN laws -/

/-- Two nested loops, swapped. -/
theorem flatMap_flatMap_swap_perm {α β γ : Type} (xs : List α) (ys : List β)
    (f : α → β → List γ) :
    (xs.flatMap fun x => ys.flatMap (f x)).Perm (ys.flatMap fun y => xs.flatMap (f · y)) := by
  induction xs with
  | nil => simp
  | cons x xs ih =>
    simp only [List.flatMap_cons]
    exact (ih.append_left _).trans (List.flatMap_append_perm ys (f x) _)

/-- A product of two lists, its loops swapped. -/
theorem flatMap_map_swap_perm {α β γ : Type} (xs : List α) (ys : List β) (f : α → β → γ) :
    (xs.flatMap fun x => ys.map (f x)).Perm (ys.flatMap fun y => xs.map (f · y)) := by
  simpa [List.map_eq_flatMap] using flatMap_flatMap_swap_perm xs ys fun x y => [f x y]

/-- A `flatMap` that gives nothing off `p` is one over the elements `p` keeps. -/
theorem flatMap_ite_nil {α β : Type} (l : List α) (p : α → Bool) (f : α → List β) :
    (l.flatMap fun a => if p a then f a else []) = (l.filter p).flatMap f := by
  induction l with
  | nil => rfl
  | cons a l ih => by_cases h : p a <;> simp [List.filter_cons, h, ih]

section Laws

variable {sem : ExprSem} {LA LB LS : List Row} {sA sB sS : List Nat}

/-- **Association of LEFT JOINs.** When `m` reads only the tables of `B` and `S` and is
strict in a table of `B`, joining `S` to `A ⟕ B` on `m` is joining `B ⟕ S` to `A`: a row of
`A` with no match in `B` is NULL on `B`, so `m` rejects it, and a match `a b` has the
matches of `b` in `S`. -/
theorem joinRows_left_assoc {q m : Option Expr} {l : Nat}
    (hA : ∀ a ∈ LA, a.SupportedOn sA) (hS : ∀ s ∈ LS, s.SupportedOn sS) (hAB : sA.Disjoint sB)
    (hAS : sA.Disjoint sS)
    (hBS : sB.Disjoint sS) (hq : QualReads sem q (sA ++ sB)) (hm : QualReads sem m (sB ++ sS))
    (hl : l ∈ sB) (hstrict : QualStrict sem m l) :
    joinRows sem .left (joinRows sem .left LA LB q) LS m =
      joinRows sem .left LA (joinRows sem .left LB LS m) q := by
  simp only [joinRows_left, List.flatMap_assoc]
  refine List.flatMap_congr fun a ha => ?_
  have hdisjS : (sA ++ sB).Disjoint sS := List.disjoint_append_left.mpr ⟨hAS, hBS⟩
  -- a row of `A` alone is NULL on `B`: `m` rejects all its merges with `S`
  have hnone : leftMatches sem m LS a = [a] := by
    rw [leftMatches_eq, if_pos]
    refine List.isEmpty_iff.mpr (List.filter_eq_nil_iff.mpr fun s hs => ?_)
    rw [hstrict]
    · exact Bool.false_ne_true
    · rw [Row.merge_apply, hA a ha l fun h => hAB h hl, hS s hs l fun h => hBS hl h]
      rfl
  -- joining `S` to `b` does not change whether `a b` matches on `q`
  have hqS : ∀ b ∈ LB, ∀ y ∈ leftMatches sem m LS b,
      qualHolds sem 0 q (a.merge y) = qualHolds sem 0 q (a.merge b) := fun b hb y hy => by
    rw [leftMatches_eq] at hy
    split at hy
    · rw [List.mem_singleton.mp hy]
    · obtain ⟨s, hs, rfl⟩ := List.mem_map.mp hy
      rw [← Row.merge_assoc]
      exact (hq.merge_right (hS s (List.mem_of_mem_filter hs)) hdisjS)
  -- the matches of `a b` in `S` are those of `b`
  have hmA : ∀ b ∈ LB, leftMatches sem m LS (a.merge b) = (leftMatches sem m LS b).map a.merge :=
    fun b hb => by
      rw [leftMatches_of_agree (a := b) fun s hs => by
        rw [Row.merge_assoc]
        exact hm.merge_left (hA a ha) (List.disjoint_append_right.mpr ⟨hAB, hAS⟩).symm,
        leftMatches_eq]
      split <;> simp [Row.merge_assoc]
  have hfilter : ((LB.flatMap (leftMatches sem m LS)).map a.merge).filter (qualHolds sem 0 q) =
      (LB.filter fun b => qualHolds sem 0 q (a.merge b)).flatMap
        fun b => (leftMatches sem m LS b).map a.merge := by
    rw [List.map_flatMap, List.filter_flatMap, ← flatMap_ite_nil]
    refine List.flatMap_congr fun b hb => ?_
    rw [List.filter_map]
    split
    · next hqb =>
      rw [List.filter_eq_self.mpr fun y hy => by simpa [hqS b hb y hy] using hqb]
    · next hqb =>
      rw [List.filter_eq_nil_iff.mpr fun y hy => by simpa [hqS b hb y hy] using hqb, List.map_nil]
  rw [leftMatches_eq sem q LB a, leftMatches.eq_1 sem q (LB.flatMap (leftMatches sem m LS)) a,
    hfilter]
  by_cases hBq : (LB.filter fun b => qualHolds sem 0 q (a.merge b)).isEmpty
  · rw [if_pos hBq, List.isEmpty_iff.mp hBq, List.flatMap_nil, List.flatMap_singleton, hnone]
    rfl
  · rw [if_neg hBq, List.flatMap_map, List.flatMap_congr fun b hb => hmA b (List.mem_of_mem_filter hb),
      if_neg]
    obtain ⟨b, hb⟩ := List.exists_mem_of_ne_nil _ fun h => hBq (List.isEmpty_iff.mpr h)
    obtain ⟨y, hy⟩ := List.exists_mem_of_ne_nil _ (leftMatches_ne_nil sem m LS b)
    intro h
    rw [List.isEmpty_iff] at h
    exact List.not_mem_nil _ (h ▸ List.mem_flatMap.mpr ⟨b, hb, List.mem_map_of_mem _ hy⟩)

/-- **Two LEFT JOINs onto one preserved input commute.** When `q` reads only `A` and `B`
and `m` only `A` and `S`, joining `B` on `q` and then `S` on `m` gives the rows of joining
`S` first, in another order. -/
theorem joinRows_left_swap {q m : Option Expr} (hB : ∀ b ∈ LB, b.SupportedOn sB)
    (hS : ∀ s ∈ LS, s.SupportedOn sS) (hAB : sA.Disjoint sB) (hAS : sA.Disjoint sS)
    (hBS : sB.Disjoint sS) (hq : QualReads sem q (sA ++ sB)) (hm : QualReads sem m (sA ++ sS)) :
    (joinRows sem .left (joinRows sem .left LA LB q) LS m).Perm
      (joinRows sem .left (joinRows sem .left LA LS m) LB q) := by
  simp only [joinRows_left, List.flatMap_assoc]
  refine List.Perm.flatMap_left _ fun a ha => ?_
  -- the rows `a` makes with `B`, and with `S`
  have hmB : ∀ y ∈ leftMatches sem q LB a, ∀ s ∈ LS,
      qualHolds sem 0 m (y.merge s) = qualHolds sem 0 m (a.merge s) := fun y hy s hs => by
    rw [leftMatches_eq] at hy
    split at hy
    · rw [List.mem_singleton.mp hy]
    · obtain ⟨b, hb, rfl⟩ := List.mem_map.mp hy
      rw [Row.merge_assoc, Row.merge_comm_of_disjoint (hB b (List.mem_of_mem_filter hb)) (hS s hs)
        hBS, ← Row.merge_assoc]
      exact hm.merge_right (hB b (List.mem_of_mem_filter hb))
        (List.disjoint_append_left.mpr ⟨hAB, hBS.symm⟩)
  have hqS : ∀ z ∈ leftMatches sem m LS a, ∀ b ∈ LB,
      qualHolds sem 0 q (z.merge b) = qualHolds sem 0 q (a.merge b) := fun z hz b hb => by
    rw [leftMatches_eq] at hz
    split at hz
    · rw [List.mem_singleton.mp hz]
    · obtain ⟨s, hs, rfl⟩ := List.mem_map.mp hz
      rw [Row.merge_assoc, Row.merge_comm_of_disjoint (hS s (List.mem_of_mem_filter hs)) (hB b hb)
        hBS.symm, ← Row.merge_assoc]
      exact hq.merge_right (hS s (List.mem_of_mem_filter hs))
        (List.disjoint_append_left.mpr ⟨hAS, hBS⟩)
  rw [List.flatMap_congr fun y hy => leftMatches_of_agree (hmB y hy),
    List.flatMap_congr fun z hz => leftMatches_of_agree (hqS z hz), leftMatches_eq sem q LB a,
    leftMatches_eq sem m LS a]
  have hmerge : ∀ b ∈ LB.filter (fun b => qualHolds sem 0 q (a.merge b)),
      ∀ s ∈ LS.filter (fun s => qualHolds sem 0 m (a.merge s)),
      (a.merge b).merge s = (a.merge s).merge b := fun b hb s hs => by
    rw [Row.merge_assoc, Row.merge_comm_of_disjoint (hB b (List.mem_of_mem_filter hb))
      (hS s (List.mem_of_mem_filter hs)) hBS, ← Row.merge_assoc]
  generalize LB.filter (fun b => qualHolds sem 0 q (a.merge b)) = Bq at hmerge ⊢
  generalize LS.filter (fun s => qualHolds sem 0 m (a.merge s)) = Sm at hmerge ⊢
  by_cases hB0 : Bq.isEmpty <;> by_cases hS0 : Sm.isEmpty <;> simp [hB0, hS0]
  -- `a` matches in both: the two loops over the matches, swapped
  rw [List.flatMap_map, List.flatMap_map]
  exact (flatMap_map_swap_perm Bq Sm fun b s => (a.merge b).merge s).trans
    (.of_eq (List.flatMap_congr fun s hs => List.map_congr_left fun b hb => hmerge b hb s hs))

end Laws

/-! ## Cross products -/

/-- The cross product of two lists of items is the product of their cross products. -/
theorem crossRows_append (sem : ExprSem) (db : Database) : ∀ xs ys : List JoinNode,
    crossRows sem db (xs ++ ys) =
      (crossRows sem db xs).flatMap fun a => (crossRows sem db ys).map a.merge
  | [], ys => by
    rw [List.nil_append, crossRows, List.flatMap_singleton]
    exact ((List.map_congr_left fun b _ => Row.none_merge b).trans (List.map_id _)).symm
  | x :: xs, ys => by
    rw [List.cons_append, crossRows, crossRows, crossRows_append sem db xs ys, List.flatMap_assoc]
    refine List.flatMap_congr fun a _ => ?_
    rw [List.map_flatMap, List.flatMap_map]
    exact List.flatMap_congr fun c _ => by
      rw [List.map_map]
      exact List.map_congr_left fun e _ => (Row.merge_assoc a c e).symm

/-- A permutation of items carries its tables along. -/
theorem leavesList_perm {items items' : List JoinNode} (h : items.Perm items') :
    (leavesList items).Perm (leavesList items') := by
  simpa using h.flatMap_right JoinNode.leaves

/-- **The order of the FROM items does not matter**: with distinct tables, a permutation
of the items permutes the rows of their cross product. -/
theorem crossRows_perm (sem : ExprSem) (db : Database) {items items' : List JoinNode}
    (h : items.Perm items') (hnd : (leavesList items).Nodup) :
    (crossRows sem db items).Perm (crossRows sem db items') := by
  induction h with
  | nil => exact .refl _
  | cons x _ ih =>
    simp only [leavesList, List.nodup_append] at hnd
    exact List.Perm.flatMap_left _ fun a _ => (ih hnd.2.1).map _
  | swap x y l =>
    simp only [leavesList, List.nodup_append, List.disjoint_append_right] at hnd
    simp only [crossRows, List.map_flatMap, List.map_map, Function.comp_def]
    refine (flatMap_flatMap_swap_perm _ _ _).trans (.of_eq (List.flatMap_congr fun a ha =>
      List.flatMap_congr fun b hb => List.map_congr_left fun c _ => ?_))
    rw [← Row.merge_assoc, ← Row.merge_assoc, Row.merge_comm_of_disjoint
      (JoinNode.eval_supportedOn sem db y b hb) (JoinNode.eval_supportedOn sem db x a ha)
      hnd.2.2.1]
  | trans h₁ _ ih₁ ih₂ =>
    exact (ih₁ hnd).trans (ih₂ ((leavesList_perm h₁).nodup_iff.mp hnd))

/-- Items whose rows are permutations of each other, in the same places, have
permutations of the same cross product. -/
theorem crossRows_perm_of_forall₂ (sem : ExprSem) (db : Database) {items items' : List JoinNode}
    (h : List.Forall₂ (fun I J => (I.eval sem db).Perm (J.eval sem db)) items items') :
    (crossRows sem db items).Perm (crossRows sem db items') := by
  induction h with
  | nil => exact .refl _
  | cons hIJ _ ih => exact (List.Perm.flatMap_left _ fun a _ => ih.map _).trans (hIJ.flatMap_right _)

/-! ## Inner joins over trees of outer joins -/

/-- The trees an item joins by inner joins: the item itself unless it is an inner join. -/
def JoinNode.leftTrees : JoinNode → List JoinNode
  | .joinExpr .inner larg rarg _ _ => larg.leftTrees ++ rarg.leftTrees
  | node => [node]

/-- The ON clauses of the inner joins of an item above its `leftTrees`. -/
def JoinNode.innerQuals : JoinNode → List (Option Expr)
  | .joinExpr .inner larg rarg quals _ => larg.innerQuals ++ rarg.innerQuals ++ [quals]
  | _ => []

/-- Each inner join's ON reads only the tables of its two inputs. -/
def JoinNode.InnerReads (sem : ExprSem) : JoinNode → Prop
  | .joinExpr .inner larg rarg quals _ =>
    larg.InnerReads sem ∧ rarg.InnerReads sem ∧ QualReads sem quals (larg.leaves ++ rarg.leaves)
  | _ => True

/-- The trees of an item hold its tables. -/
theorem JoinNode.leavesList_leftTrees : ∀ node : JoinNode, leavesList node.leftTrees = node.leaves
  | .joinExpr .inner larg rarg _ _ => by
    simp only [JoinNode.leftTrees, JoinNode.leaves, leavesList_eq_flatMap, List.flatMap_append]
    rw [← leavesList_eq_flatMap, ← leavesList_eq_flatMap, larg.leavesList_leftTrees,
      rarg.leavesList_leftTrees]
  | .joinExpr .left _ _ _ _ | .joinExpr .right _ _ _ _ | .joinExpr .full _ _ _ _
  | .rangeTblRef _ | .fromExpr _ _ => by simp [JoinNode.leftTrees]

/-- The inner joins' ON clauses of an item read only its tables. -/
theorem JoinNode.InnerReads.innerQuals {sem : ExprSem} :
    ∀ {node : JoinNode}, node.InnerReads sem → ∀ q ∈ node.innerQuals, QualReads sem q node.leaves
  | .joinExpr .inner larg rarg quals rtindex, h, q, hq => by
    simp only [JoinNode.innerQuals, List.mem_append, List.mem_singleton] at hq
    have hsub : ∀ i ∈ larg.leaves ++ rarg.leaves,
        i ∈ (JoinNode.joinExpr .inner larg rarg quals rtindex).leaves := fun i hi => hi
    rcases hq with (hq | hq) | rfl
    · exact (h.1.innerQuals q hq).mono fun i hi => hsub i (List.mem_append_left _ hi)
    · exact (h.2.1.innerQuals q hq).mono fun i hi => hsub i (List.mem_append_right _ hi)
    · exact h.2.2.mono hsub
  | .joinExpr .left _ _ _ _, _, _, hq | .joinExpr .right _ _ _ _, _, _, hq
  | .joinExpr .full _ _ _ _, _, _, hq | .rangeTblRef _, _, _, hq | .fromExpr _ _, _, _, hq => by
    simp [JoinNode.innerQuals] at hq

/-- Whether every qualifier of a list holds on a row. -/
def qualsHold (sem : ExprSem) (quals : List (Option Expr)) (row : Row) : Bool :=
  quals.all (qualHolds sem 0 · row)

@[simp] theorem qualsHold_nil (sem : ExprSem) : qualsHold sem [] = fun _ => true := rfl

@[simp] theorem qualsHold_cons (sem : ExprSem) (q : Option Expr) (qs : List (Option Expr))
    (row : Row) : qualsHold sem (q :: qs) row = (qualHolds sem 0 q row && qualsHold sem qs row) :=
  rfl

@[simp] theorem qualsHold_append (sem : ExprSem) (qs qs' : List (Option Expr)) (row : Row) :
    qualsHold sem (qs ++ qs') row = (qualsHold sem qs row && qualsHold sem qs' row) := by
  simp [qualsHold]

/-- Qualifiers that read only `s` see only the part of a merge that names `s`. -/
theorem qualsHold_merge_right {sem : ExprSem} {qs : List (Option Expr)} {s t : List Nat}
    (h : ∀ q ∈ qs, QualReads sem q s) {a b : Row} (hb : b.SupportedOn t) (hst : s.Disjoint t) :
    qualsHold sem qs (a.merge b) = qualsHold sem qs a := by
  unfold qualsHold
  rw [Bool.eq_iff_iff, List.all_eq_true, List.all_eq_true]
  exact forall₂_congr fun q hq => by rw [(h q hq).merge_right hb hst]

/-- Qualifiers that read only `s` see only the part of a merge that names `s`. -/
theorem qualsHold_merge_left {sem : ExprSem} {qs : List (Option Expr)} {s t : List Nat}
    (h : ∀ q ∈ qs, QualReads sem q s) {a b : Row} (ha : a.SupportedOn t) (hst : s.Disjoint t) :
    qualsHold sem qs (a.merge b) = qualsHold sem qs b := by
  unfold qualsHold
  rw [Bool.eq_iff_iff, List.all_eq_true, List.all_eq_true]
  exact forall₂_congr fun q hq => by rw [(h q hq).merge_left ha hst]

/-- Filtering a product by a test on each side is filtering each side. -/
theorem filter_flatMap_map_merge {CA CB : List Row} {PA PB : Row → Bool}
    (hPA : ∀ a ∈ CA, ∀ b ∈ CB, PA (a.merge b) = PA a)
    (hPB : ∀ a ∈ CA, ∀ b ∈ CB, PB (a.merge b) = PB b) :
    (CA.flatMap fun a => CB.map a.merge).filter (fun row => PA row && PB row) =
      (CA.filter PA).flatMap fun a => (CB.filter PB).map a.merge := by
  rw [List.filter_flatMap, ← flatMap_ite_nil]
  refine List.flatMap_congr fun a ha => ?_
  rw [List.filter_map]
  split
  · next hpa =>
    exact congrArg _ (List.filter_congr fun b hb => by simp [hPA a ha b hb, hPB a ha b hb, hpa])
  · next hpa =>
    rw [List.filter_eq_nil_iff.mpr fun b hb => by simp [hPA a ha b hb, hpa], List.map_nil]

/-- The inner joins of an item, read as a filter of the cross product of its trees. -/
theorem JoinNode.eval_perm_filter_innerQuals (sem : ExprSem) (db : Database) :
    ∀ {node : JoinNode}, node.InnerReads sem → node.leaves.Nodup →
      (node.eval sem db).Perm
        ((crossRows sem db node.leftTrees).filter (qualsHold sem node.innerQuals))
  | .joinExpr .inner larg rarg quals _, h, hnd => by
    rw [JoinNode.leaves, List.nodup_append] at hnd
    have hA := eval_perm_filter_innerQuals sem db h.1 hnd.1
    have hB := eval_perm_filter_innerQuals sem db h.2.1 hnd.2.1
    have hsA := crossRows_supportedOn sem db larg.leftTrees
    have hsB := crossRows_supportedOn sem db rarg.leftTrees
    rw [JoinNode.leavesList_leftTrees] at hsA hsB
    refine (joinRows_inner_perm hA hB).trans (.of_eq ?_)
    rw [joinRows_inner, ← filter_flatMap_map_merge
      (fun a _ b hb => qualsHold_merge_right h.1.innerQuals (hsB b hb) hnd.2.2)
      (fun a ha b _ => qualsHold_merge_left h.2.1.innerQuals (hsA a ha) hnd.2.2.symm),
      List.filter_filter, JoinNode.leftTrees, crossRows_append, JoinNode.innerQuals]
    exact List.filter_congr fun row _ => by simp [Bool.and_comm, Bool.and_left_comm]
  | .joinExpr .left _ _ _ _, _, _ | .joinExpr .right _ _ _ _, _, _
  | .joinExpr .full _ _ _ _, _, _ | .rangeTblRef _, _, _ | .fromExpr _ _, _, _ => by
    simp [JoinNode.leftTrees, JoinNode.innerQuals, qualsHold, crossRows]

/-- **Inner joins over trees of outer joins.** With distinct tables and each inner join's
ON reading only its inputs, the cross product of a FROM list is, up to order, the cross
product of its items' trees of outer joins filtered by the inner joins' ON clauses. -/
theorem crossRows_perm_filter_innerQuals (sem : ExprSem) (db : Database) :
    ∀ {items : List JoinNode}, (∀ item ∈ items, item.InnerReads sem) →
      (leavesList items).Nodup →
      (crossRows sem db items).Perm ((crossRows sem db (items.flatMap JoinNode.leftTrees)).filter
        (qualsHold sem (items.flatMap JoinNode.innerQuals)))
  | [], _, _ => by simp [crossRows, qualsHold]
  | item :: rest, h, hnd => by
    rw [List.forall_mem_cons] at h
    rw [leavesList, List.nodup_append] at hnd
    have hI := item.eval_perm_filter_innerQuals sem db h.1 hnd.1
    have hR := crossRows_perm_filter_innerQuals sem db h.2 hnd.2.1
    have hsI := crossRows_supportedOn sem db item.leftTrees
    have hsR := crossRows_supportedOn sem db (rest.flatMap JoinNode.leftTrees)
    rw [JoinNode.leavesList_leftTrees] at hsI
    have hleaves : leavesList (rest.flatMap JoinNode.leftTrees) = leavesList rest := by
      simp only [leavesList_eq_flatMap, List.flatMap_assoc]
      exact List.flatMap_congr fun node _ => by rw [← leavesList_eq_flatMap, node.leavesList_leftTrees]
    have hreadsR : ∀ q ∈ rest.flatMap JoinNode.innerQuals, QualReads sem q (leavesList rest) :=
      fun q hq => by
        obtain ⟨node, hnode, hq⟩ := List.mem_flatMap.mp hq
        exact ((h.2 node hnode).innerQuals q hq).mono fun i hi => by
          simpa using ⟨node, hnode, hi⟩
    rw [hleaves] at hsR
    refine (List.Perm.flatMap_left _ fun a _ => hR.map _).trans
      ((hI.flatMap_right _).trans (.of_eq ?_))
    rw [← filter_flatMap_map_merge
      (fun a _ b hb => qualsHold_merge_right ((h.1).innerQuals) (hsR b hb) hnd.2.2)
      (fun a ha b _ => qualsHold_merge_left hreadsR (hsI a ha) hnd.2.2.symm),
      List.flatMap_cons, List.flatMap_cons, crossRows_append]
    exact List.filter_congr fun row _ => by simp

/-! ## Putting a LEFT JOIN under a table -/

/-- The first table of a tree: for LEFT JOINs, the table every row of the tree keeps. -/
def JoinNode.root : JoinNode → Nat
  | .rangeTblRef rtindex => rtindex
  | .joinExpr _ larg _ _ _ => larg.root
  | .fromExpr _ _ => 0

/-- `node` with `S` LEFT JOINed on `m` under its table `l`: the join takes the place of
the largest subtree whose first table is `l`, that is `l` with what is joined to it. -/
def JoinNode.attachAt : JoinNode → Nat → JoinNode → Expr → JoinNode
  | .joinExpr jointype larg rarg quals rtindex, l, S, m =>
    if larg.root = l then .joinExpr .left (.joinExpr jointype larg rarg quals rtindex) S (some m) 0
    else if l ∈ rarg.leaves then .joinExpr jointype larg (rarg.attachAt l S m) quals rtindex
    else .joinExpr jointype (larg.attachAt l S m) rarg quals rtindex
  | node, _, S, m => .joinExpr .left node S (some m) 0

/-- A tree of LEFT JOINs over tables, each ON reading only the tables of its inputs. -/
def JoinNode.LeftReads (sem : ExprSem) : JoinNode → Prop
  | .rangeTblRef _ => True
  | .joinExpr .left larg rarg quals _ =>
    larg.LeftReads sem ∧ rarg.LeftReads sem ∧ QualReads sem quals (larg.leaves ++ rarg.leaves)
  | _ => False

/-- Putting a join under a table adds the joined tree's tables. -/
theorem JoinNode.leaves_attachAt (l : Nat) (S : JoinNode) (m : Expr) :
    ∀ node : JoinNode, (node.attachAt l S m).leaves.Perm (node.leaves ++ S.leaves)
  | .joinExpr jointype larg rarg quals rtindex => by
    unfold JoinNode.attachAt
    split_ifs
    · exact .refl _
    · simpa [JoinNode.leaves] using (JoinNode.leaves_attachAt l S m rarg).append_left larg.leaves
    · simp only [JoinNode.leaves, List.append_assoc]
      exact ((JoinNode.leaves_attachAt l S m larg).append_right _).trans
        (by simpa using List.perm_append_comm.append_left larg.leaves)
  | .rangeTblRef _ | .fromExpr _ _ => .refl _

/-- Putting a join under a table keeps the first table. -/
theorem JoinNode.root_attachAt (l : Nat) (S : JoinNode) (m : Expr) :
    ∀ node : JoinNode, (node.attachAt l S m).root = node.root
  | .joinExpr jointype larg rarg quals rtindex => by
    unfold JoinNode.attachAt
    split_ifs <;> simp [JoinNode.root, JoinNode.root_attachAt l S m larg]
  | .rangeTblRef _ | .fromExpr _ _ => rfl

/-- Putting a join whose ON reads `l` and the joined tree under `l` keeps a tree of
LEFT JOINs one. -/
theorem JoinNode.LeftReads.attachAt {sem : ExprSem} {S : JoinNode} {l : Nat} {m : Expr}
    (hS : S.LeftReads sem) (hm : QualReads sem (some m) (l :: S.leaves)) :
    ∀ {node : JoinNode}, node.LeftReads sem → l ∈ node.leaves →
      (node.attachAt l S m).LeftReads sem
  | .rangeTblRef _, _, hl => ⟨trivial, hS, hm.mono fun i hi => by
      rcases List.mem_cons.mp hi with rfl | hi
      · exact List.mem_append_left _ hl
      · exact List.mem_append_right _ hi⟩
  | .joinExpr .left larg rarg quals rtindex, hT, hl => by
    have hreads : QualReads sem (some m)
        ((JoinNode.joinExpr .left larg rarg quals rtindex).leaves ++ S.leaves) :=
      hm.mono fun i hi => by
        rcases List.mem_cons.mp hi with rfl | hi
        · exact List.mem_append_left _ hl
        · exact List.mem_append_right _ hi
    unfold JoinNode.attachAt
    split_ifs with hroot hlB
    · exact ⟨hT, hS, hreads⟩
    · exact ⟨hT.1, JoinNode.LeftReads.attachAt hS hm hT.2.1 hlB, hT.2.2.mono fun i hi => by
        rw [List.mem_append] at hi ⊢
        exact hi.imp id fun hi =>
          (JoinNode.leaves_attachAt l S m rarg).mem_iff.mpr (List.mem_append_left _ hi)⟩
    · have hlA : l ∈ larg.leaves := by simpa [JoinNode.leaves, hlB] using hl
      exact ⟨JoinNode.LeftReads.attachAt hS hm hT.1 hlA, hT.2.1, hT.2.2.mono fun i hi => by
        rw [List.mem_append] at hi ⊢
        exact hi.imp (fun hi =>
          (JoinNode.leaves_attachAt l S m larg).mem_iff.mpr (List.mem_append_left _ hi)) id⟩
  | .joinExpr .inner _ _ _ _, hT, _ | .joinExpr .right _ _ _ _, hT, _
  | .joinExpr .full _ _ _ _, hT, _ | .fromExpr _ _, hT, _ => hT.elim

/-- **A LEFT JOIN onto a whole tree is one under the table it is strict in.** Let `node` be
a tree of LEFT JOINs and `m` a qualifier that reads only the table `l` of `node` and the
tables of `S`, and is strict in `l`. Then LEFT JOINing `S` to `node` on `m` returns the rows
of `node` with `S` LEFT JOINed under `l`, up to order: by association where `l` lies on
the nullable side of a join, by the swap of two joins where it lies on the preserved
side. -/
theorem JoinNode.eval_attachAt (sem : ExprSem) (db : Database) {S : JoinNode} {l : Nat}
    {m : Expr} (hm : QualReads sem (some m) (l :: S.leaves)) (hstrict : QualStrict sem (some m) l) :
    ∀ {node : JoinNode}, node.LeftReads sem → (node.leaves ++ S.leaves).Nodup → l ∈ node.leaves →
      (joinRows sem .left (node.eval sem db) (S.eval sem db) (some m)).Perm
        ((node.attachAt l S m).eval sem db)
  | .rangeTblRef _, _, _, _ => .refl _
  | .joinExpr .left larg rarg quals rtindex, hT, hnd, hl => by
    simp only [JoinNode.leaves, List.append_assoc, List.nodup_append, List.disjoint_append_right,
      List.disjoint_append_left] at hnd
    have hsA := JoinNode.eval_supportedOn sem db larg
    have hsB := JoinNode.eval_supportedOn sem db rarg
    have hsS := JoinNode.eval_supportedOn sem db S
    by_cases hroot : larg.root = l
    · simp only [JoinNode.attachAt, if_pos hroot]
      exact .refl _
    by_cases hlB : l ∈ rarg.leaves
    · -- `l` on the nullable side: association, then the join under `l` inside `rarg`
      simp only [JoinNode.attachAt, if_neg hroot, if_pos hlB, JoinNode.eval]
      rw [joinRows_left_assoc hsA hsS hnd.2.2.1 hnd.2.2.2 hnd.2.1.2.2 hT.2.2
        (hm.mono fun i hi => by
          rcases List.mem_cons.mp hi with rfl | hi
          · exact List.mem_append_left _ hlB
          · exact List.mem_append_right _ hi) hlB hstrict]
      exact joinRows_left_perm (.refl _)
        (eval_attachAt sem db hm hstrict hT.2.1 (List.nodup_append.mpr ⟨hnd.2.1.1, hnd.2.1.2.1,
          hnd.2.1.2.2⟩) hlB)
    · -- `l` on the preserved side: swap the two joins, then the join under `l` inside `larg`
      have hlA : l ∈ larg.leaves := by
        simpa [JoinNode.leaves, hlB] using hl
      simp only [JoinNode.attachAt, if_neg hroot, if_neg hlB, JoinNode.eval]
      refine (joinRows_left_swap hsB hsS hnd.2.2.1 hnd.2.2.2 hnd.2.1.2.2 hT.2.2
        (hm.mono fun i hi => by
          rcases List.mem_cons.mp hi with rfl | hi
          · exact List.mem_append_left _ hlA
          · exact List.mem_append_right _ hi)).trans ?_
      exact joinRows_left_perm
        (eval_attachAt sem db hm hstrict hT.1 (List.nodup_append.mpr ⟨hnd.1, hnd.2.1.2.1,
          hnd.2.2.2⟩) hlA) (.refl _)
  | .joinExpr .inner _ _ _ _, hT, _, _ | .joinExpr .right _ _ _ _, hT, _, _
  | .joinExpr .full _ _ _ _, hT, _, _ | .fromExpr _ _, hT, _, _ => hT.elim

end AntdbAnalyze
