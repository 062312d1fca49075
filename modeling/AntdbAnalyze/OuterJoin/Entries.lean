import AntdbAnalyze.OuterJoin.Placement

/-!
# The entries of a WHERE with marker edges (analyze.c:3499-3569)

`get_join_qual_exprs` turns the conjuncts of the canonicalized WHERE into the entries the
loop of `transformFromAndWhere` places. For a WHERE whose marker conjuncts each outer-join
one table to one other, and whose other conjuncts each name at most two tables, this
module says what the entries are, and that they keep every conjunct:

- **`getJoinQualExprs_markers_plain`**: the entries are one `JOIN_LEFT` entry per marker
  conjunct, in order, from its unmarked table onto its marked one, followed by
  `JOIN_INNER` entries over at most two tables, each the AND of the conjuncts without a
  marker over its tables;
- **`getJoinQualExprs_filter_holds`**: for any test on a set of tables, the entries whose
  tables pass it hold on a row iff the conjuncts whose tables pass it do. Merging an entry
  into another with the same tables ANDs conjuncts over the same tables, so the entries
  can be sorted by their tables as the conjuncts can.
-/

namespace AntdbAnalyze

/-! ## The tables of a conjunct and of an entry -/

/-- The tables a conjunct names, marked or not. -/
def oraRels (e : Expr) : Finset Nat := oraMarkedRels e ∪ oraPlainRels e

/-- The tables an entry records, marked or not. -/
def JoinExprInfo.rels (jinfo : JoinExprInfo) : Finset Nat := jinfo.markedRels ∪ jinfo.plainRels

theorem mem_oraRels {e : Expr} {i : Nat} : i ∈ oraRels e ↔ ∃ ref ∈ e.oraRefs, ref.varno = i :=
  mem_oraRefs_rels

/-- A conjunct names only tables with a positive index. -/
theorem pos_of_mem_oraRels {e : Expr} {i : Nat} (hi : i ∈ oraRels e) : 0 < i := by
  obtain ⟨ref, -, rfl⟩ := mem_oraRels.mp hi
  cases ref <;> exact Var.varno_pos _

theorem exprListOraRefs_append (es es' : List Expr) :
    exprListOraRefs (es ++ es') = exprListOraRefs es ++ exprListOraRefs es' := by
  induction es with
  | nil => rfl
  | cons e es ih => simp [exprListOraRefs, ih]

/-- ANDing two conjuncts names the tables of both. -/
theorem oraRels_combineAnd (e e₂ : Expr) : oraRels (combineAnd e e₂) = oraRels e ∪ oraRels e₂ := by
  have hrefs : (combineAnd e e₂).oraRefs = e.oraRefs ++ e₂.oraRefs := by
    unfold combineAnd
    split <;> simp [makeAndExpr, Expr.oraRefs, exprListOraRefs, exprListOraRefs_append]
  ext i
  simp only [Finset.mem_union, mem_oraRels, hrefs, List.mem_append, or_and_right, exists_or]

/-- The marked tables of references none of which is marked. -/
theorem oraRefsMarked_eq_empty : ∀ {refs : List OraRef}, (∀ ref ∈ refs, ∃ v, ref = .plain v) →
    oraRefsMarked refs = ∅
  | [], _ => rfl
  | ref :: refs, h => by
    rw [List.forall_mem_cons] at h
    obtain ⟨v, rfl⟩ := h.1
    show OraRef.markedRels (.plain v) ∪ oraRefsMarked refs = ∅
    rw [oraRefsMarked_eq_empty h.2]
    rfl

mutual
/-- A conjunct without a marker meets only unmarked `Var`s. -/
theorem plain_of_haveOraColumnJoin_eq_false :
    ∀ e : Expr, haveOraColumnJoin e = false → ∀ ref ∈ e.oraRefs, ∃ v, ref = .plain v
  | .columnRefJoin _ _, h => by simp [haveOraColumnJoin] at h
  | .var _, _ => by simp [Expr.oraRefs]
  | .const _ _ _, _ | .rownumExpr, _ | .setToDefault _ _ _, _ => by simp [Expr.oraRefs]
  | .opExpr _ _ args, h | .funcExpr _ args, h | .boolExpr _ args, h =>
    plain_of_haveOraColumnJoinList_eq_false args h

/-- The list form of `plain_of_haveOraColumnJoin_eq_false`. -/
theorem plain_of_haveOraColumnJoinList_eq_false :
    ∀ es : List Expr, haveOraColumnJoinList es = false →
      ∀ ref ∈ exprListOraRefs es, ∃ v, ref = .plain v
  | [], _ => by simp [exprListOraRefs]
  | e :: es, h => by
    simp only [haveOraColumnJoinList, Bool.or_eq_false_iff] at h
    simp only [exprListOraRefs, List.mem_append]
    rintro ref (hr | hr)
    exacts [plain_of_haveOraColumnJoin_eq_false e h.1 ref hr,
      plain_of_haveOraColumnJoinList_eq_false es h.2 ref hr]
end

/-- A conjunct without a marker has no marked table. -/
theorem oraMarkedRels_of_haveOraColumnJoin_eq_false {e : Expr} (h : haveOraColumnJoin e = false) :
    oraMarkedRels e = ∅ :=
  oraRefsMarked_eq_empty (plain_of_haveOraColumnJoin_eq_false e h)

/-! ## Classifying one conjunct -/

/-- A marker conjunct over the edge `(l, r)`, `r` marked and `l` not, is classified
`JOIN_LEFT` from `l` onto `r`. -/
theorem getOraColumnJoin_marker {c : Expr} {l r : Nat} (hM : oraMarkedRels c = {r})
    (hU : oraPlainRels c = {l}) (hlr : l ≠ r) :
    ∃ jinfo, getOraColumnJoin c = .ok jinfo ∧ jinfo.type = .left ∧ jinfo.lrtindex = l ∧
      jinfo.rrtindex = r ∧ jinfo.expr = c := by
  have h := getOraColumnJoin_classified c (by rw [hM, hU]; simpa using hlr)
  rw [hM, hU] at h
  cases hres : getOraColumnJoin c with
  | error err =>
    rw [hres] at h
    simp [OraFails] at h
  | ok jinfo =>
    rw [hres, oraClassified_ok] at h
    obtain ⟨hwf, hexpr, hMi, hUi⟩ := h
    obtain ⟨expr, type, l', r', loc⟩ := jinfo
    rcases hwf with ⟨rfl, -, -⟩ | ⟨rfl, -, -⟩
    · simp only [JoinExprInfo.markedRels_left, JoinExprInfo.plainRels_left,
        Finset.singleton_inj] at hMi hUi
      have hl' : l' ≠ 0 := by
        rintro rfl
        exact Finset.singleton_ne_empty l (by simpa using hUi.symm)
      rw [Finset.erase_eq_of_not_mem (Finset.not_mem_singleton.mpr hl'.symm),
        Finset.singleton_inj] at hUi
      exact ⟨_, rfl, rfl, hUi, hMi, hexpr⟩
    · exact absurd hMi.symm (Finset.singleton_ne_empty r)

/-- A conjunct without a marker over at most two tables is classified `JOIN_INNER` over
its tables. -/
theorem getOraColumnJoin_plain {c : Expr} (hc : haveOraColumnJoin c = false)
    (hU : (oraPlainRels c).card ≤ 2) :
    ∃ jinfo, getOraColumnJoin c = .ok jinfo ∧ jinfo.type = .inner ∧ jinfo.WellFormed ∧
      jinfo.expr = c ∧ jinfo.rels = oraRels c := by
  have hM := oraMarkedRels_of_haveOraColumnJoin_eq_false hc
  have h := getOraColumnJoin_classified c (by rw [hM]; exact Finset.disjoint_empty_left _)
  cases hres : getOraColumnJoin c with
  | error err =>
    rw [hres, oraClassified_error, hM] at h
    simp [OraFails] at h
    omega
  | ok jinfo =>
    rw [hres, oraClassified_ok] at h
    obtain ⟨hwf, hexpr, hMi, hUi⟩ := h
    refine ⟨jinfo, rfl, ?_, hwf, hexpr, by rw [JoinExprInfo.rels, oraRels, hMi, hUi]⟩
    obtain ⟨expr, type, l', r', loc⟩ := jinfo
    rcases hwf with ⟨rfl, -, -⟩ | ⟨rfl, -, -⟩
    · simp [hM] at hMi
    · rfl

/-! ## The entries -/

/-- What the loop needs of an entry for conjuncts without a marker: `JOIN_INNER`, its
indexes filled in order, its tables those of one of the conjuncts (which pass `S`), and its
conjuncts naming just its tables. -/
structure JoinExprInfo.PlainOver (S : Finset Nat → Prop) (jinfo : JoinExprInfo) : Prop where
  type_eq : jinfo.type = .inner
  wellFormed : jinfo.WellFormed
  rels_ok : S jinfo.rels
  oraRels_expr : oraRels jinfo.expr = jinfo.rels

/-- Entries with the same type and indexes record the same tables. -/
theorem JoinExprInfo.rels_eq {jinfo jinfo₂ : JoinExprInfo} (htype : jinfo.type = jinfo₂.type)
    (hl : jinfo.lrtindex = jinfo₂.lrtindex) (hr : jinfo.rrtindex = jinfo₂.rrtindex) :
    jinfo.rels = jinfo₂.rels := by
  simp only [JoinExprInfo.rels, JoinExprInfo.markedRels, JoinExprInfo.plainRels, htype, hl, hr]

/-- Adding an inner entry skips the marker entries before the others. -/
theorem addJoinQual_append_left {jinfo₂ : JoinExprInfo} (h₂ : jinfo₂.type = .inner) :
    ∀ {acc : List JoinExprInfo}, (∀ jinfo ∈ acc, jinfo.type = .left) → ∀ infos,
      addJoinQual jinfo₂ (acc ++ infos) = acc ++ addJoinQual jinfo₂ infos
  | [], _, _ => rfl
  | jinfo :: acc, hacc, infos => by
    rw [List.forall_mem_cons] at hacc
    have hne : jinfo.type ≠ jinfo₂.type := by rw [hacc.1, h₂]; decide
    rw [List.cons_append, addJoinQual, if_neg fun h => hne h.1, addJoinQual_append_left h₂ hacc.2]
    rfl

/-- Adding an inner entry to inner entries keeps what the loop needs of them. -/
theorem addJoinQual_plainOver {S : Finset Nat → Prop} {jinfo₂ : JoinExprInfo}
    (h₂ : jinfo₂.PlainOver S) :
    ∀ {infos : List JoinExprInfo}, (∀ jinfo ∈ infos, jinfo.PlainOver S) →
      ∀ jinfo ∈ addJoinQual jinfo₂ infos, jinfo.PlainOver S
  | [], _ => by simpa [addJoinQual] using h₂
  | jinfo :: rest, h => by
    rw [List.forall_mem_cons] at h
    unfold addJoinQual
    split_ifs with hsame
    · have hrels := JoinExprInfo.rels_eq hsame.1 hsame.2.1 hsame.2.2
      rw [List.forall_mem_cons]
      refine ⟨⟨h.1.type_eq, h.1.wellFormed, h.1.rels_ok, ?_⟩, h.2⟩
      show oraRels (combineAnd jinfo.expr jinfo₂.expr) = jinfo.rels
      rw [oraRels_combineAnd, h.1.oraRels_expr, h₂.oraRels_expr, hrels, Finset.union_self]
    · exact List.forall_mem_cons.mpr ⟨h.1, addJoinQual_plainOver h₂ h.2⟩

/-- The marker conjuncts give one `JOIN_LEFT` entry each, along their edges. -/
theorem mapM_getOraColumnJoin_markers : ∀ {cs : List Expr} {edges : List (Nat × Nat)},
    List.Forall₂ (fun c e => oraMarkedRels c = {e.2} ∧ oraPlainRels c = {e.1}) cs edges →
    (∀ e ∈ edges, e.1 ≠ e.2) →
    ∃ infos, cs.mapM getOraColumnJoin = .ok infos ∧
      List.Forall₂ (fun jinfo e => jinfo.type = .left ∧ jinfo.lrtindex = e.1 ∧
        jinfo.rrtindex = e.2) infos edges
  | [], [], .nil, _ => ⟨[], rfl, .nil⟩
  | c :: cs, e :: edges, .cons ⟨hM, hU⟩ h, hne => by
    rw [List.forall_mem_cons] at hne
    obtain ⟨jinfo, hc, htype, hl, hr, -⟩ := getOraColumnJoin_marker hM hU hne.1
    obtain ⟨infos, hcs, hinfos⟩ := mapM_getOraColumnJoin_markers h hne.2
    exact ⟨jinfo :: infos, by rw [List.mapM_cons, hc, ok_bind_eq, hcs, ok_bind_eq]; rfl,
      .cons ⟨htype, hl, hr⟩ hinfos⟩

/-- The conjuncts without a marker, added after marker entries, give inner entries after
them. -/
theorem foldlM_addClassifiedQual_plain {S : Finset Nat → Prop} {acc : List JoinExprInfo}
    (hacc : ∀ jinfo ∈ acc, jinfo.type = .left) :
    ∀ (cs : List Expr) (infos : List JoinExprInfo),
      (∀ c ∈ cs, haveOraColumnJoin c = false ∧ (oraPlainRels c).card ≤ 2 ∧ S (oraRels c)) →
      (∀ jinfo ∈ infos, jinfo.PlainOver S) →
      ∃ infos', cs.foldlM addClassifiedQual (acc ++ infos) = .ok (acc ++ infos') ∧
        ∀ jinfo ∈ infos', jinfo.PlainOver S
  | [], infos, _, hinfos => ⟨infos, rfl, hinfos⟩
  | c :: cs, infos, hcs, hinfos => by
    rw [List.forall_mem_cons] at hcs
    obtain ⟨jinfo, hc, htype, hwf, hexpr, hrels⟩ := getOraColumnJoin_plain hcs.1.1 hcs.1.2.1
    have hplain : jinfo.PlainOver S := ⟨htype, hwf, hrels ▸ hcs.1.2.2, by rw [hexpr, hrels]⟩
    obtain ⟨infos', hfold, hinfos'⟩ :=
      foldlM_addClassifiedQual_plain hacc cs _ hcs.2 (addJoinQual_plainOver hplain hinfos)
    refine ⟨infos', ?_, hinfos'⟩
    rw [List.foldlM_cons, addClassifiedQual, hc, ok_bind_eq]
    simpa only [addJoinQual_append_left htype hacc] using hfold

/-- **The entries of a WHERE with marker edges.** Let the marker conjuncts of the
canonicalized WHERE each name one marked table `e.2` and one other table `e.1`, along
`edges`, and each other conjunct at most two tables, which pass `S`. Then
`get_join_qual_exprs` succeeds: one `JOIN_LEFT` entry per marker conjunct, in order, from
`e.1` onto `e.2`, followed by `JOIN_INNER` entries over at most two tables passing `S`. -/
theorem getJoinQualExprs_markers_plain (canonicalizeQual : Expr → Expr) {q : Expr}
    {S : Finset Nat → Prop} {edges : List (Nat × Nat)}
    (hmarkers : List.Forall₂ (fun c e => oraMarkedRels c = {e.2} ∧ oraPlainRels c = {e.1})
      ((canonicalizeQual q).andArgs.filter haveOraColumnJoin) edges)
    (hne : ∀ e ∈ edges, e.1 ≠ e.2)
    (hplain : ∀ c ∈ (canonicalizeQual q).andArgs, haveOraColumnJoin c = false →
      (oraPlainRels c).card ≤ 2 ∧ S (oraRels c)) :
    ∃ infosL infosP, getJoinQualExprs canonicalizeQual (some q) = .ok (infosL ++ infosP) ∧
      List.Forall₂ (fun jinfo e => jinfo.type = .left ∧ jinfo.lrtindex = e.1 ∧
        jinfo.rrtindex = e.2) infosL edges ∧
      ∀ jinfo ∈ infosP, jinfo.PlainOver S := by
  obtain ⟨infosL, hmapM, hL⟩ := mapM_getOraColumnJoin_markers hmarkers hne
  have hleft : ∀ jinfo ∈ infosL, jinfo.type = .left := fun jinfo hj => by
    obtain ⟨e, -, he⟩ := exists_of_forall₂_of_mem hL hj
    exact he.1
  obtain ⟨infosP, hfold, hP⟩ := foldlM_addClassifiedQual_plain (S := S) hleft
    ((canonicalizeQual q).andArgs.filter (!haveOraColumnJoin ·)) []
    (fun c hc => by
      simp only [List.mem_filter, Bool.not_eq_true'] at hc
      exact ⟨hc.2, hplain c hc.1 hc.2⟩) (by simp)
  refine ⟨infosL, infosP, ?_, hL, hP⟩
  rw [getJoinQualExprs, hmapM, ok_bind_eq]
  simpa using hfold

/-! ## Every conjunct kept, sorted by its tables -/

section Holds

variable (sem : ExprSem) (row : Row) (rownum : Int) (Q : Finset Nat → Bool)

/-- Adding an entry to the entries ANDs it into those whose tables pass `Q`, if its do. -/
theorem all_filter_addJoinQual (jinfo₂ : JoinExprInfo) (infos : List JoinExprInfo) :
    ((addJoinQual jinfo₂ infos).filter (Q ·.rels)).all (·.expr.holds sem row rownum) =
      ((infos.filter (Q ·.rels)).all (·.expr.holds sem row rownum) &&
        (!Q jinfo₂.rels || jinfo₂.expr.holds sem row rownum)) := by
  induction infos with
  | nil => cases hQ : Q jinfo₂.rels <;> simp [addJoinQual, List.filter_cons, hQ]
  | cons jinfo rest ih =>
    unfold addJoinQual
    split_ifs with hsame
    · have hrels : jinfo.rels = jinfo₂.rels :=
        JoinExprInfo.rels_eq hsame.1 hsame.2.1 hsame.2.2
      have hrels' : ({ jinfo with expr := combineAnd jinfo.expr jinfo₂.expr } : JoinExprInfo).rels =
          jinfo₂.rels := hrels
      cases hQ : Q jinfo₂.rels <;>
        simp [List.filter_cons, hrels, hrels', hQ, Bool.and_assoc, Bool.and_comm, Bool.and_left_comm]
    · cases hQ : Q jinfo.rels <;> simp [List.filter_cons, hQ, ih, Bool.and_assoc]

theorem mapM_getOraColumnJoin_filter_holds : ∀ {es : List Expr} {infos : List JoinExprInfo},
    (∀ e ∈ es, Disjoint (oraMarkedRels e) (oraPlainRels e)) →
    es.mapM getOraColumnJoin = .ok infos →
      (infos.filter (Q ·.rels)).all (·.expr.holds sem row rownum) =
        (es.filter (Q <| oraRels ·)).all (·.holds sem row rownum)
  | [], _, _, h => by cases h; rfl
  | e :: es, infos, hdisj, h => by
    rw [List.forall_mem_cons] at hdisj
    rw [List.mapM_cons] at h
    obtain ⟨jinfo, he, h⟩ := except_bind_eq_ok.mp h
    obtain ⟨rest, hes, h⟩ := except_bind_eq_ok.mp h
    cases h
    have hclass := getOraColumnJoin_classified e hdisj.1
    rw [he, oraClassified_ok] at hclass
    have hrels : jinfo.rels = oraRels e := by
      rw [JoinExprInfo.rels, oraRels, hclass.2.2.1, hclass.2.2.2]
    cases hQ : Q (oraRels e) <;>
      simp [List.filter_cons, hrels, hQ, hclass.2.1,
        mapM_getOraColumnJoin_filter_holds hdisj.2 hes]

theorem foldlM_addClassifiedQual_filter_holds :
    ∀ {es : List Expr} {acc infos : List JoinExprInfo},
      (∀ e ∈ es, Disjoint (oraMarkedRels e) (oraPlainRels e)) →
      es.foldlM addClassifiedQual acc = .ok infos →
        (infos.filter (Q ·.rels)).all (·.expr.holds sem row rownum) =
          ((acc.filter (Q ·.rels)).all (·.expr.holds sem row rownum) &&
            (es.filter (Q <| oraRels ·)).all (·.holds sem row rownum))
  | [], _, _, _, h => by cases h; simp
  | e :: es, acc, infos, hdisj, h => by
    rw [List.forall_mem_cons] at hdisj
    rw [List.foldlM_cons] at h
    obtain ⟨acc', hacc', h⟩ := except_bind_eq_ok.mp h
    rw [addClassifiedQual] at hacc'
    obtain ⟨jinfo, he, hacc'⟩ := except_bind_eq_ok.mp hacc'
    obtain rfl : addJoinQual jinfo acc = acc' := Except.ok.inj hacc'
    have hclass := getOraColumnJoin_classified e hdisj.1
    rw [he, oraClassified_ok] at hclass
    have hrels : jinfo.rels = oraRels e := by
      rw [JoinExprInfo.rels, oraRels, hclass.2.2.1, hclass.2.2.2]
    rw [foldlM_addClassifiedQual_filter_holds hdisj.2 h, all_filter_addJoinQual, hrels,
      hclass.2.1]
    cases hQ : Q (oraRels e) <;> simp [List.filter_cons, hQ, Bool.and_assoc]

/-- **Every conjunct kept, sorted by its tables.** For any test `Q` on a set of tables, the
entries of `get_join_qual_exprs` whose tables pass `Q` hold on a row iff the conjuncts of
the canonicalized WHERE whose tables pass `Q` do, when no conjunct names a table both with
and without a marker. -/
theorem getJoinQualExprs_filter_holds {canonicalizeQual : Expr → Expr} {q : Expr}
    {infos : List JoinExprInfo}
    (hdisj : ∀ c ∈ (canonicalizeQual q).andArgs, Disjoint (oraMarkedRels c) (oraPlainRels c))
    (h : getJoinQualExprs canonicalizeQual (some q) = .ok infos) :
    (infos.filter (Q ·.rels)).all (·.expr.holds sem row rownum) =
      ((canonicalizeQual q).andArgs.filter (Q <| oraRels ·)).all (·.holds sem row rownum) := by
  rw [getJoinQualExprs] at h
  obtain ⟨marked, hmarked, h⟩ := except_bind_eq_ok.mp h
  have hsub : ∀ p : Expr → Bool, ∀ c ∈ (canonicalizeQual q).andArgs.filter p,
      Disjoint (oraMarkedRels c) (oraPlainRels c) := fun p c hc => hdisj c (List.mem_filter.mp hc).1
  rw [foldlM_addClassifiedQual_filter_holds sem row rownum Q (hsub _) h,
    mapM_getOraColumnJoin_filter_holds sem row rownum Q (hsub _) hmarked,
    ← all_filter_and_all_filter_not haveOraColumnJoin (·.holds sem row rownum)
      ((canonicalizeQual q).andArgs.filter (Q <| oraRels ·))]
  simp only [List.filter_filter, Bool.and_comm]

end Holds

end AntdbAnalyze
