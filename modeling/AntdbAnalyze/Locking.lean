import AntdbAnalyze.Nodes
import Mathlib.Data.List.Perm.Basic
import Mathlib.Data.List.Nodup

/-!
# Row marks of FOR UPDATE / FOR SHARE (analyze.c:3006-3045)

`applyLockingClause` records one locking clause for one range-table index: it sets
`hasForUpdate` for an explicit clause and either merges into the row mark already held
for that index or appends a new one.

- `recordRowMark`: the row-mark list update, the functional reading of "find with
  `get_parse_rowmark`, then update through the pointer or `lappend`".
- `lockedMark`: the closed form of the mark an index ends with after a run of calls:
  strongest strength, NOWAIT if any call asked for it, pushed-down only if every call was.
- **`applyLockingClauses_rowMarks`**: from row marks holding at most one mark per index,
  any run of calls keeps that invariant, ends every named index at its `lockedMark`,
  leaves the others alone, sets `hasForUpdate` exactly when some call was explicit, and so
  gives the same row marks, up to order, for every order of the calls.
-/

namespace AntdbAnalyze

/-- Modelled from the spec: `get_parse_rowmark` (parse_relation.c) is not under src/.
§4.10: "if a row-mark already exists for this rtindex"; the first mark with that index. -/
def getParseRowmark (rowMarks : List RowMarkClause) (rtindex : Nat) :
    Option RowMarkClause :=
  rowMarks.find? (·.rti = rtindex)

/-- One call of `applyLockingClause`: its range-table index and clause. -/
structure LockingCall where
  rti : Nat
  strength : Nat
  noWait : Bool
  pushedDown : Bool
deriving DecidableEq, Repr

/-- The fresh `RowMarkClause` a call makes when its index has none. -/
def LockingCall.toRowMark (c : LockingCall) : RowMarkClause :=
  ⟨c.rti, c.strength, c.noWait, c.pushedDown⟩

/-- The in-place merge of `applyLockingClause`: `Max` of the strengths, NOWAIT wins, and
an explicit clause clears `pushedDown`. -/
def mergeRowMark (rc : RowMarkClause) (c : LockingCall) : RowMarkClause :=
  { rc with strength := max rc.strength c.strength, noWait := rc.noWait || c.noWait,
            pushedDown := rc.pushedDown && c.pushedDown }

/-- The row-mark list after one call: the first mark for the index is merged, and a new
mark is appended when there is none. -/
def recordRowMark (c : LockingCall) : List RowMarkClause → List RowMarkClause
  | [] => [c.toRowMark]
  | rc :: rest => if rc.rti = c.rti then mergeRowMark rc c :: rest
      else rc :: recordRowMark c rest

/-- `applyLockingClause(qry, rtindex, strength, noWait, pushedDown)`. -/
def applyLockingClause (qry : Query) (rtindex : Nat) (strength : Nat)
    (noWait pushedDown : Bool) : Query :=
  { qry with hasForUpdate := qry.hasForUpdate || !pushedDown,
             rowMarks := recordRowMark ⟨rtindex, strength, noWait, pushedDown⟩ qry.rowMarks }

/-- A sequence of `applyLockingClause` calls, in order. -/
def applyLockingClauses (qry : Query) (cs : List LockingCall) : Query :=
  cs.foldl (fun q c => applyLockingClause q c.rti c.strength c.noWait c.pushedDown) qry

/-- The row mark an index holds after merging one more call into what it held. -/
def mergeInto (o : Option RowMarkClause) (c : LockingCall) : Option RowMarkClause :=
  some (o.elim c.toRowMark (mergeRowMark · c))

/-- Closed form of the mark of index `rti` after the calls `cs`, starting from `init`:
maximum strength, disjunction of NOWAIT, conjunction of pushed-down, over the calls
naming `rti` and the mark held before. -/
def lockedMark (init : Option RowMarkClause) (rti : Nat) (cs : List LockingCall) :
    RowMarkClause :=
  let named := cs.filter (·.rti = rti)
  { rti := rti
    strength := (named.map (·.strength)).foldl max (init.elim 0 (·.strength))
    noWait := init.elim false (·.noWait) || named.any (·.noWait)
    pushedDown := init.elim true (·.pushedDown) && named.all (·.pushedDown) }

/-- At most one row mark per range-table index. -/
def RowMarksUnique (rowMarks : List RowMarkClause) : Prop :=
  (rowMarks.map (·.rti)).Nodup

instance : DecidablePred RowMarksUnique := fun l =>
  inferInstanceAs (Decidable (List.Nodup (l.map RowMarkClause.rti)))

/-! ## One call -/

@[simp] theorem getParseRowmark_nil (r : Nat) : getParseRowmark [] r = none := rfl

theorem getParseRowmark_cons (rc : RowMarkClause) (l : List RowMarkClause) (r : Nat) :
    getParseRowmark (rc :: l) r = if rc.rti = r then some rc else getParseRowmark l r := by
  by_cases h : rc.rti = r <;> simp [getParseRowmark, List.find?_cons, h]

theorem getParseRowmark_rti {l : List RowMarkClause} {r : Nat} {rc : RowMarkClause}
    (h : getParseRowmark l r = some rc) : rc.rti = r := by
  simpa using List.find?_some h

@[simp] theorem mergeRowMark_rti (rc : RowMarkClause) (c : LockingCall) :
    (mergeRowMark rc c).rti = rc.rti := rfl

/-- What the index `r` holds after one call: merged when the call names it, unchanged
otherwise. -/
theorem getParseRowmark_recordRowMark (c : LockingCall) (l : List RowMarkClause) (r : Nat) :
    getParseRowmark (recordRowMark c l) r =
      if c.rti = r then mergeInto (getParseRowmark l r) c else getParseRowmark l r := by
  induction l with
  | nil => by_cases h : c.rti = r <;> simp [recordRowMark, getParseRowmark_cons, h, mergeInto,
      LockingCall.toRowMark]
  | cons rc rest ih =>
    by_cases hrc : rc.rti = c.rti
    · by_cases h : c.rti = r
      · simp [recordRowMark, getParseRowmark_cons, hrc, h, mergeInto]
      · simp [recordRowMark, getParseRowmark_cons, hrc, h]
    · simp only [recordRowMark, hrc, if_false, getParseRowmark_cons, ih]
      by_cases h : rc.rti = r
      · simp [h, Ne.symm (h ▸ hrc : r ≠ c.rti)]
      · simp [h]

/-- The indexes after one call: unchanged when the index had a mark, else extended. -/
theorem recordRowMark_rtis (c : LockingCall) (l : List RowMarkClause) :
    (recordRowMark c l).map (·.rti) =
      if c.rti ∈ l.map (·.rti) then l.map (·.rti) else l.map (·.rti) ++ [c.rti] := by
  induction l with
  | nil => rfl
  | cons rc rest ih =>
    by_cases hrc : rc.rti = c.rti
    · simp [recordRowMark, hrc]
    · simp only [recordRowMark, if_neg hrc, List.map_cons, ih]
      by_cases hm : c.rti ∈ rest.map (·.rti)
      · rw [if_pos hm, if_pos (List.mem_cons_of_mem _ hm)]
      · rw [if_neg hm, if_neg (by simpa [List.mem_cons, Ne.symm hrc] using hm)]
        rfl

/-- One call keeps at most one mark per index. -/
theorem recordRowMark_unique (c : LockingCall) {l : List RowMarkClause}
    (h : RowMarksUnique l) : RowMarksUnique (recordRowMark c l) := by
  unfold RowMarksUnique
  rw [recordRowMark_rtis]
  split_ifs with hm
  · exact h
  · exact List.nodup_append.mpr ⟨h, List.nodup_singleton _, by simpa using hm⟩

/-! ## A run of calls -/

@[simp] theorem applyLockingClause_rowMarks (qry : Query) (c : LockingCall) :
    (applyLockingClause qry c.rti c.strength c.noWait c.pushedDown).rowMarks =
      recordRowMark c qry.rowMarks := rfl

@[simp] theorem applyLockingClauses_nil (qry : Query) : applyLockingClauses qry [] = qry := rfl

@[simp] theorem applyLockingClauses_cons (qry : Query) (c : LockingCall) (cs : List LockingCall) :
    applyLockingClauses qry (c :: cs) =
      applyLockingClauses (applyLockingClause qry c.rti c.strength c.noWait c.pushedDown) cs :=
  rfl

theorem applyLockingClauses_unique (qry : Query) (cs : List LockingCall)
    (h : RowMarksUnique qry.rowMarks) : RowMarksUnique (applyLockingClauses qry cs).rowMarks := by
  induction cs generalizing qry with
  | nil => exact h
  | cons c cs ih => exact ih _ (recordRowMark_unique c h)

theorem applyLockingClauses_hasForUpdate (qry : Query) (cs : List LockingCall) :
    (applyLockingClauses qry cs).hasForUpdate = (qry.hasForUpdate || cs.any (!·.pushedDown)) := by
  induction cs generalizing qry with
  | nil => simp
  | cons c cs ih => simp [ih, applyLockingClause, Bool.or_assoc]

/-- Run lemma: the mark of `r` after the calls is the merge of the calls naming `r`, in
order, into the mark `r` held before. -/
theorem getParseRowmark_applyLockingClauses (qry : Query) (cs : List LockingCall) (r : Nat) :
    getParseRowmark (applyLockingClauses qry cs).rowMarks r =
      (cs.filter (·.rti = r)).foldl mergeInto (getParseRowmark qry.rowMarks r) := by
  induction cs generalizing qry with
  | nil => rfl
  | cons c cs ih =>
    rw [applyLockingClauses_cons, ih, applyLockingClause_rowMarks, getParseRowmark_recordRowMark]
    by_cases h : c.rti = r <;> simp [List.filter_cons, h]

/-- Merging calls into a mark takes the maximum strength, the disjunction of NOWAIT and the
conjunction of pushed-down, whatever indexes the calls name. -/
theorem foldl_mergeInto_some (cs : List LockingCall) (rc : RowMarkClause) :
    cs.foldl mergeInto (some rc) =
      some { rc with strength := (cs.map (·.strength)).foldl max rc.strength
                     noWait := rc.noWait || cs.any (·.noWait)
                     pushedDown := rc.pushedDown && cs.all (·.pushedDown) } := by
  induction cs generalizing rc with
  | nil => simp
  | cons c cs ih => simp [mergeInto, ih, mergeRowMark, Bool.or_assoc, Bool.and_assoc]

/-- The mark of a named index after a run of calls is the closed form `lockedMark`. -/
theorem getParseRowmark_applyLockingClauses_named (qry : Query) (cs : List LockingCall)
    {r : Nat} (hr : r ∈ cs.map (·.rti)) :
    getParseRowmark (applyLockingClauses qry cs).rowMarks r =
      some (lockedMark (getParseRowmark qry.rowMarks r) r cs) := by
  rw [getParseRowmark_applyLockingClauses]
  obtain ⟨c, hc, rfl⟩ := List.mem_map.mp hr
  cases hinit : getParseRowmark qry.rowMarks c.rti with
  | some rc =>
    have hrti := getParseRowmark_rti hinit
    rw [foldl_mergeInto_some]
    cases rc
    simp_all [lockedMark]
  | none =>
    have hmem : c ∈ cs.filter (·.rti = c.rti) := List.mem_filter.mpr ⟨hc, by simp⟩
    cases hf : cs.filter (·.rti = c.rti) with
    | nil => simp [hf] at hmem
    | cons c' rest =>
      have hc' : c'.rti = c.rti := by
        have h := (List.mem_filter.mp (hf ▸ List.mem_cons_self c' rest)).2
        simpa using h
      simp [lockedMark, hf, mergeInto, foldl_mergeInto_some, LockingCall.toRowMark, hc']

/-- The mark of an index no call names is left alone. -/
theorem getParseRowmark_applyLockingClauses_unnamed (qry : Query) (cs : List LockingCall)
    {r : Nat} (hr : r ∉ cs.map (·.rti)) :
    getParseRowmark (applyLockingClauses qry cs).rowMarks r = getParseRowmark qry.rowMarks r := by
  rw [getParseRowmark_applyLockingClauses, List.filter_eq_nil_iff.mpr]
  · rfl
  · intro c hc h
    exact hr (List.mem_map.mpr ⟨c, hc, by simpa using h⟩)

/-! ## Order independence -/

/-- With one mark per index, a mark belongs to the list iff it is what its index finds. -/
theorem mem_iff_getParseRowmark {l : List RowMarkClause} (h : RowMarksUnique l)
    (x : RowMarkClause) : x ∈ l ↔ getParseRowmark l x.rti = some x := by
  induction l with
  | nil => simp
  | cons rc rest ih =>
    have hnd := List.nodup_cons.mp h
    rw [getParseRowmark_cons, List.mem_cons, ih hnd.2]
    by_cases hx : rc.rti = x.rti
    · have hnot : x ∉ rest := fun hm => hnd.1 (List.mem_map.mpr ⟨x, hm, hx.symm⟩)
      rw [← ih hnd.2]
      simp only [hx, if_true, Option.some.injEq, hnot, or_false]
      exact eq_comm
    · have hne : x ≠ rc := fun he => hx (he ▸ rfl)
      simp [hx, hne]

/-- Two row-mark lists with one mark per index that find the same mark for every index
are permutations of each other. -/
theorem perm_of_getParseRowmark_eq {l₁ l₂ : List RowMarkClause} (h₁ : RowMarksUnique l₁)
    (h₂ : RowMarksUnique l₂) (h : ∀ r, getParseRowmark l₁ r = getParseRowmark l₂ r) :
    l₁.Perm l₂ :=
  (List.perm_ext_iff_of_nodup (h₁.of_map _) (h₂.of_map _)).mpr fun x => by
    rw [mem_iff_getParseRowmark h₁, mem_iff_getParseRowmark h₂, h]

/-- The closed form does not depend on the order of the calls. -/
theorem lockedMark_perm (init : Option RowMarkClause) (r : Nat) {cs cs' : List LockingCall}
    (hp : cs'.Perm cs) : lockedMark init r cs' = lockedMark init r cs := by
  have hf := (hp.filter (·.rti = r))
  have hcomm : ∀ x ∈ (cs'.filter (·.rti = r)).map (·.strength),
      ∀ y ∈ (cs'.filter (·.rti = r)).map (·.strength), ∀ z : Nat,
        max (max z x) y = max (max z y) x := fun _ _ _ _ _ => Nat.max_right_comm _ _ _
  have hmax := (hf.map (·.strength)).foldl_eq' hcomm (init.elim 0 (·.strength))
  have hany : (cs'.filter (·.rti = r)).any (·.noWait) = (cs.filter (·.rti = r)).any (·.noWait) :=
    Bool.eq_iff_iff.mpr (by simp only [List.any_eq_true, hf.mem_iff])
  have hall : (cs'.filter (·.rti = r)).all (·.pushedDown) =
      (cs.filter (·.rti = r)).all (·.pushedDown) :=
    Bool.eq_iff_iff.mpr (by simp only [List.all_eq_true, hf.mem_iff])
  simp only [lockedMark, hmax, hany, hall]

/-- **Row marks of a run of locking calls** (analyze.c:3006-3045). From row marks with at
most one mark per range-table index, any sequence of `applyLockingClause` calls keeps one
mark per index; every index a call names ends with the maximum strength, the disjunction
of NOWAIT and the conjunction of pushed-down over those calls and its earlier mark; every
other index keeps its mark; `hasForUpdate` ends true iff it was true or some call was not
pushed down; and every permutation of the calls yields the same row marks up to order and
the same `hasForUpdate`. -/
theorem applyLockingClauses_rowMarks (qry : Query) (cs : List LockingCall)
    (huniq : RowMarksUnique qry.rowMarks) :
    RowMarksUnique (applyLockingClauses qry cs).rowMarks ∧
    (∀ r ∈ cs.map (·.rti), getParseRowmark (applyLockingClauses qry cs).rowMarks r =
        some (lockedMark (getParseRowmark qry.rowMarks r) r cs)) ∧
    (∀ r ∉ cs.map (·.rti), getParseRowmark (applyLockingClauses qry cs).rowMarks r =
        getParseRowmark qry.rowMarks r) ∧
    (applyLockingClauses qry cs).hasForUpdate = (qry.hasForUpdate || cs.any (!·.pushedDown)) ∧
    ∀ cs', cs'.Perm cs →
      (applyLockingClauses qry cs').rowMarks.Perm (applyLockingClauses qry cs).rowMarks ∧
      (applyLockingClauses qry cs').hasForUpdate = (applyLockingClauses qry cs).hasForUpdate := by
  refine ⟨applyLockingClauses_unique qry cs huniq,
    fun r hr => getParseRowmark_applyLockingClauses_named qry cs hr,
    fun r hr => getParseRowmark_applyLockingClauses_unnamed qry cs hr,
    applyLockingClauses_hasForUpdate qry cs, fun cs' hp => ⟨?_, ?_⟩⟩
  · refine perm_of_getParseRowmark_eq (applyLockingClauses_unique qry cs' huniq)
      (applyLockingClauses_unique qry cs huniq) fun r => ?_
    have hmem : r ∈ cs'.map (·.rti) ↔ r ∈ cs.map (·.rti) := (hp.map _).mem_iff
    by_cases hr : r ∈ cs.map (·.rti)
    · rw [getParseRowmark_applyLockingClauses_named qry cs' (hmem.mpr hr),
        getParseRowmark_applyLockingClauses_named qry cs hr, lockedMark_perm _ _ hp]
    · rw [getParseRowmark_applyLockingClauses_unnamed qry cs' (mt hmem.mp hr),
        getParseRowmark_applyLockingClauses_unnamed qry cs hr]
  · simp only [applyLockingClauses_hasForUpdate]
    congr 1
    exact Bool.eq_iff_iff.mpr (by simp only [List.any_eq_true, hp.mem_iff])

/-- Scenario 4 of the spec: a pushed-down FOR SHARE mark on index 3 meets an explicit FOR
UPDATE NOWAIT on index 3, and becomes FOR UPDATE NOWAIT, not pushed down. -/
theorem applyLockingClauses_rowMarks_share_update :
    RowMarksUnique [⟨3, 1, false, true⟩] ∧
      getParseRowmark (applyLockingClauses { makeQuery with rowMarks := [⟨3, 1, false, true⟩] }
        [⟨3, 3, true, false⟩]).rowMarks 3 = some ⟨3, 3, true, false⟩ :=
  ⟨by decide, by
    rw [(applyLockingClauses_rowMarks { makeQuery with rowMarks := [⟨3, 1, false, true⟩] }
      [⟨3, 3, true, false⟩] (by decide)).2.1 3 (by decide)]
    decide⟩

end AntdbAnalyze
