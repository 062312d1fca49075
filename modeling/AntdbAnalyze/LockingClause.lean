import AntdbAnalyze.Locking

/-!
# FOR UPDATE / FOR SHARE clauses (analyze.c:2790-3001)

`transformLockingClause` replaces the relation names of a locking clause by range-table
indexes. After `CheckSelectLocking`, an empty name list locks every relation and sub-query
entry of the query, and a non-empty one the first entry each name matches; a locked sub-query
has the clause, with no names, pushed down into it, and so on to any depth. A locked entry gets
a row mark through `applyLockingClause`, and a locked relation the permission
`ACL_SELECT_FOR_UPDATE`.

- `checkSelectLocking`: the features a locking clause is not allowed with, in the order the
  source checks them.
- `transformLockingAll`, `lockAllEntries`, `lockAllEntry`, `lockAllSubquery`: the walk of a
  clause with no names, one function per type of the query's nest (query, range table, entry,
  sub-query), so that the recursion is structural.
- `lockNamedRel`: one listed name, through `findLockedRel`, the search for its first entry.
- `AllLocked`: every relation and sub-query entry of a query, and of every sub-query below a
  sub-query entry, is locked.
- `KeepsLocks`: a query keeps every lock of another, which every accepted clause does to the
  query it is given (`transformLockingClause_keepsLocks`), so that the clauses of one SELECT
  compose.

**`transformLockingClause_locks`**: an accepted clause leaves every entry it names (all of them,
or the first match of each name) marked at least as strongly as the clause, with
`ACL_SELECT_FOR_UPDATE` on a relation and the whole sub-query locked below a sub-query, and no
other index's mark changed; a listed name that matches no entry is never accepted, and it is
reported as `UNDEFINED_TABLE` once the names before it have been accepted.
-/

namespace AntdbAnalyze

/-! ## Clauses and errors -/

/-- `RangeVar` as a locking clause lists it: the optional catalog and schema, and the name. -/
structure RangeVar where
  catalogname : Option String
  schemaname : Option String
  relname : String
deriving DecidableEq, Repr

/-- `LockingClause`: the listed relations (none for all of them), the strength, NOWAIT. -/
structure LockingClause where
  lockedRels : List RangeVar
  strength : Nat
  noWait : Bool
deriving DecidableEq, Repr

/-- Modelled from the spec: `ACL_SELECT_FOR_UPDATE` (parsenodes.h is not under src/), the
permission bit §4.10 has a locked relation gain; it is `ACL_UPDATE`, bit 2. -/
def aclSelectForUpdate : Nat := 4

/-- A feature `CheckSelectLocking` rejects. -/
def checkSelectLockingError (strength : Nat) (feature : String) : ErrorData :=
  ⟨.featureNotSupported, lcsAsString strength ++ " is not allowed with " ++ feature⟩

/-- A listed name with a catalog or schema. -/
def lockingQualifiedNameError (strength : Nat) : ErrorData :=
  ⟨.syntaxError, lcsAsString strength ++ " must specify unqualified relation names"⟩

/-- A listed name whose entry is of a kind that cannot be locked. -/
def lockingCannotApplyError (strength : Nat) (kind : String) : ErrorData :=
  ⟨.featureNotSupported, lcsAsString strength ++ " cannot be applied to " ++ kind⟩

/-- A listed name that matches no entry. -/
def lockingRelationNotFoundError (relname : String) (strength : Nat) : ErrorData :=
  ⟨.undefinedTable, "relation \"" ++ relname ++ "\" in " ++ lcsAsString strength ++
    " clause not found in FROM clause"⟩

/-- The features of `CheckSelectLocking`, in the order it checks them: whether the query has
each, and the words its error names it by. `expression_returns_set` (nodeFuncs.c) is a
parameter. -/
def lockingFeatures (expressionReturnsSet : List TargetEntry → Bool) (qry : Query) :
    List (Bool × String) :=
  [(qry.setOperations.isSome, "UNION/INTERSECT/EXCEPT"),
   (!qry.distinctClause.isEmpty, "DISTINCT clause"),
   (!qry.groupClause.isEmpty, "GROUP BY clause"),
   (qry.havingQual.isSome, "HAVING clause"),
   (qry.hasAggs, "aggregate functions"),
   (qry.hasWindowFuncs, "window functions"),
   (expressionReturnsSet qry.targetList, "set-returning functions in the target list")]

/-- `CheckSelectLocking(qry, strength)`: the first feature the query has is an error. -/
def checkSelectLocking (expressionReturnsSet : List TargetEntry → Bool) (qry : Query)
    (strength : Nat) : Except ErrorData Unit :=
  match (lockingFeatures expressionReturnsSet qry).find? (·.1) with
  | some (_, feature) => .error (checkSelectLockingError strength feature)
  | none => .ok ()

/-! ## The walk of a clause with no names -/

section Walk

variable (expressionReturnsSet : List TargetEntry → Bool) (strength : Nat) (noWait : Bool)

mutual
/-- `transformLockingClause(pstate, qry, allrels, pushedDown)`, for the clause `allrels` of the
given strength and NOWAIT and no names: the check, then the walk over the range table from
index 1. -/
def transformLockingAll (pushedDown : Bool) : Query → Except ErrorData Query
  | qry@⟨_, _, rtable, _, _, _, _, _, _, _, _, _, _, _, _, _⟩ => do
    let _ ← checkSelectLocking expressionReturnsSet qry strength
    let (rtable, qry) ← lockAllEntries pushedDown 1 qry rtable
    pure { qry with rtable }

/-- The `foreach` over the range table, from the entry of index `i` on; `qry` is the query
whose row marks the calls of `applyLockingClause` update. -/
def lockAllEntries (pushedDown : Bool) (i : Nat) (qry : Query) :
    List RangeTblEntry → Except ErrorData (List RangeTblEntry × Query)
  | [] => .ok ([], qry)
  | rte :: rtable => do
    let (rte, qry) ← lockAllEntry pushedDown i qry rte
    let (rtable, qry) ← lockAllEntries pushedDown (i + 1) qry rtable
    pure (rte :: rtable, qry)

/-- One entry of the walk: a relation is marked and gains `ACL_SELECT_FOR_UPDATE`, a sub-query
is marked and has the clause pushed down into it, any other entry is left alone. -/
def lockAllEntry (pushedDown : Bool) (i : Nat) (qry : Query) :
    RangeTblEntry → Except ErrorData (RangeTblEntry × Query)
  | rte@⟨rtekind, _, _, subquery, _, _, requiredPerms, _, _⟩ =>
    match rtekind with
    | .relation =>
      .ok ({ rte with requiredPerms := requiredPerms ||| aclSelectForUpdate },
        applyLockingClause qry i strength noWait pushedDown)
    | .subquery => do
      let qry := applyLockingClause qry i strength noWait pushedDown
      let subquery ← lockAllSubquery subquery
      pure ({ rte with subquery }, qry)
    | _ => .ok (rte, qry)

/-- The recursive call on `rte->subquery`, always pushed down; an entry without its query has
nothing to lock. -/
def lockAllSubquery : Option Query → Except ErrorData (Option Query)
  | none => .ok none
  | some subquery => do
    let subquery ← transformLockingAll true subquery
    pure (some subquery)
end

end Walk

/-! ## Listed names -/

/-- The inner `foreach` of a listed name: the first entry whose alias is `name`, with its index,
counting from `i`. -/
def findLockedRel (name : String) : Nat → List RangeTblEntry → Option (Nat × RangeTblEntry)
  | _, [] => none
  | i, rte :: rtable =>
    if rte.aliasname = name then some (i, rte) else findLockedRel name (i + 1) rtable

/-- One listed name: it must be unqualified; its first entry is locked as in the walk if it is
a relation or a sub-query, and is an error of its kind otherwise; no entry is an error too. -/
def lockNamedRel (expressionReturnsSet : List TargetEntry → Bool) (lc : LockingClause)
    (pushedDown : Bool) (qry : Query) (thisrel : RangeVar) : Except ErrorData Query :=
  if thisrel.catalogname.isSome || thisrel.schemaname.isSome then
    .error (lockingQualifiedNameError lc.strength)
  else match findLockedRel thisrel.relname 1 qry.rtable with
    | none => .error (lockingRelationNotFoundError thisrel.relname lc.strength)
    | some (i, rte) =>
      match rte.rtekind with
      | .relation =>
        .ok { applyLockingClause qry i lc.strength lc.noWait pushedDown with
          rtable := qry.rtable.set (i - 1)
            { rte with requiredPerms := rte.requiredPerms ||| aclSelectForUpdate } }
      | .subquery => do
        let subquery ← lockAllSubquery expressionReturnsSet lc.strength lc.noWait rte.subquery
        pure { applyLockingClause qry i lc.strength lc.noWait pushedDown with
          rtable := qry.rtable.set (i - 1) { rte with subquery } }
      | .join => .error (lockingCannotApplyError lc.strength "a join")
      | .function => .error (lockingCannotApplyError lc.strength "a function")
      | .values => .error (lockingCannotApplyError lc.strength "VALUES")
      | .cte => .error (lockingCannotApplyError lc.strength "a WITH query")

/-- `transformLockingClause(pstate, qry, lc, pushedDown)`. -/
def transformLockingClause (expressionReturnsSet : List TargetEntry → Bool) (lc : LockingClause)
    (pushedDown : Bool) (qry : Query) : Except ErrorData Query := do
  let _ ← checkSelectLocking expressionReturnsSet qry lc.strength
  if lc.lockedRels.isEmpty then
    let (rtable, qry) ←
      lockAllEntries expressionReturnsSet lc.strength lc.noWait pushedDown 1 qry qry.rtable
    pure { qry with rtable }
  else lc.lockedRels.foldlM (lockNamedRel expressionReturnsSet lc pushedDown) qry

/-! ## What a clause leaves behind -/

/-- The kinds of entry a clause locks: relations and sub-queries. -/
def RTEKind.isLockable : RTEKind → Bool
  | .relation | .subquery => true
  | _ => false

/-- What a clause reads of an entry, and keeps: its kind and alias. -/
def entryShape (rte : RangeTblEntry) : RTEKind × String :=
  (rte.rtekind, rte.aliasname)

/-- Index `rti` holds a row mark at least as strong as `strength`, with NOWAIT if `noWait`. -/
def MarkedAtLeast (rowMarks : List RowMarkClause) (rti strength : Nat) (noWait : Bool) : Prop :=
  ∃ rc, getParseRowmark rowMarks rti = some rc ∧ strength ≤ rc.strength ∧ (noWait → rc.noWait)

/-- The entry's required permissions hold `ACL_SELECT_FOR_UPDATE`. -/
def HasSelectForUpdate (rte : RangeTblEntry) : Prop :=
  rte.requiredPerms ||| aclSelectForUpdate = rte.requiredPerms

/-- A query locked throughout by a clause of the given strength and NOWAIT: each relation and
sub-query entry is marked at least as strongly, each relation holds `ACL_SELECT_FOR_UPDATE`,
and the query of each sub-query entry is locked throughout. -/
inductive AllLocked (strength : Nat) (noWait : Bool) : Query → Prop
  | mk {qry : Query}
    (marked : ∀ i rte, qry.rtable[i]? = some rte → rte.rtekind.isLockable →
      MarkedAtLeast qry.rowMarks (i + 1) strength noWait)
    (permitted : ∀ rte ∈ qry.rtable, rte.rtekind = .relation → HasSelectForUpdate rte)
    (below : ∀ rte ∈ qry.rtable, rte.rtekind = .subquery →
      ∀ sub, rte.subquery = some sub → AllLocked strength noWait sub) :
    AllLocked strength noWait qry

/-- What a locked entry carries itself: the permission if a relation, its query locked
throughout if a sub-query. -/
def LockedBelow (strength : Nat) (noWait : Bool) (rte : RangeTblEntry) : Prop :=
  (rte.rtekind = .relation → HasSelectForUpdate rte) ∧
    (rte.rtekind = .subquery → ∀ sub, rte.subquery = some sub → AllLocked strength noWait sub)

/-- Entry `rte` of index `rti` is locked: marked at least as strongly, and `LockedBelow`. -/
def EntryLocked (strength : Nat) (noWait : Bool) (qry : Query) (rti : Nat)
    (rte : RangeTblEntry) : Prop :=
  MarkedAtLeast qry.rowMarks rti strength noWait ∧ LockedBelow strength noWait rte

/-- Setting the permission bit gives it. -/
theorem hasSelectForUpdate_of_eq {rte : RangeTblEntry} {perms : Nat}
    (h : rte.requiredPerms = perms ||| aclSelectForUpdate) : HasSelectForUpdate rte := by
  rw [HasSelectForUpdate, h, Nat.or_assoc, Nat.or_self]

/-! ## Row marks of the calls -/

/-- A call marks its index at least as strongly as it asks. -/
theorem markedAtLeast_applyLockingClause (qry : Query) (c : LockingCall) :
    MarkedAtLeast (applyLockingClause qry c.rti c.strength c.noWait c.pushedDown).rowMarks c.rti
      c.strength c.noWait := by
  rw [MarkedAtLeast, applyLockingClause_rowMarks, getParseRowmark_recordRowMark, if_pos rfl]
  cases getParseRowmark qry.rowMarks c.rti with
  | none => exact ⟨_, rfl, le_refl _, id⟩
  | some rc => exact ⟨_, rfl, le_max_right _ _, fun h => by simp [mergeInto, mergeRowMark, h]⟩

/-- A call keeps every mark at least as strong as it was. -/
theorem MarkedAtLeast.mono_applyLockingClause {qry : Query} {rti strength : Nat} {noWait : Bool}
    (h : MarkedAtLeast qry.rowMarks rti strength noWait) (c : LockingCall) :
    MarkedAtLeast (applyLockingClause qry c.rti c.strength c.noWait c.pushedDown).rowMarks rti
      strength noWait := by
  obtain ⟨rc, hrc, hs, hw⟩ := h
  rw [MarkedAtLeast, applyLockingClause_rowMarks, getParseRowmark_recordRowMark, hrc]
  split_ifs
  · exact ⟨_, rfl, le_trans hs (le_max_left _ _), fun h => by simp [mergeInto, mergeRowMark, hw h]⟩
  · exact ⟨rc, rfl, hs, hw⟩

/-- A run of calls keeps every mark at least as strong as it was. -/
theorem MarkedAtLeast.mono_applyLockingClauses {qry : Query} {rti strength : Nat}
    {noWait : Bool} (h : MarkedAtLeast qry.rowMarks rti strength noWait) :
    ∀ cs, MarkedAtLeast (applyLockingClauses qry cs).rowMarks rti strength noWait
  | [] => h
  | c :: cs => MarkedAtLeast.mono_applyLockingClauses (h.mono_applyLockingClause c) cs

/-- Every call of a run marks its index at least as strongly as it asks. -/
theorem markedAtLeast_applyLockingClauses {c : LockingCall} :
    ∀ {qry : Query} {cs : List LockingCall}, c ∈ cs →
      MarkedAtLeast (applyLockingClauses qry cs).rowMarks c.rti c.strength c.noWait
  | qry, _ :: cs, .head _ => (markedAtLeast_applyLockingClause qry c).mono_applyLockingClauses cs
  | _, _ :: cs, .tail _ hc => @markedAtLeast_applyLockingClauses c _ cs hc

theorem applyLockingClauses_append (qry : Query) (cs cs' : List LockingCall) :
    applyLockingClauses qry (cs ++ cs') = applyLockingClauses (applyLockingClauses qry cs) cs' :=
  List.foldl_append _ _ _ _

/-! ## The calls of the walk -/

/-- The calls of `applyLockingClause` the walk makes for the entry of index `i`. -/
def entryCalls (strength : Nat) (noWait pushedDown : Bool) (i : Nat) (rte : RangeTblEntry) :
    List LockingCall :=
  if rte.rtekind.isLockable then [⟨i, strength, noWait, pushedDown⟩] else []

/-- The calls of the walk over the entries from index `i` on. -/
def allRelsCalls (strength : Nat) (noWait pushedDown : Bool) :
    Nat → List RangeTblEntry → List LockingCall
  | _, [] => []
  | i, rte :: rtable =>
    entryCalls strength noWait pushedDown i rte ++ allRelsCalls strength noWait pushedDown (i + 1) rtable

/-- The walk calls for each relation and sub-query entry, at its index. -/
theorem mem_allRelsCalls {strength : Nat} {noWait pushedDown : Bool} {rtable : List RangeTblEntry} :
    ∀ {i j : Nat} {rte : RangeTblEntry}, rtable[j]? = some rte → rte.rtekind.isLockable →
    ⟨i + j, strength, noWait, pushedDown⟩ ∈ allRelsCalls strength noWait pushedDown i rtable := by
  induction rtable with
  | nil => exact fun h => nomatch h
  | cons _ _ ih =>
    rintro i (_ | j) rte h hlock
    · rw [List.getElem?_cons_zero, Option.some.injEq] at h
      subst h
      simp [allRelsCalls, entryCalls, hlock]
    · rw [List.getElem?_cons_succ] at h
      rw [show i + (j + 1) = i + 1 + j by omega]
      exact List.mem_append_right _ (ih h hlock)

/-- The walk calls only for relation and sub-query entries, at their indexes. -/
theorem exists_of_mem_allRelsCalls {strength : Nat} {noWait pushedDown : Bool} {c : LockingCall} :
    ∀ {i : Nat} {rtable : List RangeTblEntry}, c ∈ allRelsCalls strength noWait pushedDown i rtable →
    ∃ j rte, rtable[j]? = some rte ∧ rte.rtekind.isLockable ∧ c.rti = i + j
  | _, [], h => nomatch h
  | i, rte :: _, h => by
    rcases List.mem_append.mp h with h | h
    · by_cases hlock : rte.rtekind.isLockable
      · simp only [entryCalls, hlock, if_true, List.mem_singleton] at h
        exact ⟨0, rte, List.getElem?_cons_zero, hlock, by rw [h]; rfl⟩
      · simp [entryCalls, hlock] at h
    · obtain ⟨j, rte', hj, hlock, hrti⟩ := exists_of_mem_allRelsCalls h
      exact ⟨j + 1, rte', (List.getElem?_cons_succ ..).trans hj, hlock, by omega⟩

/-- Range tables of the same kinds and aliases have, at each index, entries of one kind and
alias. -/
theorem exists_getElem?_of_map_entryShape {rtable rtable' : List RangeTblEntry}
    (h : rtable'.map entryShape = rtable.map entryShape) {j : Nat} {rte' : RangeTblEntry}
    (hj : rtable'[j]? = some rte') : ∃ rte, rtable[j]? = some rte ∧ entryShape rte = entryShape rte' := by
  have hmap := congrArg (·[j]?) h
  simp only [List.getElem?_map, hj, Option.map_some'] at hmap
  cases hr : rtable[j]? with
  | none => rw [hr] at hmap; cases hmap
  | some rte => rw [hr] at hmap; exact ⟨rte, rfl, (Option.some.inj hmap).symm⟩

/-- The query the walk builds from `qry` is locked throughout, given the entries it leaves
`LockedBelow` and their kinds kept. -/
theorem allLocked_of_walk {qry : Query} {rtable rtable' : List RangeTblEntry} {strength : Nat}
    {noWait pushedDown : Bool} (hshape : rtable'.map entryShape = rtable.map entryShape)
    (hbelow : ∀ rte ∈ rtable', LockedBelow strength noWait rte) :
    AllLocked strength noWait
      { applyLockingClauses qry (allRelsCalls strength noWait pushedDown 1 rtable) with
        rtable := rtable' } := by
  refine .mk (fun i rte' hi hlock => ?_) (fun rte hrte => (hbelow rte hrte).1)
    (fun rte hrte => (hbelow rte hrte).2)
  obtain ⟨rte, hrte, hshape'⟩ := exists_getElem?_of_map_entryShape hshape hi
  have hkind : rte.rtekind = rte'.rtekind := congrArg Prod.fst hshape'
  have hcall : (⟨1 + i, strength, noWait, pushedDown⟩ : LockingCall) ∈
      allRelsCalls strength noWait pushedDown 1 rtable := mem_allRelsCalls hrte (hkind ▸ hlock)
  have hmarked := @markedAtLeast_applyLockingClauses _ qry _ hcall
  rwa [Nat.add_comm] at hmarked

/-! ## The walk locks throughout -/

section WalkLocks

variable {expressionReturnsSet : List TargetEntry → Bool} {strength : Nat} {noWait : Bool}

mutual
/-- An accepted walk leaves its query locked throughout. -/
theorem transformLockingAll_locked : ∀ {pushedDown : Bool} {qry qry' : Query},
    transformLockingAll expressionReturnsSet strength noWait pushedDown qry = .ok qry' →
    AllLocked strength noWait qry'
  | _, ⟨_, _, _, _, _, _, _, _, _, _, _, _, _, _, _, _⟩, _, h => by
    simp only [transformLockingAll] at h
    obtain ⟨_, -, h⟩ := except_bind_eq_ok.mp h
    obtain ⟨⟨_, _⟩, hwalk, h⟩ := except_bind_eq_ok.mp h
    cases h
    obtain ⟨hshape, rfl, hbelow⟩ := lockAllEntries_locked hwalk
    exact allLocked_of_walk hshape hbelow
termination_by structural _ qry => qry

/-- The walk over the entries keeps their kinds and aliases, makes its calls in order, and
leaves each entry `LockedBelow`. -/
theorem lockAllEntries_locked : ∀ {pushedDown : Bool} {i : Nat} {qry : Query}
    {rtable rtable' : List RangeTblEntry} {qry' : Query},
    lockAllEntries expressionReturnsSet strength noWait pushedDown i qry rtable =
      .ok (rtable', qry') →
    rtable'.map entryShape = rtable.map entryShape ∧
      qry' = applyLockingClauses qry (allRelsCalls strength noWait pushedDown i rtable) ∧
      ∀ rte ∈ rtable', LockedBelow strength noWait rte
  | _, _, _, [], _, _, h => by
    cases h
    exact ⟨rfl, rfl, fun _ h => nomatch h⟩
  | _, _, _, _ :: _, _, _, h => by
    simp only [lockAllEntries] at h
    obtain ⟨⟨_, _⟩, hentry, h⟩ := except_bind_eq_ok.mp h
    obtain ⟨⟨_, _⟩, hrest, h⟩ := except_bind_eq_ok.mp h
    cases h
    obtain ⟨hshape, rfl, hbelow⟩ := lockAllEntry_locked hentry
    obtain ⟨hshapes, rfl, hbelows⟩ := lockAllEntries_locked hrest
    refine ⟨by rw [List.map_cons, List.map_cons, hshape, hshapes], ?_,
      List.forall_mem_cons.mpr ⟨hbelow, hbelows⟩⟩
    rw [allRelsCalls, applyLockingClauses_append]
termination_by structural _ _ _ rtable => rtable

/-- One entry of the walk keeps its kind and alias, makes its call, and is `LockedBelow`. -/
theorem lockAllEntry_locked : ∀ {pushedDown : Bool} {i : Nat} {qry : Query}
    {rte rte' : RangeTblEntry} {qry' : Query},
    lockAllEntry expressionReturnsSet strength noWait pushedDown i qry rte = .ok (rte', qry') →
    entryShape rte' = entryShape rte ∧
      qry' = applyLockingClauses qry (entryCalls strength noWait pushedDown i rte) ∧
      LockedBelow strength noWait rte'
  | _, _, _, ⟨rtekind, _, _, _, _, _, _, _, _⟩, _, _, h => by
    cases rtekind <;> simp only [lockAllEntry] at h
    case relation =>
      cases h
      exact ⟨rfl, rfl, fun _ => hasSelectForUpdate_of_eq rfl, nofun⟩
    case subquery =>
      obtain ⟨_, hsub, h⟩ := except_bind_eq_ok.mp h
      cases h
      exact ⟨rfl, rfl, nofun, fun _ => lockAllSubquery_locked hsub⟩
    all_goals
      cases h
      exact ⟨rfl, rfl, nofun, nofun⟩
termination_by structural _ _ _ rte => rte

/-- The pushed-down call leaves the sub-query locked throughout. -/
theorem lockAllSubquery_locked : ∀ {subquery subquery' : Option Query},
    lockAllSubquery expressionReturnsSet strength noWait subquery = .ok subquery' →
    ∀ sub, subquery' = some sub → AllLocked strength noWait sub
  | none, _, h => by
    cases h
    nofun
  | some _, _, h => by
    simp only [lockAllSubquery] at h
    obtain ⟨_, hsub, h⟩ := except_bind_eq_ok.mp h
    cases h
    rintro _ ⟨⟩
    exact transformLockingAll_locked hsub
termination_by structural subquery => subquery
end

end WalkLocks

/-! ## Listed names -/

/-- Entry `i` (from 0) is the first entry of the range table whose alias is `name`. -/
def FirstAlias (rtable : List RangeTblEntry) (name : String) (i : Nat) (rte : RangeTblEntry) :
    Prop :=
  rtable[i]? = some rte ∧ rte.aliasname = name ∧
    ∀ j < i, ∀ rte', rtable[j]? = some rte' → rte'.aliasname ≠ name

/-- `findLockedRel` finds the first entry with the alias, at its index. -/
theorem findLockedRel_eq_some {name : String} :
    ∀ {i : Nat} {rtable : List RangeTblEntry} {k : Nat} {rte : RangeTblEntry},
    findLockedRel name i rtable = some (k, rte) → ∃ j, k = i + j ∧ FirstAlias rtable name j rte
  | _, [], _, _, h => nomatch h
  | i, rte₀ :: rtable, k, rte, h => by
    rw [findLockedRel] at h
    split_ifs at h with hname
    · cases h
      exact ⟨0, rfl, List.getElem?_cons_zero, hname, fun _ hj => absurd hj (Nat.not_lt_zero _)⟩
    · obtain ⟨j, rfl, hj, hn, hfirst⟩ := findLockedRel_eq_some h
      refine ⟨j + 1, by omega, (List.getElem?_cons_succ ..).trans hj, hn, fun j' hj' rte' h' => ?_⟩
      cases j' with
      | zero =>
        rw [List.getElem?_cons_zero, Option.some.injEq] at h'
        exact h' ▸ hname
      | succ j' => exact hfirst j' (by omega) rte' ((List.getElem?_cons_succ ..).symm.trans h')

/-- No entry with the alias: no first one. -/
theorem findLockedRel_eq_none {name : String} :
    ∀ {i : Nat} {rtable : List RangeTblEntry}, (∀ rte ∈ rtable, rte.aliasname ≠ name) →
    findLockedRel name i rtable = none
  | _, [], _ => rfl
  | _, rte :: _, h => by
    rw [findLockedRel, if_neg (h rte (List.mem_cons_self _ _))]
    exact findLockedRel_eq_none fun rte' hrte' => h rte' (List.mem_cons_of_mem _ hrte')

/-- The search reads only the kinds and aliases of the entries. -/
theorem findLockedRel_congr {name : String} {rtable : List RangeTblEntry} :
    ∀ {i : Nat} {rtable' : List RangeTblEntry},
    rtable'.map entryShape = rtable.map entryShape →
    (findLockedRel name i rtable').map (fun p => (p.1, entryShape p.2)) =
      (findLockedRel name i rtable).map (fun p => (p.1, entryShape p.2)) := by
  induction rtable with
  | nil =>
    intro _ _ h
    rw [List.map_nil, List.map_eq_nil_iff] at h
    subst h
    rfl
  | cons rte _ ih =>
    intro i _ h
    obtain ⟨rte', _, rfl, hhead, htail⟩ := List.map_eq_cons_iff.mp h
    have halias : rte'.aliasname = rte.aliasname := congrArg Prod.snd hhead
    rw [findLockedRel, findLockedRel, halias]
    split_ifs
    · simp [hhead]
    · exact ih htail

/-- Replacing an entry by one of its kind and alias keeps the kinds and aliases. -/
theorem map_entryShape_set {rtable : List RangeTblEntry} {j : Nat} {rte rte' : RangeTblEntry}
    (hj : rtable[j]? = some rte) (hshape : entryShape rte' = entryShape rte) :
    (rtable.set j rte').map entryShape = rtable.map entryShape := by
  apply List.ext_getElem?
  intro n
  rw [List.map_set, List.getElem?_set, List.getElem?_map]
  split_ifs with hn hlt
  · rw [← hn, hj, hshape]
    rfl
  · exact absurd (by simpa using (List.getElem?_eq_some_iff.mp hj).1) hlt
  · rfl

section Named

variable {expressionReturnsSet : List TargetEntry → Bool} {lc : LockingClause}
  {pushedDown : Bool}

/-- **What one listed name does**: its first entry is a relation or a sub-query, is replaced by
a `LockedBelow` entry of its kind and alias, and gets its call of `applyLockingClause`. -/
theorem lockNamedRel_cases {qry qry' : Query} {thisrel : RangeVar}
    (h : lockNamedRel expressionReturnsSet lc pushedDown qry thisrel = .ok qry') :
    ∃ i rte rte', findLockedRel thisrel.relname 1 qry.rtable = some (i, rte) ∧
      rte.rtekind.isLockable ∧ entryShape rte' = entryShape rte ∧
      LockedBelow lc.strength lc.noWait rte' ∧
      qry' = { applyLockingClause qry i lc.strength lc.noWait pushedDown with
        rtable := qry.rtable.set (i - 1) rte' } := by
  unfold lockNamedRel at h
  split_ifs at h
  split at h
  · cases h
  · rename_i i rte hfind
    split at h <;> rename_i hkind
    · cases h
      exact ⟨i, rte, { rte with requiredPerms := rte.requiredPerms ||| aclSelectForUpdate }, hfind,
        by rw [hkind]; rfl, rfl,
        ⟨fun _ => hasSelectForUpdate_of_eq rfl, fun h => nomatch hkind.symm.trans h⟩, rfl⟩
    · obtain ⟨sub', hsub, h⟩ := except_bind_eq_ok.mp h
      cases h
      exact ⟨i, rte, { rte with subquery := sub' }, hfind, by rw [hkind]; rfl, rfl,
        ⟨(fun h => nomatch hkind.symm.trans h), fun _ => lockAllSubquery_locked hsub⟩, rfl⟩
    all_goals cases h

/-- Over range tables of the same kinds and aliases, a name finds entries of one kind and alias
at one index. -/
theorem findLockedRel_of_shape {name : String} {rtable rtable' : List RangeTblEntry}
    (hshape : rtable'.map entryShape = rtable.map entryShape) {i : Nat} {rte' : RangeTblEntry}
    (h : findLockedRel name 1 rtable' = some (i, rte')) :
    ∃ rte, findLockedRel name 1 rtable = some (i, rte) ∧ entryShape rte = entryShape rte' := by
  have hmap := @findLockedRel_congr name _ 1 _ hshape
  rw [h] at hmap
  cases hr : findLockedRel name 1 rtable with
  | none => rw [hr] at hmap; cases hmap
  | some p =>
    rw [hr] at hmap
    obtain ⟨hi, hs⟩ := Prod.mk.inj (Option.some.inj hmap)
    exact ⟨p.2, congrArg some (Prod.ext hi.symm rfl : p = (i, p.2)), hs.symm⟩

/-- The listed names `names` of a clause of the given strength and NOWAIT have been processed
from the query `qry₀` to `qry`: the kinds and aliases of the range table are kept, the first
entry of each name is locked, and every index none of them found keeps its mark. -/
structure NamedLocked (strength : Nat) (noWait : Bool) (qry₀ : Query) (names : List RangeVar)
    (qry : Query) : Prop where
  shape : qry.rtable.map entryShape = qry₀.rtable.map entryShape
  locked : ∀ thisrel ∈ names, ∃ i rte, findLockedRel thisrel.relname 1 qry₀.rtable =
      some (i + 1, rte) ∧ rte.rtekind.isLockable ∧
    ∃ rte', qry.rtable[i]? = some rte' ∧ EntryLocked strength noWait qry (i + 1) rte'
  unchanged : ∀ r, (∀ thisrel ∈ names, ∀ i rte,
      findLockedRel thisrel.relname 1 qry₀.rtable = some (i, rte) → r ≠ i) →
    getParseRowmark qry.rowMarks r = getParseRowmark qry₀.rowMarks r

/-- Before any name. -/
theorem NamedLocked.init (strength : Nat) (noWait : Bool) (qry₀ : Query) :
    NamedLocked strength noWait qry₀ [] qry₀ :=
  ⟨rfl, (fun _ h => nomatch h), fun _ _ => rfl⟩

/-- **Step**: one more listed name keeps `NamedLocked`. -/
theorem NamedLocked.step {qry₀ qry qry' : Query} {names : List RangeVar} {thisrel : RangeVar}
    (hinv : NamedLocked lc.strength lc.noWait qry₀ names qry)
    (h : lockNamedRel expressionReturnsSet lc pushedDown qry thisrel = .ok qry') :
    NamedLocked lc.strength lc.noWait qry₀ (names ++ [thisrel]) qry' := by
  obtain ⟨i, rte, rte', hfind, hlock, hshape, hbelow, rfl⟩ := lockNamedRel_cases h
  obtain ⟨j, rfl, hj, -⟩ := findLockedRel_eq_some hfind
  obtain ⟨rte₀, hfind₀, hshape₀⟩ := findLockedRel_of_shape hinv.shape hfind
  rw [Nat.add_sub_cancel_left, Nat.add_comm] at *
  have hlen : j < qry.rtable.length := (List.getElem?_eq_some_iff.mp hj).1
  -- the entry this name locks, and the entries it leaves alone
  have hnew : (qry.rtable.set j rte')[j]? = some rte' ∧
      EntryLocked lc.strength lc.noWait
        { applyLockingClause qry (j + 1) lc.strength lc.noWait pushedDown with
          rtable := qry.rtable.set j rte' } (j + 1) rte' :=
    ⟨List.getElem?_set_self hlen, markedAtLeast_applyLockingClause qry ⟨j + 1, _, _, _⟩, hbelow⟩
  refine ⟨by rw [map_entryShape_set hj hshape, hinv.shape], fun thisrel' hmem => ?_,
    fun r hr => ?_⟩
  · rcases List.mem_append.mp hmem with hmem | hmem
    · obtain ⟨i', rte₀', hfind', hlock', rte'', hrte'', hmarked, hbelow''⟩ := hinv.locked _ hmem
      refine ⟨i', rte₀', hfind', hlock', ?_⟩
      by_cases hi' : i' = j
      · subst hi'
        exact ⟨rte', hnew⟩
      · exact ⟨rte'', (List.getElem?_set_ne (Ne.symm hi')).trans hrte'',
          hmarked.mono_applyLockingClause ⟨j + 1, _, _, _⟩, hbelow''⟩
    · rw [List.mem_singleton.mp hmem]
      refine ⟨j, rte₀, hfind₀, ?_, rte', hnew⟩
      rwa [show rte₀.rtekind = rte.rtekind from congrArg Prod.fst hshape₀]
  · have hne : j + 1 ≠ r := fun he =>
      hr thisrel (List.mem_append_right _ (List.mem_singleton_self _)) _ _ hfind₀ he.symm
    show getParseRowmark (recordRowMark ⟨j + 1, _, _, _⟩ qry.rowMarks) r = _
    rw [getParseRowmark_recordRowMark, if_neg hne]
    exact hinv.unchanged r fun thisrel' hmem => hr thisrel' (List.mem_append_left _ hmem)


/-- **Run**: the loop over the listed names keeps `NamedLocked`. -/
theorem NamedLocked.foldlM {qry₀ : Query} : ∀ {names rest : List RangeVar} {qry qry' : Query},
    NamedLocked lc.strength lc.noWait qry₀ names qry →
    rest.foldlM (lockNamedRel expressionReturnsSet lc pushedDown) qry = .ok qry' →
    NamedLocked lc.strength lc.noWait qry₀ (names ++ rest) qry'
  | _, [], _, _, hinv, h => by
    cases h
    rwa [List.append_nil]
  | _, _ :: _, _, _, hinv, h => by
    rw [List.foldlM_cons] at h
    obtain ⟨_, hstep, h⟩ := except_bind_eq_ok.mp h
    have hrun := NamedLocked.foldlM (hinv.step hstep) h
    rwa [List.append_assoc, List.singleton_append] at hrun

end Named

/-! ## The clause -/

section Clause

variable {expressionReturnsSet : List TargetEntry → Bool} {lc : LockingClause}
  {pushedDown : Bool}

/-- **An accepted clause.** The range table keeps its kinds and aliases. With no listed names
the query is locked throughout, and only the indexes of its relation and sub-query entries
change their marks. With names, the first entry of each is a relation or a sub-query and is
locked, and only those entries' indexes change their marks. -/
theorem transformLockingClause_accepted {qry qry' : Query}
    (h : transformLockingClause expressionReturnsSet lc pushedDown qry = .ok qry') :
    qry'.rtable.map entryShape = qry.rtable.map entryShape ∧
    (lc.lockedRels = [] →
      AllLocked lc.strength lc.noWait qry' ∧
      ∀ r, (∀ i rte, qry.rtable[i]? = some rte → rte.rtekind.isLockable → r ≠ i + 1) →
        getParseRowmark qry'.rowMarks r = getParseRowmark qry.rowMarks r) ∧
    (lc.lockedRels ≠ [] →
      (∀ thisrel ∈ lc.lockedRels, ∃ i rte, FirstAlias qry.rtable thisrel.relname i rte ∧
        rte.rtekind.isLockable ∧
        ∃ rte', qry'.rtable[i]? = some rte' ∧ EntryLocked lc.strength lc.noWait qry' (i + 1) rte') ∧
      ∀ r, (∀ thisrel ∈ lc.lockedRels, ∀ i rte, FirstAlias qry.rtable thisrel.relname i rte →
          r ≠ i + 1) →
        getParseRowmark qry'.rowMarks r = getParseRowmark qry.rowMarks r) := by
  unfold transformLockingClause at h
  obtain ⟨_, -, h⟩ := except_bind_eq_ok.mp h
  split at h
  · -- no listed names: the walk
    rename_i hempty
    have hnil : lc.lockedRels = [] := List.isEmpty_iff.mp hempty
    obtain ⟨⟨_, _⟩, hwalk, h⟩ := except_bind_eq_ok.mp h
    cases h
    obtain ⟨hshape, rfl, hbelow⟩ := lockAllEntries_locked hwalk
    refine ⟨hshape, fun _ => ⟨allLocked_of_walk hshape hbelow, fun r hr => ?_⟩,
      fun hne => absurd hnil hne⟩
    refine getParseRowmark_applyLockingClauses_unnamed qry _ fun hmem => ?_
    obtain ⟨c, hc, rfl⟩ := List.mem_map.mp hmem
    obtain ⟨j, rte, hj, hlock, hrti⟩ := exists_of_mem_allRelsCalls hc
    exact hr j rte hj hlock (hrti.trans (Nat.add_comm 1 j))
  · -- listed names: the loop over them
    rename_i hempty
    have hne : lc.lockedRels ≠ [] := fun hnil => hempty (List.isEmpty_iff.mpr hnil)
    have hinv := (NamedLocked.init lc.strength lc.noWait qry).foldlM h
    rw [List.nil_append] at hinv
    refine ⟨hinv.shape, fun hnil => absurd hnil hne, fun _ => ⟨fun thisrel hmem => ?_,
      fun r hr => hinv.unchanged r fun thisrel hmem i rte hfind => ?_⟩⟩
    · obtain ⟨i, rte, hfind, hlock, hentry⟩ := hinv.locked thisrel hmem
      obtain ⟨j, hij, hfirst⟩ := findLockedRel_eq_some hfind
      obtain rfl : i = j := by omega
      exact ⟨i, rte, hfirst, hlock, hentry⟩
    · obtain ⟨j, rfl, hfirst⟩ := findLockedRel_eq_some hfind
      rw [Nat.add_comm]
      exact hr thisrel hmem j rte hfirst

/-- Over range tables of the same kinds and aliases, an alias no entry of one has is an alias no
entry of the other has. -/
theorem aliasname_ne_of_shape {rtable rtable' : List RangeTblEntry} {name : String}
    (hshape : rtable'.map entryShape = rtable.map entryShape)
    (hmiss : ∀ rte ∈ rtable, rte.aliasname ≠ name) : ∀ rte ∈ rtable', rte.aliasname ≠ name := by
  intro rte hrte
  obtain ⟨rte₀, hrte₀, hshape₀⟩ := List.mem_map.mp (hshape ▸ List.mem_map_of_mem entryShape hrte)
  rw [← show rte₀.aliasname = rte.aliasname from congrArg Prod.snd hshape₀]
  exact hmiss rte₀ hrte₀

/-- **A listed name that matches no entry.** It is never accepted; and when the check and the
names before it pass, and it is unqualified, it is reported as `UNDEFINED_TABLE`, whatever the
names after it. -/
theorem transformLockingClause_unmatched {qry : Query} {thisrel : RangeVar}
    (hmiss : ∀ rte ∈ qry.rtable, rte.aliasname ≠ thisrel.relname) :
    (thisrel ∈ lc.lockedRels →
      ∀ qry', transformLockingClause expressionReturnsSet lc pushedDown qry ≠ .ok qry') ∧
    ∀ pre post qry₁, lc.lockedRels = pre ++ thisrel :: post →
      checkSelectLocking expressionReturnsSet qry lc.strength = .ok () →
      pre.foldlM (lockNamedRel expressionReturnsSet lc pushedDown) qry = .ok qry₁ →
      thisrel.catalogname = none → thisrel.schemaname = none →
      transformLockingClause expressionReturnsSet lc pushedDown qry =
        .error (lockingRelationNotFoundError thisrel.relname lc.strength) := by
  refine ⟨fun hmem qry' h => ?_, fun pre post qry₁ hrels hcheck hpre hcat hschema => ?_⟩
  · obtain ⟨i, rte, ⟨hi, halias, -⟩, -⟩ :=
      ((transformLockingClause_accepted h).2.2 (List.ne_nil_of_mem hmem)).1 thisrel hmem
    exact hmiss rte (List.getElem?_mem hi) halias
  · have hshape := ((NamedLocked.init lc.strength lc.noWait qry).foldlM hpre).shape
    have hnone := findLockedRel_eq_none (i := 1) (aliasname_ne_of_shape hshape hmiss)
    have hthis : lockNamedRel expressionReturnsSet lc pushedDown qry₁ thisrel =
        .error (lockingRelationNotFoundError thisrel.relname lc.strength) := by
      rw [lockNamedRel, hcat, hschema]
      simp only [Option.isSome_none, Bool.or_false, Bool.false_eq_true, if_false, hnone]
    rw [transformLockingClause, hcheck, ok_bind_eq, hrels, if_neg (by simp), List.foldlM_append,
      hpre, ok_bind_eq, List.foldlM_cons, hthis]
    rfl

end Clause

/-! ## Later clauses keep the locks -/

/-- `qry'` keeps every lock `qry` holds: the kinds and aliases of the range table, every row
mark at least as strong, and, entry by entry, the permission and the locks below. -/
structure KeepsLocks (qry qry' : Query) : Prop where
  shape : qry'.rtable.map entryShape = qry.rtable.map entryShape
  marks : ∀ (rti strength : Nat) (noWait : Bool), MarkedAtLeast qry.rowMarks rti strength noWait →
    MarkedAtLeast qry'.rowMarks rti strength noWait
  entries : ∀ (strength : Nat) (noWait : Bool) (i : Nat) (rte rte' : RangeTblEntry),
    qry.rtable[i]? = some rte → qry'.rtable[i]? = some rte' →
    LockedBelow strength noWait rte → LockedBelow strength noWait rte'

theorem KeepsLocks.refl (qry : Query) : KeepsLocks qry qry :=
  ⟨rfl, fun _ _ _ h => h, fun _ _ _ _ _ h h' hb => by rw [h] at h'; cases h'; exact hb⟩

theorem KeepsLocks.trans {qry₁ qry₂ qry₃ : Query} (h₁₂ : KeepsLocks qry₁ qry₂)
    (h₂₃ : KeepsLocks qry₂ qry₃) : KeepsLocks qry₁ qry₃ := by
  refine ⟨h₂₃.shape.trans h₁₂.shape, fun _ _ _ h => h₂₃.marks _ _ _ (h₁₂.marks _ _ _ h),
    fun s w i rte rte'' h₁ h₃ hb => ?_⟩
  obtain ⟨rte', h₂, -⟩ := exists_getElem?_of_map_entryShape h₂₃.shape h₃
  exact h₂₃.entries s w i rte' rte'' h₂ h₃ (h₁₂.entries s w i rte rte' h₁ h₂ hb)

/-- A query locked throughout stays so under anything that keeps the locks. -/
theorem KeepsLocks.allLocked {qry qry' : Query} (h : KeepsLocks qry qry') {strength : Nat}
    {noWait : Bool} (hall : AllLocked strength noWait qry) : AllLocked strength noWait qry' := by
  obtain ⟨marked, permitted, below⟩ := hall
  have hentry : ∀ i rte', qry'.rtable[i]? = some rte' → ∃ rte, qry.rtable[i]? = some rte ∧
      entryShape rte = entryShape rte' ∧ LockedBelow strength noWait rte' := fun i rte' hi => by
    obtain ⟨rte, hrte, hshape⟩ := exists_getElem?_of_map_entryShape h.shape hi
    have hmem := List.getElem?_mem hrte
    exact ⟨rte, hrte, hshape, h.entries strength noWait i rte rte' hrte hi
      ⟨permitted rte hmem, below rte hmem⟩⟩
  refine .mk (fun i rte' hi hlock => ?_) (fun rte' hmem => ?_) (fun rte' hmem => ?_)
  · obtain ⟨rte, hrte, hshape, -⟩ := hentry i rte' hi
    exact h.marks _ _ _ (marked i rte hrte (by rwa [show rte.rtekind = rte'.rtekind from
      congrArg Prod.fst hshape]))
  · obtain ⟨i, hi⟩ := List.getElem?_of_mem hmem
    exact (hentry i rte' hi).choose_spec.2.2.1
  · obtain ⟨i, hi⟩ := List.getElem?_of_mem hmem
    exact (hentry i rte' hi).choose_spec.2.2.2

/-- Setting the permission bit again keeps it set. -/
theorem hasSelectForUpdate_or {rte : RangeTblEntry} (h : HasSelectForUpdate rte) (perms : Nat) :
    HasSelectForUpdate { rte with requiredPerms := rte.requiredPerms ||| perms } := by
  simp only [HasSelectForUpdate] at h ⊢
  rw [Nat.or_assoc, Nat.or_comm perms, ← Nat.or_assoc, h]

section WalkKeeps

variable {expressionReturnsSet : List TargetEntry → Bool} {strength : Nat} {noWait : Bool}

mutual
/-- A walk keeps every lock of its query. -/
theorem transformLockingAll_keepsLocks : ∀ {pushedDown : Bool} {qry qry' : Query},
    transformLockingAll expressionReturnsSet strength noWait pushedDown qry = .ok qry' →
    KeepsLocks qry qry'
  | _, ⟨_, _, _, _, _, _, _, _, _, _, _, _, _, _, _, _⟩, _, h => by
    simp only [transformLockingAll] at h
    obtain ⟨_, -, h⟩ := except_bind_eq_ok.mp h
    obtain ⟨⟨_, _⟩, hwalk, h⟩ := except_bind_eq_ok.mp h
    cases h
    obtain ⟨hshape, rfl, -⟩ := lockAllEntries_locked hwalk
    exact ⟨hshape, fun _ _ _ hm => hm.mono_applyLockingClauses _,
      lockAllEntries_keepsLocks hwalk⟩
termination_by structural _ qry => qry

/-- The walk over the entries keeps, entry by entry, the permission and the locks below. -/
theorem lockAllEntries_keepsLocks : ∀ {pushedDown : Bool} {i : Nat} {qry : Query}
    {rtable rtable' : List RangeTblEntry} {qry' : Query},
    lockAllEntries expressionReturnsSet strength noWait pushedDown i qry rtable =
      .ok (rtable', qry') →
    ∀ (s : Nat) (w : Bool) (j : Nat) (rte rte' : RangeTblEntry), rtable[j]? = some rte →
      rtable'[j]? = some rte' → LockedBelow s w rte → LockedBelow s w rte'
  | _, _, _, [], _, _, h => by
    cases h
    intro _ _ _ _ _ h
    nomatch h
  | _, _, _, _ :: _, _, _, h => by
    simp only [lockAllEntries] at h
    obtain ⟨⟨_, _⟩, hentry, h⟩ := except_bind_eq_ok.mp h
    obtain ⟨⟨_, _⟩, hrest, h⟩ := except_bind_eq_ok.mp h
    cases h
    rintro s w (_ | j) rte rte' h h'
    · rw [List.getElem?_cons_zero, Option.some.injEq] at h h'
      subst h h'
      exact lockAllEntry_keepsLocks hentry s w
    · rw [List.getElem?_cons_succ] at h h'
      exact lockAllEntries_keepsLocks hrest s w j rte rte' h h'
termination_by structural _ _ _ rtable => rtable

/-- One entry of the walk keeps its permission and the locks below it. -/
theorem lockAllEntry_keepsLocks : ∀ {pushedDown : Bool} {i : Nat} {qry : Query}
    {rte rte' : RangeTblEntry} {qry' : Query},
    lockAllEntry expressionReturnsSet strength noWait pushedDown i qry rte = .ok (rte', qry') →
    ∀ (s : Nat) (w : Bool), LockedBelow s w rte → LockedBelow s w rte'
  | _, _, _, ⟨rtekind, _, _, _, _, _, _, _, _⟩, _, _, h => by
    cases rtekind <;> simp only [lockAllEntry] at h
    case relation =>
      cases h
      exact fun _ _ hb => ⟨fun hk => hasSelectForUpdate_or (hb.1 hk) _, nofun⟩
    case subquery =>
      obtain ⟨_, hsub, h⟩ := except_bind_eq_ok.mp h
      cases h
      exact fun s w hb => ⟨nofun, fun _ => lockAllSubquery_keepsLocks hsub s w (hb.2 rfl)⟩
    all_goals
      cases h
      exact fun _ _ hb => hb
termination_by structural _ _ _ rte => rte

/-- The pushed-down call keeps the sub-query locked as it was. -/
theorem lockAllSubquery_keepsLocks : ∀ {subquery subquery' : Option Query},
    lockAllSubquery expressionReturnsSet strength noWait subquery = .ok subquery' →
    ∀ (s : Nat) (w : Bool), (∀ sub, subquery = some sub → AllLocked s w sub) →
      ∀ sub, subquery' = some sub → AllLocked s w sub
  | none, _, h => by
    cases h
    intro _ _ _ _ h
    nomatch h
  | some _, _, h => by
    simp only [lockAllSubquery] at h
    obtain ⟨_, hsub, h⟩ := except_bind_eq_ok.mp h
    cases h
    rintro s w hall _ ⟨⟩
    exact (transformLockingAll_keepsLocks hsub).allLocked (hall _ rfl)
termination_by structural subquery => subquery
end

end WalkKeeps

/-- Replacing entry `j` by one of its kind and alias that keeps its locks, and making one call,
keeps every lock. -/
theorem keepsLocks_set {qry : Query} {j : Nat} {rte rte' : RangeTblEntry}
    (hj : qry.rtable[j]? = some rte) (hshape : entryShape rte' = entryShape rte)
    (hkeep : ∀ (s : Nat) (w : Bool), LockedBelow s w rte → LockedBelow s w rte') (c : LockingCall) :
    KeepsLocks qry { applyLockingClause qry c.rti c.strength c.noWait c.pushedDown with
      rtable := qry.rtable.set j rte' } := by
  refine ⟨map_entryShape_set hj hshape, fun _ _ _ hm => hm.mono_applyLockingClause c,
    fun s w i rte₁ rte₂ h₁ h₂ hb => ?_⟩
  rw [List.getElem?_set] at h₂
  split_ifs at h₂ with hi
  · subst hi
    rw [hj] at h₁
    cases h₁
    cases h₂
    exact hkeep s w hb
  · rw [h₁] at h₂
    cases h₂
    exact hb

section ClauseKeeps

variable {expressionReturnsSet : List TargetEntry → Bool} {lc : LockingClause}
  {pushedDown : Bool}

/-- One listed name keeps every lock. -/
theorem lockNamedRel_keepsLocks {qry qry' : Query} {thisrel : RangeVar}
    (h : lockNamedRel expressionReturnsSet lc pushedDown qry thisrel = .ok qry') :
    KeepsLocks qry qry' := by
  unfold lockNamedRel at h
  split_ifs at h
  split at h
  · cases h
  · rename_i i rte hfind
    obtain ⟨j, rfl, hj, -⟩ := findLockedRel_eq_some hfind
    rw [Nat.add_sub_cancel_left] at h
    split at h <;> rename_i hkind
    · cases h
      exact @keepsLocks_set _ _ _ { rte with requiredPerms := rte.requiredPerms ||| aclSelectForUpdate }
        hj rfl (fun _ _ hb => ⟨fun hk => hasSelectForUpdate_or (hb.1 hk) _, hb.2⟩) ⟨1 + j, _, _, _⟩
    · obtain ⟨sub', hsub, h⟩ := except_bind_eq_ok.mp h
      cases h
      exact @keepsLocks_set _ _ _ { rte with subquery := sub' } hj rfl (fun s w hb => ⟨hb.1, fun hk =>
        lockAllSubquery_keepsLocks hsub s w (hb.2 hk)⟩) ⟨1 + j, _, _, _⟩
    all_goals cases h

/-- The loop over the listed names keeps every lock. -/
theorem foldlM_lockNamedRel_keepsLocks : ∀ {names : List RangeVar} {qry qry' : Query},
    names.foldlM (lockNamedRel expressionReturnsSet lc pushedDown) qry = .ok qry' →
    KeepsLocks qry qry'
  | [], _, _, h => by cases h; exact .refl _
  | _ :: _, _, _, h => by
    rw [List.foldlM_cons] at h
    obtain ⟨_, h₁, h⟩ := except_bind_eq_ok.mp h
    exact (lockNamedRel_keepsLocks h₁).trans (foldlM_lockNamedRel_keepsLocks h)

/-- The loop over the listed names records no second row mark for an entry. -/
theorem foldlM_lockNamedRel_rowMarksUnique : ∀ {names : List RangeVar} {qry qry' : Query},
    names.foldlM (lockNamedRel expressionReturnsSet lc pushedDown) qry = .ok qry' →
    RowMarksUnique qry.rowMarks → RowMarksUnique qry'.rowMarks
  | [], _, _, h, hu => by cases h; exact hu
  | _ :: _, _, _, h, hu => by
    rw [List.foldlM_cons] at h
    obtain ⟨_, h₁, h⟩ := except_bind_eq_ok.mp h
    obtain ⟨_, _, _, -, -, -, -, rfl⟩ := lockNamedRel_cases h₁
    exact foldlM_lockNamedRel_rowMarksUnique h (recordRowMark_unique _ hu)

/-- **An accepted clause keeps every lock of its query**: a later FOR UPDATE/SHARE clause never
weakens what an earlier one locked. -/
theorem transformLockingClause_keepsLocks {qry qry' : Query}
    (h : transformLockingClause expressionReturnsSet lc pushedDown qry = .ok qry') :
    KeepsLocks qry qry' := by
  unfold transformLockingClause at h
  obtain ⟨_, -, h⟩ := except_bind_eq_ok.mp h
  split at h
  · obtain ⟨⟨_, _⟩, hwalk, h⟩ := except_bind_eq_ok.mp h
    cases h
    obtain ⟨hshape, rfl, -⟩ := lockAllEntries_locked hwalk
    exact ⟨hshape, fun _ _ _ hm => hm.mono_applyLockingClauses _,
      lockAllEntries_keepsLocks hwalk⟩
  · exact foldlM_lockNamedRel_keepsLocks h

/-- An accepted clause records no second row mark for an entry. -/
theorem transformLockingClause_rowMarksUnique {qry qry' : Query}
    (h : transformLockingClause expressionReturnsSet lc pushedDown qry = .ok qry')
    (hu : RowMarksUnique qry.rowMarks) : RowMarksUnique qry'.rowMarks := by
  unfold transformLockingClause at h
  obtain ⟨_, -, h⟩ := except_bind_eq_ok.mp h
  split at h
  · obtain ⟨⟨_, _⟩, hwalk, h⟩ := except_bind_eq_ok.mp h
    cases h
    obtain ⟨-, rfl, -⟩ := lockAllEntries_locked hwalk
    exact applyLockingClauses_unique qry _ hu
  · exact foldlM_lockNamedRel_rowMarksUnique h hu

end ClauseKeeps

/-- An entry locked before is locked still, at its index, under anything that keeps the locks. -/
theorem KeepsLocks.entryLocked {qry qry' : Query} (h : KeepsLocks qry qry') {strength : Nat}
    {noWait : Bool} {i : Nat} {rte : RangeTblEntry} (hi : qry.rtable[i]? = some rte)
    (hl : EntryLocked strength noWait qry (i + 1) rte) :
    ∃ rte', qry'.rtable[i]? = some rte' ∧ entryShape rte' = entryShape rte ∧
      EntryLocked strength noWait qry' (i + 1) rte' := by
  obtain ⟨rte', hi', hshape⟩ := exists_getElem?_of_map_entryShape h.shape.symm hi
  exact ⟨rte', hi', hshape, h.marks _ _ _ hl.1, h.entries _ _ i rte rte' hi hi' hl.2⟩

/-- The first entry with an alias stays the first under a range table of the same kinds and
aliases. -/
theorem FirstAlias.of_shape {rtable rtable' : List RangeTblEntry}
    (hshape : rtable'.map entryShape = rtable.map entryShape) {name : String} {i : Nat}
    {rte rte' : RangeTblEntry} (h : FirstAlias rtable name i rte) (hi : rtable'[i]? = some rte')
    (hs : entryShape rte' = entryShape rte) : FirstAlias rtable' name i rte' := by
  obtain ⟨-, halias, hfirst⟩ := h
  refine ⟨hi, (congrArg Prod.snd hs).trans halias, fun j hj rte'' hj' => ?_⟩
  obtain ⟨rte₀, hrte₀, hs₀⟩ := exists_getElem?_of_map_entryShape hshape hj'
  rw [← show rte₀.aliasname = rte''.aliasname from congrArg Prod.snd hs₀]
  exact hfirst j hj rte₀ hrte₀

/-- What an accepted clause `lc` makes of `qry` in `qry'`, as `transformLockingClause_accepted`
states it. -/
def ClauseLocked (lc : LockingClause) (qry qry' : Query) : Prop :=
  qry'.rtable.map entryShape = qry.rtable.map entryShape ∧
    (lc.lockedRels = [] →
      AllLocked lc.strength lc.noWait qry' ∧
      ∀ r, (∀ i rte, qry.rtable[i]? = some rte → rte.rtekind.isLockable → r ≠ i + 1) →
        getParseRowmark qry'.rowMarks r = getParseRowmark qry.rowMarks r) ∧
    (lc.lockedRels ≠ [] →
      (∀ thisrel ∈ lc.lockedRels, ∃ i rte, FirstAlias qry.rtable thisrel.relname i rte ∧
        rte.rtekind.isLockable ∧
        ∃ rte', qry'.rtable[i]? = some rte' ∧ EntryLocked lc.strength lc.noWait qry' (i + 1) rte') ∧
      ∀ r, (∀ thisrel ∈ lc.lockedRels, ∀ i rte, FirstAlias qry.rtable thisrel.relname i rte →
          r ≠ i + 1) →
        getParseRowmark qry'.rowMarks r = getParseRowmark qry.rowMarks r)

/-- **`transformLockingClause`** (analyze.c:2851-3001): every accepted clause locks the entries
it names, all of them or the first match of each name, and through sub-queries to any depth
(`ClauseLocked`); a listed name that matches no entry is never accepted, and is reported as
`UNDEFINED_TABLE` once the check and the names before it have passed and it is unqualified. -/
theorem transformLockingClause_locks (expressionReturnsSet : List TargetEntry → Bool)
    (lc : LockingClause) (pushedDown : Bool) (qry : Query) :
    (∀ qry', transformLockingClause expressionReturnsSet lc pushedDown qry = .ok qry' →
      ClauseLocked lc qry qry') ∧
    ∀ thisrel ∈ lc.lockedRels, (∀ rte ∈ qry.rtable, rte.aliasname ≠ thisrel.relname) →
      (∀ qry', transformLockingClause expressionReturnsSet lc pushedDown qry ≠ .ok qry') ∧
      ∀ pre post qry₁, lc.lockedRels = pre ++ thisrel :: post →
        checkSelectLocking expressionReturnsSet qry lc.strength = .ok () →
        pre.foldlM (lockNamedRel expressionReturnsSet lc pushedDown) qry = .ok qry₁ →
        thisrel.catalogname = none → thisrel.schemaname = none →
        transformLockingClause expressionReturnsSet lc pushedDown qry =
          .error (lockingRelationNotFoundError thisrel.relname lc.strength) :=
  ⟨fun _ h => transformLockingClause_accepted h, fun _ hmem hmiss =>
    ⟨(transformLockingClause_unmatched hmiss).1 hmem, (transformLockingClause_unmatched hmiss).2⟩⟩

/-- `FROM (SELECT ... FROM t) s`: a sub-query over one relation. -/
def subqueryQuery : Query :=
  { makeQuery with
    rtable := [⟨.subquery, 0, false,
      some { makeQuery with rtable := [⟨.relation, 16384, true, none, "t", [], 2, .inner, []⟩] },
      "s", [], 0, .inner, []⟩] }

/-- `FOR UPDATE` of it locks `s` and, below it, `t`; `FOR UPDATE OF missing` is
`UNDEFINED_TABLE`. -/
theorem transformLockingClause_locks_subquery :
    (∃ qry', transformLockingClause (fun _ => false) ⟨[], 3, false⟩ false subqueryQuery = .ok qry' ∧
      ClauseLocked ⟨[], 3, false⟩ subqueryQuery qry') ∧
    transformLockingClause (fun _ => false) ⟨[⟨none, none, "missing"⟩], 3, false⟩ false
      subqueryQuery = .error (lockingRelationNotFoundError "missing" 3) :=
  ⟨⟨_, rfl, (transformLockingClause_locks (fun _ => false) ⟨[], 3, false⟩ false subqueryQuery).1 _
      rfl⟩,
    ((transformLockingClause_locks (fun _ => false) ⟨[⟨none, none, "missing"⟩], 3, false⟩ false
      subqueryQuery).2 _ (List.mem_singleton_self _) (by decide)).2 [] [] _ rfl rfl rfl rfl rfl⟩

/-- `FROM a JOIN b ON ... AS j`: the join's entry follows those of its two relations. -/
def joinedQuery : Query :=
  { makeQuery with
    rtable := [⟨.relation, 16384, true, none, "a", [], 2, .inner, []⟩,
      ⟨.relation, 16385, true, none, "b", [], 2, .inner, []⟩,
      ⟨.join, 0, false, none, "j", [], 0, .inner, []⟩] }

/-- `FOR UPDATE OF j, missing` of it: `missing` matches no entry, and yet the error is the
join's `FEATURE_NOT_SUPPORTED`, raised for `j` before `missing` is looked up. -/
theorem transformLockingClause_join_before_missing :
    (∀ rte ∈ joinedQuery.rtable, rte.aliasname ≠ "missing") ∧
    transformLockingClause (fun _ => false) ⟨[⟨none, none, "j"⟩, ⟨none, none, "missing"⟩], 3, false⟩
      false joinedQuery = .error (lockingCannotApplyError 3 "a join") ∧
    (lockingCannotApplyError 3 "a join").sqlerrcode = .featureNotSupported :=
  ⟨by decide, rfl, rfl⟩

end AntdbAnalyze
