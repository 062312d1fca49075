import AntdbAnalyze.Nodes

/-!
# Inheritance parents in a range table (analyze.c:2680-2763)

For `INSERT INTO child SELECT ... FROM parent` on a coordinator, the data nodes must see the
rows the statement inserts into a child of a table it reads, so `transformInsertStmt` sets
`has_to_save_cmd_id` when `is_relation_child(target_rte, selectQuery->rtable)` holds
(lines 711-726).

- `isRelChildOfRel`: `is_rel_child_of_rel`, a scan of `pg_inherits` for the parent's children.
- `isRelationChild`: `is_relation_child`, a walk over a range table and its sub-queries.
- `HasParentEntry`: an inheritance parent of the target is an entry of the range table, or
  of the range table of a sub-query entry reachable from it.

**`isRelationChild_sound`**: when the walk says yes there is such a parent, and
**`isRelationChild_iff_of_flat`**: over a range table without sub-query entries it says yes
exactly then. **`isRelationChild_stops_at_subquery`**: the loop returns the answer for the
first sub-query entry it meets, so a parent listed after it is never looked at.
-/

namespace AntdbAnalyze

/-- The catalog rows the check reads: `pg_inherits` as `(inhrelid, inhparent)` pairs, and
`pg_class.relhassubclass`, which `has_subclass` reads. The flag may stay set after a table's
last child is dropped, but a table with a child has it set. -/
structure InheritsCatalog where
  pgInherits : List (Oid × Oid)
  relhassubclass : Oid → Bool
  relhassubclass_of_mem : ∀ inhrelid inhparent, (inhrelid, inhparent) ∈ pgInherits →
    relhassubclass inhparent = true

/-- `is_rel_child_of_rel(child_rte, parent_rte)`: the parent entry allows inheritance, is a
relation, has a subclass (the fast path), and the scan of `pg_inherits` on `inhparent` finds
the child's OID. -/
def isRelChildOfRel (catalog : InheritsCatalog) (childRte parentRte : RangeTblEntry) : Bool :=
  parentRte.inh && decide (parentRte.rtekind = .relation) &&
    catalog.relhassubclass parentRte.relid &&
    (catalog.pgInherits.filter (·.2 = parentRte.relid)).any (·.1 = childRte.relid)

/-- The scan's answer does not depend on the fast path: a parent with a child has its flag set. -/
theorem isRelChildOfRel_iff (catalog : InheritsCatalog) (childRte parentRte : RangeTblEntry) :
    isRelChildOfRel catalog childRte parentRte = true ↔ parentRte.inh = true ∧
      parentRte.rtekind = .relation ∧ (childRte.relid, parentRte.relid) ∈ catalog.pgInherits := by
  simp only [isRelChildOfRel, Bool.and_eq_true, decide_eq_true_eq, List.any_filter,
    List.any_eq_true, Prod.exists]
  constructor
  · rintro ⟨⟨⟨hinh, hrel⟩, -⟩, _, _, hmem, rfl, rfl⟩
    exact ⟨hinh, hrel, hmem⟩
  · rintro ⟨hinh, hrel, hmem⟩
    exact ⟨⟨⟨hinh, hrel⟩, catalog.relhassubclass_of_mem _ _ hmem⟩, _, _, hmem, rfl, rfl⟩

mutual
/-- The `foreach` of `is_relation_child` over `rtable`: `true` at the first relation entry that
is a parent of the child, and at the first sub-query entry, the answer for its range table.
The recursive `is_relation_child` call repeats the checks on `child_rte` that its caller has
passed, and returns `false` on an empty range table as the loop does, so it is the loop. -/
def relationChildLoop (catalog : InheritsCatalog) (childRte : RangeTblEntry) :
    List RangeTblEntry → Bool
  | [] => false
  | rte@⟨rtekind, _, _, subquery, _, _, _, _, _⟩ :: rtable =>
    match rtekind with
    | .relation => isRelChildOfRel catalog childRte rte || relationChildLoop catalog childRte rtable
    | .subquery => relationChildSubquery catalog childRte subquery
    | _ => relationChildLoop catalog childRte rtable

/-- `is_relation_child(child_rte, rte->subquery->rtable)`; a sub-query entry always holds its
query, and `none` reads as an empty range table. -/
def relationChildSubquery (catalog : InheritsCatalog) (childRte : RangeTblEntry) :
    Option Query → Bool
  | none => false
  | some ⟨_, _, rtable, _, _, _, _, _, _, _, _, _, _, _, _, _⟩ => relationChildLoop catalog childRte rtable
end

/-- `is_relation_child(child_rte, rtable)`: only a relation can be a child. -/
def isRelationChild (catalog : InheritsCatalog) (childRte : RangeTblEntry)
    (rtable : List RangeTblEntry) : Bool :=
  decide (childRte.rtekind = .relation) && relationChildLoop catalog childRte rtable

/-- The PGXC step of `transformInsertStmt` for INSERT ... SELECT: a coordinator serving a client
saves the command id when the target is a child of a relation the SELECT reads. -/
def hasToSaveCmdId (catalog : InheritsCatalog) (onCoordinator : Bool) (targetRte : RangeTblEntry)
    (selectQuery : Query) : Bool :=
  onCoordinator && isRelationChild catalog targetRte selectQuery.rtable

/-! ## What the check is for -/

/-- An inheritance parent of `child` is an entry of `rtable`, or of the range table of a
sub-query entry reachable from it. -/
inductive HasParentEntry (catalog : InheritsCatalog) (child : RangeTblEntry) :
    List RangeTblEntry → Prop
  | parent {rte : RangeTblEntry} {rtable : List RangeTblEntry} : rte ∈ rtable →
      rte.rtekind = .relation → rte.inh = true → (child.relid, rte.relid) ∈ catalog.pgInherits →
      HasParentEntry catalog child rtable
  | subquery {rte : RangeTblEntry} {query : Query} {rtable : List RangeTblEntry} : rte ∈ rtable →
      rte.rtekind = .subquery → rte.subquery = some query →
      HasParentEntry catalog child query.rtable → HasParentEntry catalog child rtable

/-- A parent found in a range table is found in any range table holding its entries. -/
theorem HasParentEntry.mono {catalog : InheritsCatalog} {child : RangeTblEntry}
    {rtable rtable' : List RangeTblEntry} (hsub : rtable ⊆ rtable') :
    HasParentEntry catalog child rtable → HasParentEntry catalog child rtable'
  | .parent hmem hrel hinh hpar => .parent (hsub hmem) hrel hinh hpar
  | .subquery hmem hkind hquery h => .subquery (hsub hmem) hkind hquery h

section Walk

variable (catalog : InheritsCatalog) (child : RangeTblEntry)

mutual
/-- The loop says yes only for a parent in the range table or below a sub-query entry. -/
theorem hasParentEntry_of_relationChildLoop : ∀ {rtable : List RangeTblEntry},
    relationChildLoop catalog child rtable = true → HasParentEntry catalog child rtable
  | [], h => by simp [relationChildLoop] at h
  | ⟨rtekind, relid, inh, subquery, aliasname, colnames, requiredPerms, jointype,
      joinaliasvars⟩ :: rtable, h => by
    have hrest : relationChildLoop catalog child rtable = true →
        HasParentEntry catalog child (⟨rtekind, relid, inh, subquery, aliasname, colnames,
          requiredPerms, jointype, joinaliasvars⟩ :: rtable) := fun h =>
      (hasParentEntry_of_relationChildLoop h).mono (List.subset_cons_self _ _)
    cases rtekind <;> simp only [relationChildLoop] at h
    case relation =>
      rcases Bool.or_eq_true_iff.mp h with h | h
      · obtain ⟨hinh, hrel, hmem⟩ := (isRelChildOfRel_iff catalog child _).mp h
        exact .parent (List.mem_cons_self _ _) hrel hinh hmem
      · exact hrest h
    case subquery =>
      obtain ⟨query, hquery, hparent⟩ := hasParentEntry_of_relationChildSubquery h
      exact .subquery (List.mem_cons_self _ _) rfl hquery hparent
    all_goals exact hrest h

/-- A sub-query entry says yes only for a parent in its query's range table. -/
theorem hasParentEntry_of_relationChildSubquery : ∀ {subquery : Option Query},
    relationChildSubquery catalog child subquery = true →
    ∃ query, subquery = some query ∧ HasParentEntry catalog child query.rtable
  | none, h => by simp [relationChildSubquery] at h
  | some ⟨_, _, _, _, _, _, _, _, _, _, _, _, _, _, _, _⟩, h => by
    rw [relationChildSubquery] at h
    exact ⟨_, rfl, hasParentEntry_of_relationChildLoop h⟩
end

/-- **The check is sound**: `is_relation_child` says yes only for a relation with an
inheritance parent in the range table or in one reachable through sub-query entries. -/
theorem isRelationChild_sound {rtable : List RangeTblEntry}
    (h : isRelationChild catalog child rtable = true) :
    child.rtekind = .relation ∧ HasParentEntry catalog child rtable := by
  rw [isRelationChild, Bool.and_eq_true, decide_eq_true_eq] at h
  exact ⟨h.1, hasParentEntry_of_relationChildLoop catalog child h.2⟩

/-- Over entries that are not sub-queries the loop looks at every relation entry. -/
theorem relationChildLoop_of_flat : ∀ {rtable : List RangeTblEntry},
    (∀ rte ∈ rtable, rte.rtekind ≠ .subquery) →
    relationChildLoop catalog child rtable = rtable.any (isRelChildOfRel catalog child)
  | [], _ => by simp [relationChildLoop]
  | ⟨rtekind, _, _, _, _, _, _, _, _⟩ :: rtable, hflat => by
    have ih := relationChildLoop_of_flat fun rte h => hflat rte (List.mem_cons_of_mem _ h)
    have hkind := hflat _ (List.mem_cons_self _ _)
    cases rtekind <;> simp_all [relationChildLoop, isRelChildOfRel]

/-- **Over a range table without sub-query entries the check is exact.** -/
theorem isRelationChild_iff_of_flat {rtable : List RangeTblEntry}
    (hflat : ∀ rte ∈ rtable, rte.rtekind ≠ .subquery) :
    isRelationChild catalog child rtable = true ↔
      child.rtekind = .relation ∧ HasParentEntry catalog child rtable := by
  refine ⟨isRelationChild_sound catalog child, fun ⟨hchild, hparent⟩ => ?_⟩
  rw [isRelationChild, relationChildLoop_of_flat catalog child hflat, Bool.and_eq_true,
    decide_eq_true_eq, List.any_eq_true]
  refine ⟨hchild, ?_⟩
  cases hparent with
  | parent hmem hrel hinh hpar => exact ⟨_, hmem, (isRelChildOfRel_iff catalog child _).mpr ⟨hinh, hrel, hpar⟩⟩
  | subquery hmem hkind => exact absurd hkind (hflat _ hmem)

/-- **The loop stops at the first sub-query entry.** For a relation whose inheritance parent
follows a sub-query entry with no parent below it, the claim's reading finds the parent, and
`is_relation_child` answers no. -/
theorem isRelationChild_stops_at_subquery {sub parent : RangeTblEntry} {query : Query}
    {rtable : List RangeTblEntry} (hchild : child.rtekind = .relation)
    (hsub : sub.rtekind = .subquery) (hquery : sub.subquery = some query)
    (hnone : ¬HasParentEntry catalog child query.rtable) (hparent : parent ∈ rtable)
    (hrel : parent.rtekind = .relation) (hinh : parent.inh = true)
    (hmem : (child.relid, parent.relid) ∈ catalog.pgInherits) :
    (child.rtekind = .relation ∧ HasParentEntry catalog child (sub :: rtable)) ∧
      isRelationChild catalog child (sub :: rtable) = false := by
  refine ⟨⟨hchild, .parent (List.mem_cons_of_mem _ hparent) hrel hinh hmem⟩, ?_⟩
  obtain ⟨rtekind, _, _, subquery, _, _, _, _, _⟩ := sub
  cases hsub
  cases hquery
  rw [isRelationChild, Bool.and_eq_false_iff]
  right
  rw [Bool.eq_false_iff]
  intro h
  simp only [relationChildLoop] at h
  obtain ⟨_, hquery, hparent⟩ := hasParentEntry_of_relationChildSubquery catalog child h
  cases hquery
  exact hnone hparent
end Walk

/-- `pg_inherits` with table 16385 inheriting from table 16384. -/
def childOfParentCatalog : InheritsCatalog where
  pgInherits := [(16385, 16384)]
  relhassubclass oid := decide (oid = 16384)
  relhassubclass_of_mem := by simp

/-- `INSERT INTO child SELECT ... FROM (SELECT 1) s, parent`, with `child` (16385) inheriting
from `parent` (16384): the SELECT reads the parent, and no command id is saved. -/
theorem isRelationChild_stops_at_subquery_insert_select :
    ((⟨.relation, 16385, false, none, "child", [], 0, .inner, []⟩ : RangeTblEntry).rtekind =
        .relation ∧
      HasParentEntry childOfParentCatalog ⟨.relation, 16385, false, none, "child", [], 0, .inner, []⟩
        [⟨.subquery, 0, false, some makeQuery, "s", [], 0, .inner, []⟩,
          ⟨.relation, 16384, true, none, "parent", [], 2, .inner, []⟩]) ∧
    isRelationChild childOfParentCatalog ⟨.relation, 16385, false, none, "child", [], 0, .inner, []⟩
        [⟨.subquery, 0, false, some makeQuery, "s", [], 0, .inner, []⟩,
          ⟨.relation, 16384, true, none, "parent", [], 2, .inner, []⟩] = false :=
  isRelationChild_stops_at_subquery childOfParentCatalog _ rfl rfl rfl
    (fun h => by cases h <;> simp_all [makeQuery]) (List.mem_singleton_self _) rfl rfl
    (List.mem_singleton_self _)

/-- The coordinator does not save the command id for that statement. -/
example : hasToSaveCmdId childOfParentCatalog true
    ⟨.relation, 16385, false, none, "child", [], 0, .inner, []⟩
    { makeQuery with rtable := [⟨.subquery, 0, false, some makeQuery, "s", [], 0, .inner, []⟩,
      ⟨.relation, 16384, true, none, "parent", [], 2, .inner, []⟩] } = false := by
  simp [hasToSaveCmdId, isRelationChild, relationChildLoop, relationChildSubquery, makeQuery]

end AntdbAnalyze
