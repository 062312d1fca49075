import AntdbAnalyze.SetOp.Columns

/-!
# The members of a set-operation tree (analyze.c:1701-2035, 1556-1625)

`transformSetOperationTree` turns the statement's tree into the tree of `SetOperationStmt`
nodes that the planner walks (prepunion.c). Each member of the statement becomes one leaf,
and one sub-query entry of the range table. A member is a leaf, or an operation node that
carries ORDER BY, LIMIT, FOR UPDATE or WITH and so is analyzed as a query of its own. Every
other operation node becomes a node with the same operation, ALL flag and inputs.

- `SetOpShape`: the operations of a tree with its members as leaves. `SelectStmt.shape`
  reads it off the statement, `SetOpNode.shape` off the built tree;
- `SetOpNode.leafRTIs`: the range-table indexes of the built tree's leaves, left to right;
- `MembersEntered`: the leaves are the entries one call appended, numbered in order, each
  holding a sub-query;
- **`transformSetOperationStmt_members`**: the query of every set-operation statement has the
  statement's shape, and its range table holds one sub-query entry per member, in order, and
  nothing else.
-/

namespace AntdbAnalyze

variable {σ ρ : Type}

/-! ## Shapes -/

/-- The operations of a set-operation tree, with its members as leaves. -/
inductive SetOpShape where
  | member
  | node (op : SetOperation) (all : Bool) (larg rarg : SetOpShape)
deriving DecidableEq, Repr

/-- The number of members. -/
def SetOpShape.members : SetOpShape → Nat
  | .member => 1
  | .node _ _ larg rarg => larg.members + rarg.members

/-- The shape of a statement: an operation node with leaf clauses is one member. -/
def SelectStmt.shape : SelectStmt σ ρ → SetOpShape
  | .leaf _ _ => .member
  | .setOp op all larg rarg clauses =>
    if clauses.hasLeafClauses then .member else .node op all larg.shape rarg.shape

/-- The shape of a built tree. -/
def SetOpNode.shape : SetOpNode → SetOpShape
  | .rangeTblRef _ _ => .member
  | .setOperationStmt op all larg rarg _ _ _ _ => .node op all larg.shape rarg.shape

/-- The range-table indexes of the leaves, left to right. -/
def SetOpNode.leafRTIs : SetOpNode → List Nat
  | .rangeTblRef rtindex _ => [rtindex]
  | .setOperationStmt _ _ larg rarg _ _ _ _ => larg.leafRTIs ++ rarg.leafRTIs

/-- What one call of `transformSetOperationTree` enters, from the range table `rtable` it
started with: the range table extended by one entry per member and otherwise kept, the
leaves numbered in order over the new entries, each entry holding a sub-query. -/
structure MembersEntered (rtable : List RangeTblEntry) (pstate : ParseState) (node : SetOpNode) :
    Prop where
  rtable_extends : RtableExtends rtable pstate.p_rtable
  length_eq : pstate.p_rtable.length = rtable.length + node.shape.members
  leaves : node.leafRTIs = List.range' (rtable.length + 1) node.shape.members
  subquery : ∀ r ∈ node.leafRTIs, (subqueryJunkFlags pstate.p_rtable r).isSome

/-! ## One call -/

/-- A member is entered as one sub-query entry at the end of the range table. -/
theorem addSetOpLeaf_members {callees : SetOpCallees σ ρ} {pstate pstate' : ParseState}
    {selectQuery : Query} {node : SetOpNode} {targetlist : List TargetEntry}
    (h : addSetOpLeaf callees pstate selectQuery = .ok (pstate', node, targetlist)) :
    node.shape = .member ∧ MembersEntered pstate.p_rtable pstate' node := by
  unfold addSetOpLeaf at h
  split at h
  · cases h
  · cases h
    refine ⟨rfl, rtableExtends_append _ _, by simp [SetOpShape.members],
      by simp [SetOpNode.leafRTIs, SetOpNode.shape, SetOpShape.members, List.range'], ?_⟩
    simp [SetOpNode.leafRTIs, subqueryJunkFlags, rtFetch]

/-- Storing coerced expressions keeps the range table's length. -/
@[simp] theorem length_storeCoercedExprs (pstate : ParseState) (node : SetOpNode)
    (exprs : List Expr) :
    (storeCoercedExprs pstate node exprs).p_rtable.length = pstate.p_rtable.length := by
  cases node <;> simp [storeCoercedExprs]

/-- **One operation node**, given that its two inputs enter their members: it has their
shapes under its own operation, and its leaves are theirs, left before right. -/
theorem transformSetOpNode_members {callees : SetOpCallees σ ρ} {pstate : ParseState}
    {op : SetOperation} {all isTopLevel : Bool} {lshape rshape : SetOpShape}
    {transformLarg transformRarg :
      ParseState → Except ErrorData (ParseState × SetOpNode × List TargetEntry)}
    (hlarg : ∀ {ps ps' node tl}, transformLarg ps = .ok (ps', node, tl) →
      node.shape = lshape ∧ MembersEntered ps.p_rtable ps' node)
    (hrarg : ∀ {ps ps' node tl}, transformRarg ps = .ok (ps', node, tl) →
      node.shape = rshape ∧ MembersEntered ps.p_rtable ps' node)
    {pstate' : ParseState} {node : SetOpNode} {targetlist : List TargetEntry}
    (h : transformSetOpNode callees pstate op all isTopLevel transformLarg transformRarg =
      .ok (pstate', node, targetlist)) :
    node.shape = .node op all lshape rshape ∧ MembersEntered pstate.p_rtable pstate' node := by
  unfold transformSetOpNode at h
  obtain ⟨⟨ps₁, larg, ltargetlist⟩, hl, h⟩ := except_bind_eq_ok.mp h
  obtain ⟨ps₂, hcte, h⟩ := except_bind_eq_ok.mp h
  obtain ⟨⟨ps₃, rarg, rtargetlist⟩, hr, h⟩ := except_bind_eq_ok.mp h
  dsimp only at h
  split at h
  · cases h
  obtain ⟨_, -, h⟩ := except_bind_eq_ok.mp h
  obtain ⟨columns, -, h⟩ := except_bind_eq_ok.mp h
  cases h
  obtain ⟨hls, L⟩ := hlarg hl
  obtain ⟨hrs, R⟩ := hrarg hr
  have h₂ := recursiveColTypesAtTop_rtable hcte
  rw [h₂] at R
  -- the stores change no entry's flags, the right input only extends the range table
  have hstore : RtableExtends ps₃.p_rtable (storeCoercedExprs (storeCoercedExprs ps₃ larg
      (columns.map (·.lexpr))) rarg (columns.map (·.rexpr))).p_rtable := fun r _ => by simp
  refine ⟨by rw [SetOpNode.shape, hls, hrs], L.rtable_extends.trans (R.rtable_extends.trans hstore),
    ?_, ?_, fun r hr' => ?_⟩
  · simp only [length_storeCoercedExprs, R.length_eq, L.length_eq, SetOpNode.shape,
      SetOpShape.members]
    omega
  · rw [SetOpNode.leafRTIs, L.leaves, R.leaves, L.length_eq, SetOpNode.shape, SetOpShape.members,
      Nat.add_right_comm, List.range'_append_1, Nat.add_comm rarg.shape.members]
  · simp only [subqueryJunkFlags_storeCoercedExprs]
    rcases List.mem_append.mp hr' with hr' | hr'
    · rw [R.rtable_extends r (L.subquery r hr')]
      exact L.subquery r hr'
    · exact R.subquery r hr'

/-! ## The whole tree -/

/-- **Every tree `transformSetOperationTree` builds has the statement's shape**, over the
entries it appended for the members, by induction over the statement. -/
theorem transformSetOperationTree_members (callees : SetOpCallees σ ρ) :
    ∀ (stmt : SelectStmt σ ρ) {pstate pstate' : ParseState} {isTopLevel : Bool} {node : SetOpNode}
      {targetlist : List TargetEntry},
      transformSetOperationTree callees pstate stmt isTopLevel = .ok (pstate', node, targetlist) →
        node.shape = stmt.shape ∧ MembersEntered pstate.p_rtable pstate' node
  | .leaf body clauses, _, _, _, _, _, h => by
    obtain ⟨_, -, h⟩ := except_bind_eq_ok.mp h
    obtain ⟨_, -, h⟩ := except_bind_eq_ok.mp h
    exact addSetOpLeaf_members h
  | .setOp op all larg rarg clauses, _, _, _, _, _, h => by
    obtain ⟨_, -, h⟩ := except_bind_eq_ok.mp h
    dsimp only at h
    split at h
    · next hleaf =>
      obtain ⟨_, -, h⟩ := except_bind_eq_ok.mp h
      rw [SelectStmt.shape, if_pos hleaf]
      exact addSetOpLeaf_members h
    · next hleaf =>
      rw [SelectStmt.shape, if_neg hleaf]
      exact transformSetOpNode_members (transformSetOperationTree_members callees larg)
        (transformSetOperationTree_members callees rarg) h

/-- The outer query's range table is the tree's: the join entry ORDER BY is resolved against
is truncated away, with all `transformSortClause` appends, when it only appends. -/
theorem transformSetOperationStmtWith_rtable {callees : SetOpCallees σ ρ}
    (hsort : ∀ pstate sortClause targetList pstate' sortGroup targetList',
      callees.transformSortClause pstate sortClause targetList =
          .ok (pstate', sortGroup, targetList') → pstate.p_rtable <+: pstate'.p_rtable)
    {pstate : ParseState} {larg : SelectStmt σ ρ} {clauses : SelectClauses ρ}
    {transformTree : ParseState → Except ErrorData (ParseState × SetOpNode × List TargetEntry)}
    {query : Query}
    (h : transformSetOperationStmtWith callees pstate larg clauses transformTree = .ok query) :
    ∃ ps sostmt tl, transformTree pstate = .ok (ps, sostmt, tl) ∧
      query.setOperations = some sostmt ∧ query.rtable = ps.p_rtable := by
  unfold transformSetOperationStmtWith at h
  split at h
  · cases h
  obtain ⟨_, -, h⟩ := except_bind_eq_ok.mp h
  obtain ⟨_, -, h⟩ := except_bind_eq_ok.mp h
  obtain ⟨⟨ps₁, sostmt, tl⟩, htr, h⟩ := except_bind_eq_ok.mp h
  obtain ⟨_, -, h⟩ := except_bind_eq_ok.mp h
  obtain ⟨⟨ps₂, _, _⟩, hs, h⟩ := except_bind_eq_ok.mp h
  dsimp only at h
  split at h
  · cases h
  obtain ⟨_, -, h⟩ := except_bind_eq_ok.mp h
  obtain ⟨_, -, h⟩ := except_bind_eq_ok.mp h
  obtain ⟨_, -, h⟩ := except_bind_eq_ok.mp h
  cases h
  obtain ⟨extra, hextra⟩ := hsort _ _ _ _ _ _ hs
  simp only [addRangeTableEntryForJoin] at hextra
  refine ⟨ps₁, sostmt, tl, htr, rfl, ?_⟩
  dsimp only
  rw [← hextra, List.append_assoc, List.take_left]

/-- **The members of a set-operation statement.** When `transformSortClause` only appends to
the range table, the query `transformSetOperationStmt` returns for any tree of UNION,
INTERSECT and EXCEPT has the statement's operations with its members as leaves, and its
range table is the one it started with followed by one entry per member, in order, each
holding a sub-query and each the leaf of its member. -/
theorem transformSetOperationStmt_members {callees : SetOpCallees σ ρ}
    (hsort : ∀ pstate sortClause targetList pstate' sortGroup targetList',
      callees.transformSortClause pstate sortClause targetList =
          .ok (pstate', sortGroup, targetList') → pstate.p_rtable <+: pstate'.p_rtable)
    (pstate : ParseState) (op : SetOperation) (all : Bool) (larg rarg : SelectStmt σ ρ)
    (clauses : SelectClauses ρ) {query : Query}
    (h : transformSetOperationStmt callees pstate op all larg rarg clauses = .ok query) :
    ∃ sostmt, query.setOperations = some sostmt ∧
      sostmt.shape = .node op all larg.shape rarg.shape ∧
      query.rtable.length = pstate.p_rtable.length + sostmt.shape.members ∧
      sostmt.leafRTIs = List.range' (pstate.p_rtable.length + 1) sostmt.shape.members ∧
      ∀ r ∈ sostmt.leafRTIs, (subqueryJunkFlags query.rtable r).isSome := by
  obtain ⟨ps, sostmt, tl, htr, hset, hrt⟩ := transformSetOperationStmtWith_rtable hsort h
  obtain ⟨hshape, M⟩ := transformSetOperationTree_members callees _ htr
  simp only [SelectStmt.shape, hasLeafClauses_withoutTopLevel] at hshape
  rw [hrt]
  exact ⟨sostmt, hset, hshape, M.length_eq, M.leaves, M.subquery⟩

/-- `(SELECT 1 UNION ALL SELECT 2 LIMIT 1) INTERSECT SELECT 3`: the inner operation carries
LIMIT, so the query has two members, entries 1 and 2. -/
theorem transformSetOperationStmt_members_limit_inside :
    (∀ pstate sortClause targetList pstate' sortGroup targetList',
      literalCallees.transformSortClause pstate sortClause targetList =
          .ok (pstate', sortGroup, targetList') → pstate.p_rtable <+: pstate'.p_rtable) ∧
    ∃ query, transformSetOperationStmt literalCallees (makeParsestate .postgres) .intersect false
        (.setOp .union true (.leaf 1 noClauses) (.leaf 2 noClauses) { noClauses with limitCount := some () })
        (.leaf 3 noClauses) noClauses = .ok query ∧
      ∃ sostmt, query.setOperations = some sostmt ∧
        sostmt.shape = .node .intersect false
          (SelectStmt.shape (.setOp .union true (.leaf 1 noClauses) (.leaf 2 noClauses)
            { noClauses with limitCount := some () }))
          (SelectStmt.shape (σ := Int) (.leaf 3 noClauses)) ∧
        query.rtable.length = (makeParsestate .postgres).p_rtable.length + sostmt.shape.members ∧
        sostmt.leafRTIs = List.range' ((makeParsestate .postgres).p_rtable.length + 1)
          sostmt.shape.members ∧
        ∀ r ∈ sostmt.leafRTIs, (subqueryJunkFlags query.rtable r).isSome := by
  have hsort := literalCallees_wellBehaved.transformSortClause_appends
  refine ⟨fun _ _ _ _ _ _ h => (hsort _ _ _ _ _ _ h).1, _, rfl, ?_⟩
  exact transformSetOperationStmt_members (fun _ _ _ _ _ _ h => (hsort _ _ _ _ _ _ h).1)
    (makeParsestate .postgres) .intersect false
    (.setOp .union true (.leaf 1 noClauses) (.leaf 2 noClauses) { noClauses with limitCount := some () })
    (.leaf 3 noClauses) noClauses (by rfl)

end AntdbAnalyze
