import AntdbAnalyze.SetOp.Columns

/-!
# The set-operation recursion terminates (analyze.c:247-263, 315-345, 1495-1547, 1701-1780)

`transformSetOperationTree` analyzes an operation node that carries ORDER BY, LIMIT,
FOR UPDATE or WITH as a leaf: it calls `parse_sub_analyze` on the node itself, which goes
through `transformStmt` back to `transformSetOperationStmt` on the same node. That call
terminates only because `transformSetOperationStmt` first clears those clauses in place, so
the node comes back to `transformSetOperationTree` as an internal node. The model of
`SetOp.Tree` builds this hand-off into a recursion over the tree; this module models the
four functions as the source calls them, with the budget of nested calls that
`check_stack_depth` guards, and proves that a budget fixed by the tree is always enough.

- `transformStmtWithin`, `transformSetOperationStmtWithin`,
  `transformSetOperationTreeWithin`, `parseSubAnalyzeWithin`: the mutual recursion of the
  source within a stack budget, failing with `stackDepthError` when it runs out;
- `SelectStmt.treeCallDepth`: the nested `transformSetOperationTree` calls a tree needs,
  at most two per level (`treeCallDepth_le_height`);
- **`transformStmt_terminates`**: from a budget of `treeCallDepth` on, the source's
  recursion returns what the structural model returns, for every tree;
- `AgreesUpToStackDepth`: the same result, or the stack-depth error; **`transformStmtWithin_agrees`**
  and **`transformStmtWithin_mono`**: every budget agrees so with the structural model, and
  with every larger budget, proved once per function of the mutual block (`_agrees_succ`).
-/

namespace AntdbAnalyze

variable {σ ρ : Type}

/-- Modelled from the spec: `check_stack_depth` (tcop/postgres.c, not under src/) guards the
set-operation recursion against deep nesting (§5) and raises `stack depth limit exceeded`. -/
def stackDepthError : ErrorData :=
  ⟨.statementTooComplex, "stack depth limit exceeded"⟩

/-! ## The recursion as the source makes it -/

mutual
/-- `transformStmt(pstate, parseTree)` on a `SelectStmt`, within a budget of `depth` nested
`transformSetOperationTree` calls: a leaf is a plain SELECT or a VALUES list, analyzed by
the callee; an operation node goes to `transformSetOperationStmt`. -/
def transformStmtWithin (callees : SetOpCallees σ ρ) (depth : Nat) (pstate : ParseState) :
    SelectStmt σ ρ → Except ErrorData Query
  | .leaf body clauses => callees.transformSelect body clauses
  | .setOp op all larg rarg clauses =>
    transformSetOperationStmtWithin callees depth pstate op all larg rarg clauses
termination_by (depth, 2)

/-- `transformSetOperationStmt(pstate, stmt)`: the top-level clauses are moved out of the
node before it goes to `transformSetOperationTree`. -/
def transformSetOperationStmtWithin (callees : SetOpCallees σ ρ) (depth : Nat)
    (pstate : ParseState) (op : SetOperation) (all : Bool) (larg rarg : SelectStmt σ ρ)
    (clauses : SelectClauses ρ) : Except ErrorData Query :=
  transformSetOperationStmtWith callees pstate larg clauses
    (transformSetOperationTreeWithin callees depth · (.setOp op all larg rarg clauses.withoutTopLevel)
      true)
termination_by (depth, 1)

/-- `transformSetOperationTree(pstate, stmt, isTopLevel, &targetlist)`, starting with
`check_stack_depth`: a leaf, and an operation node with leaf clauses, go through
`parse_sub_analyze`; any other operation node recurses into its inputs. -/
def transformSetOperationTreeWithin (callees : SetOpCallees σ ρ) :
    Nat → ParseState → SelectStmt σ ρ → Bool →
      Except ErrorData (ParseState × SetOpNode × List TargetEntry)
  | 0, _, _, _ => .error stackDepthError
  | depth + 1, pstate, .leaf body clauses, _ => do
    checkSetOpMember clauses
    addSetOpLeaf callees pstate (← parseSubAnalyzeWithin callees depth pstate (.leaf body clauses))
  | depth + 1, pstate, .setOp op all larg rarg clauses, isTopLevel => do
    checkSetOpMember clauses
    if clauses.hasLeafClauses then
      addSetOpLeaf callees pstate
        (← parseSubAnalyzeWithin callees depth pstate (.setOp op all larg rarg clauses))
    else
      transformSetOpNode callees pstate op all isTopLevel
        (transformSetOperationTreeWithin callees depth · larg false)
        (transformSetOperationTreeWithin callees depth · rarg false)
termination_by depth => (depth, 0)

/-- `parse_sub_analyze(stmt, pstate, NULL, false)`: `transformStmt` in a child parse state. -/
def parseSubAnalyzeWithin (callees : SetOpCallees σ ρ) (depth : Nat) (pstate : ParseState)
    (stmt : SelectStmt σ ρ) : Except ErrorData Query :=
  transformStmtWithin callees depth (subParseState pstate) stmt
termination_by (depth, 3)
end

/-- `transformStmt(pstate, parseTree)` on a `SelectStmt`, over the structural model of the
set-operation code. -/
def transformStmt (callees : SetOpCallees σ ρ) (pstate : ParseState) :
    SelectStmt σ ρ → Except ErrorData Query
  | .leaf body clauses => callees.transformSelect body clauses
  | .setOp op all larg rarg clauses => transformSetOperationStmt callees pstate op all larg rarg clauses

/-! ## The budget a tree needs -/

/-- The height of a set-operation tree: `0` for a leaf. -/
def SelectStmt.height : SelectStmt σ ρ → Nat
  | .leaf _ _ => 0
  | .setOp _ _ larg rarg _ => max larg.height rarg.height + 1

/-- The nested `transformSetOperationTree` calls the analysis of a tree makes at most: one
per node on the way down, and a second for an operation node with leaf clauses, which
`transformSetOperationStmt` re-enters stripped of them. -/
def SelectStmt.treeCallDepth : SelectStmt σ ρ → Nat
  | .leaf _ _ => 1
  | .setOp _ _ larg rarg clauses =>
    max larg.treeCallDepth rarg.treeCallDepth + if clauses.hasLeafClauses then 2 else 1

/-- Every tree takes at least one call. -/
theorem SelectStmt.treeCallDepth_pos : ∀ stmt : SelectStmt σ ρ, 0 < stmt.treeCallDepth
  | .leaf _ _ => Nat.one_pos
  | .setOp _ _ _ _ _ => by
    simp only [treeCallDepth]
    split <;> omega

/-- A node is re-entered at most once: the calls nest at most two deep per level. -/
theorem treeCallDepth_le_height : ∀ stmt : SelectStmt σ ρ,
    stmt.treeCallDepth ≤ 2 * stmt.height + 1
  | .leaf _ _ => le_refl _
  | .setOp _ _ larg rarg clauses => by
    have hl := treeCallDepth_le_height larg
    have hr := treeCallDepth_le_height rarg
    simp only [SelectStmt.treeCallDepth, SelectStmt.height]
    split <;> omega

/-! ## A budget of `treeCallDepth` is enough -/

section Budget

variable (callees : SetOpCallees σ ρ)

/-- An operation node without leaf clauses, within a budget one above its inputs', is
analyzed as the structural model does once its inputs are. -/
theorem transformSetOperationTreeWithin_setOp {op : SetOperation} {all : Bool}
    {larg rarg : SelectStmt σ ρ} {clauses : SelectClauses ρ} (hclauses : clauses.hasLeafClauses = false)
    {depth : Nat}
    (hl : ∀ pstate isTopLevel, transformSetOperationTreeWithin callees depth pstate larg isTopLevel =
      transformSetOperationTree callees pstate larg isTopLevel)
    (hr : ∀ pstate isTopLevel, transformSetOperationTreeWithin callees depth pstate rarg isTopLevel =
      transformSetOperationTree callees pstate rarg isTopLevel)
    (pstate : ParseState) (isTopLevel : Bool) :
    transformSetOperationTreeWithin callees (depth + 1) pstate (.setOp op all larg rarg clauses)
        isTopLevel =
      transformSetOperationTree callees pstate (.setOp op all larg rarg clauses) isTopLevel := by
  rw [transformSetOperationTreeWithin, transformSetOperationTree]
  simp only [hclauses, Bool.false_eq_true, if_false, funext (hl · false), funext (hr · false)]

/-- **The source's recursion, within a budget of `treeCallDepth` or more, is the structural
model.** By induction on the tree: a leaf takes one call; an operation node without leaf
clauses one more than its inputs; one with leaf clauses two more, the second for its
re-entry through `transformSetOperationStmt`, which has stripped the clauses. -/
theorem transformSetOperationTreeWithin_eq : ∀ (stmt : SelectStmt σ ρ) (depth : Nat),
    stmt.treeCallDepth ≤ depth → ∀ pstate isTopLevel,
      transformSetOperationTreeWithin callees depth pstate stmt isTopLevel =
        transformSetOperationTree callees pstate stmt isTopLevel
  | stmt, 0, hdepth, _, _ => absurd hdepth (Nat.not_le_of_lt stmt.treeCallDepth_pos)
  | .leaf body clauses, depth + 1, _, pstate, isTopLevel => by
    rw [transformSetOperationTreeWithin, parseSubAnalyzeWithin, transformStmtWithin]
    rfl
  | .setOp op all larg rarg clauses, depth + 1, hdepth, pstate, isTopLevel => by
    simp only [SelectStmt.treeCallDepth] at hdepth
    cases hclauses : clauses.hasLeafClauses
    · -- an internal node
      rw [hclauses, if_neg Bool.false_ne_true] at hdepth
      exact transformSetOperationTreeWithin_setOp callees hclauses
        (transformSetOperationTreeWithin_eq larg depth (by omega))
        (transformSetOperationTreeWithin_eq rarg depth (by omega)) pstate isTopLevel
    · -- a leaf: re-entered once, stripped, as an internal node
      rw [hclauses, if_pos rfl] at hdepth
      obtain ⟨depth, rfl⟩ : ∃ d, depth = d + 1 := ⟨depth - 1, by omega⟩
      rw [transformSetOperationTreeWithin, transformSetOperationTree_leafClauses callees pstate op all
        larg rarg clauses isTopLevel hclauses]
      simp only [hclauses, if_true, parseSubAnalyzeWithin, transformStmtWithin,
        transformSetOperationStmtWithin, transformSetOperationStmt,
        funext (transformSetOperationTreeWithin_setOp callees (hasLeafClauses_withoutTopLevel clauses)
          (transformSetOperationTreeWithin_eq larg depth (by omega))
          (transformSetOperationTreeWithin_eq rarg depth (by omega)) · true)]

end Budget

/-! ## The recursion terminates -/

/-- **The recursion `transformStmt` → `transformSetOperationStmt` →
`transformSetOperationTree` → `parse_sub_analyze` → `transformStmt` terminates** on every
tree, taking the analysis of a plain leaf as terminating. The budget `treeCallDepth` it
needs is at most two nested `transformSetOperationTree` calls per level of the tree, since
a node is re-entered at most once, stripped of its leaf clauses; from that budget on,
`transformStmt` and `transformSetOperationTree` return what the structural model
returns. -/
theorem transformStmt_terminates (callees : SetOpCallees σ ρ) (stmt : SelectStmt σ ρ) :
    stmt.treeCallDepth ≤ 2 * stmt.height + 1 ∧
      ∀ depth, stmt.treeCallDepth ≤ depth → ∀ pstate,
        transformStmtWithin callees depth pstate stmt = transformStmt callees pstate stmt ∧
        ∀ isTopLevel, transformSetOperationTreeWithin callees depth pstate stmt isTopLevel =
          transformSetOperationTree callees pstate stmt isTopLevel := by
  refine ⟨treeCallDepth_le_height stmt, fun depth hdepth pstate =>
    ⟨?_, transformSetOperationTreeWithin_eq callees stmt depth hdepth pstate⟩⟩
  cases stmt with
  | leaf => rw [transformStmtWithin, transformStmt]
  | setOp op all larg rarg clauses =>
    -- the stripped node `transformSetOperationStmt` hands on needs no more than the node
    have hstripped :
        (SelectStmt.setOp op all larg rarg clauses.withoutTopLevel).treeCallDepth ≤ depth := by
      simp only [SelectStmt.treeCallDepth, hasLeafClauses_withoutTopLevel, Bool.false_eq_true,
        if_false] at hdepth ⊢
      split at hdepth <;> omega
    rw [transformStmtWithin, transformSetOperationStmtWithin, transformStmt,
      transformSetOperationStmt]
    simp only [funext (transformSetOperationTreeWithin_eq callees _ depth hstripped · true)]

/-- `(SELECT 1 UNION ALL SELECT 2 LIMIT 1) INTERSECT SELECT 3`. -/
def unionLimitIntersect : SelectStmt Int Unit :=
  .setOp .intersect false
    (.setOp .union true (.leaf 1 noClauses) (.leaf 2 noClauses) { noClauses with limitCount := some () })
    (.leaf 3 noClauses) noClauses

/-- `(SELECT 1 UNION ALL SELECT 2 LIMIT 1) INTERSECT SELECT 3`: the inner operation is
analyzed as a leaf and re-entered once, so four nested calls are enough, and the analysis
returns a query. -/
theorem transformStmt_terminates_limit_inside :
    unionLimitIntersect.treeCallDepth = 4 ∧
      ∃ query, transformStmtWithin literalCallees 4 (makeParsestate .postgres) unionLimitIntersect =
        .ok query :=
  ⟨rfl, _, ((transformStmt_terminates literalCallees unionLimitIntersect).2 4 (by decide)
    (makeParsestate .postgres)).1.trans rfl⟩

/-- One call fewer and `check_stack_depth` stops the re-entered inner operation's inputs. -/
example : transformStmtWithin literalCallees 3 (makeParsestate .postgres) unionLimitIntersect =
    .error stackDepthError := by
  simp [unionLimitIntersect, transformStmtWithin, transformSetOperationStmtWithin,
    transformSetOperationTreeWithin, parseSubAnalyzeWithin, transformSetOperationStmtWith,
    transformSetOpNode, noClauses, SelectStmt.leftmostClauses, SelectClauses.hasLeafClauses,
    SelectClauses.withoutTopLevel, checkNoLockingClause, checkSetOpMember, ok_bind_eq, error_bind_eq]

/-! ## Any budget: the structural result, or the stack-depth error -/

/-- `x` is `y`, or `check_stack_depth` stopped the computation first. -/
def AgreesUpToStackDepth {α : Type} (x y : Except ErrorData α) : Prop :=
  x = y ∨ x = .error stackDepthError

namespace AgreesUpToStackDepth

variable {α β : Type} {x y z : Except ErrorData α}

theorem refl (x : Except ErrorData α) : AgreesUpToStackDepth x x :=
  .inl rfl

theorem stop (y : Except ErrorData α) : AgreesUpToStackDepth (.error stackDepthError) y :=
  .inr rfl

theorem trans (h₁ : AgreesUpToStackDepth x y) (h₂ : AgreesUpToStackDepth y z) :
    AgreesUpToStackDepth x z := by
  rcases h₁ with rfl | rfl
  · exact h₂
  · exact stop z

/-- Agreement goes through a bind: a stop on the left stops the whole computation. -/
theorem bind {f g : α → Except ErrorData β} (hx : AgreesUpToStackDepth x y)
    (hf : ∀ a, AgreesUpToStackDepth (f a) (g a)) : AgreesUpToStackDepth (x >>= f) (y >>= g) := by
  rcases hx with rfl | rfl
  · cases x with
    | error e => exact refl _
    | ok a => exact hf a
  · exact stop _

end AgreesUpToStackDepth

open AgreesUpToStackDepth

section Agreement

variable (callees : SetOpCallees σ ρ)

/-- An operation node agrees when its two recursive calls do. -/
theorem transformSetOpNode_agrees {pstate : ParseState} {op : SetOperation} {all isTopLevel : Bool}
    {f f' g g' : ParseState → Except ErrorData (ParseState × SetOpNode × List TargetEntry)}
    (hf : ∀ p, AgreesUpToStackDepth (f p) (f' p)) (hg : ∀ p, AgreesUpToStackDepth (g p) (g' p)) :
    AgreesUpToStackDepth (transformSetOpNode callees pstate op all isTopLevel f g)
      (transformSetOpNode callees pstate op all isTopLevel f' g') :=
  (hf pstate).bind fun ⟨_, _, _⟩ => (refl _).bind fun _ => (hg _).bind fun ⟨_, _, _⟩ => refl _

/-- `transformSetOperationStmt` agrees when its call of `transformSetOperationTree` does. -/
theorem transformSetOperationStmtWith_agrees {pstate : ParseState} {larg : SelectStmt σ ρ}
    {clauses : SelectClauses ρ}
    {t t' : ParseState → Except ErrorData (ParseState × SetOpNode × List TargetEntry)}
    (ht : ∀ p, AgreesUpToStackDepth (t p) (t' p)) :
    AgreesUpToStackDepth (transformSetOperationStmtWith callees pstate larg clauses t)
      (transformSetOperationStmtWith callees pstate larg clauses t') := by
  unfold transformSetOperationStmtWith
  dsimp only
  split
  · exact refl _
  · exact (refl _).bind fun _ => (refl _).bind fun _ => (ht _).bind fun _ => refl _

/-- **Step**: one more nested call allowed changes no result but the stack-depth error. By
induction on the budget, following the branches of `transformSetOperationTree`. -/
theorem transformSetOperationTreeWithin_agrees_succ (depth : Nat) :
    ∀ (stmt : SelectStmt σ ρ) pstate isTopLevel,
      AgreesUpToStackDepth (transformSetOperationTreeWithin callees depth pstate stmt isTopLevel)
        (transformSetOperationTreeWithin callees (depth + 1) pstate stmt isTopLevel) := by
  induction depth with
  | zero => intro _ _ _; rw [transformSetOperationTreeWithin]; exact stop _
  | succ depth ih =>
    intro stmt pstate isTopLevel
    cases stmt with
    | leaf body clauses =>
      rw [transformSetOperationTreeWithin, transformSetOperationTreeWithin]
      simp only [parseSubAnalyzeWithin, transformStmtWithin]
      exact refl _
    | setOp op all larg rarg clauses =>
      rw [transformSetOperationTreeWithin, transformSetOperationTreeWithin]
      refine (refl _).bind fun _ => ?_
      split
      · -- leaf clauses: the re-entry through `transformSetOperationStmt`
        simp only [parseSubAnalyzeWithin, transformStmtWithin, transformSetOperationStmtWithin]
        exact (transformSetOperationStmtWith_agrees callees (ih _ · true)).bind fun _ => refl _
      · exact transformSetOpNode_agrees callees (ih larg · false) (ih rarg · false)

/-- **Run**: any larger budget. -/
theorem transformSetOperationTreeWithin_agrees_of_le {depth depth' : Nat} (h : depth ≤ depth')
    (stmt : SelectStmt σ ρ) (pstate : ParseState) (isTopLevel : Bool) :
    AgreesUpToStackDepth (transformSetOperationTreeWithin callees depth pstate stmt isTopLevel)
      (transformSetOperationTreeWithin callees depth' pstate stmt isTopLevel) := by
  induction h with
  | refl => exact refl _
  | step _ ih =>
    exact ih.trans (transformSetOperationTreeWithin_agrees_succ callees _ stmt pstate isTopLevel)

/-- Any budget agrees with the structural model: raise it to `treeCallDepth`, where the two
are equal. -/
theorem transformSetOperationTreeWithin_agrees (depth : Nat) (stmt : SelectStmt σ ρ)
    (pstate : ParseState) (isTopLevel : Bool) :
    AgreesUpToStackDepth (transformSetOperationTreeWithin callees depth pstate stmt isTopLevel)
      (transformSetOperationTree callees pstate stmt isTopLevel) := by
  have h := transformSetOperationTreeWithin_agrees_of_le callees
    (le_max_left depth stmt.treeCallDepth) stmt pstate isTopLevel
  rwa [transformSetOperationTreeWithin_eq callees stmt _ (le_max_right _ _)] at h

end Agreement

/-- **`check_stack_depth` changes no result.** Within any stack budget, the source's recursion
returns what the structural model returns, or fails with `stack depth limit exceeded`: never
another error, nor another query. -/
theorem transformStmtWithin_agrees (callees : SetOpCallees σ ρ) (depth : Nat)
    (pstate : ParseState) (stmt : SelectStmt σ ρ) :
    AgreesUpToStackDepth (transformStmtWithin callees depth pstate stmt)
      (transformStmt callees pstate stmt) := by
  cases stmt with
  | leaf => rw [transformStmtWithin, transformStmt]; exact refl _
  | setOp op all larg rarg clauses =>
    rw [transformStmtWithin, transformSetOperationStmtWithin, transformStmt,
      transformSetOperationStmt]
    exact transformSetOperationStmtWith_agrees callees
      (transformSetOperationTreeWithin_agrees callees depth _ · true)

/-- **A larger stack budget only lets more statements through.** Whatever a budget returns
other than `stack depth limit exceeded`, every larger budget returns too. -/
theorem transformStmtWithin_mono (callees : SetOpCallees σ ρ) {depth depth' : Nat}
    (h : depth ≤ depth') (pstate : ParseState) (stmt : SelectStmt σ ρ) :
    AgreesUpToStackDepth (transformStmtWithin callees depth pstate stmt)
      (transformStmtWithin callees depth' pstate stmt) := by
  cases stmt with
  | leaf => rw [transformStmtWithin, transformStmtWithin]; exact refl _
  | setOp op all larg rarg clauses =>
    rw [transformStmtWithin, transformSetOperationStmtWithin, transformStmtWithin,
      transformSetOperationStmtWithin]
    exact transformSetOperationStmtWith_agrees callees
      (transformSetOperationTreeWithin_agrees_of_le callees h _ · true)

/-- The statement of `transformStmt_terminates_limit_inside` within three nested calls, which
stops, agrees with it within four. -/
theorem transformStmtWithin_mono_limit_inside :
    3 ≤ 4 ∧ AgreesUpToStackDepth
      (transformStmtWithin literalCallees 3 (makeParsestate .postgres) unionLimitIntersect)
      (transformStmtWithin literalCallees 4 (makeParsestate .postgres) unionLimitIntersect) :=
  ⟨by decide, transformStmtWithin_mono literalCallees (by decide) _ _⟩

end AntdbAnalyze
