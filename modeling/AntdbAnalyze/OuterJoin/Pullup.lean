import AntdbAnalyze.OuterJoin.Classify

/-!
# Pulling the tables of a join conjunct together (analyze.c:3159-3309)

`pullup_rel_for_join` places one classified conjunct into the FROM tree. It walks the
tree top-down looking for the two `RangeTblRef`s the conjunct names:

- when both lie in one explicit `JoinExpr`, on different sides, the conjunct is ANDed
  into that join's ON (the *fuse* branch), after a check that only refuses a `JOIN_LEFT`
  conjunct meeting an inner or full join;
- when they lie in different items of a `FromExpr`, both items are deleted from its list
  and a new `JoinExpr` of the conjunct's type, with the conjunct as ON, is appended;
- a `JoinExpr` holding just one of them hands itself up in its place (the *release*
  step), so a whole item moves into the new join.

The walk returns whether the conjunct was placed, the tree as it leaves it, and the
`PullupRelForJoinContext` of subtrees found so far. Items deleted from a `FromExpr` list
stay deleted whatever the walk returns, as in the source.
-/

namespace AntdbAnalyze

/-- `PullupRelForJoinContext`: the subtrees found to hold the `lrtindex` table (`larg`)
and the `rrtindex` table (`rarg`). -/
structure PullupRelForJoinContext where
  larg : Option JoinNode
  rarg : Option JoinNode

/-- The empty context each recursive call starts from. -/
def PullupRelForJoinContext.empty : PullupRelForJoinContext := ⟨none, none⟩

/-- `combin_pullup_context(dest, src)`: move what `src` found into `dest`; `true` when
`src` found anything. -/
def combinPullupContext (dest src : PullupRelForJoinContext) :
    Bool × PullupRelForJoinContext :=
  (src.larg.isSome || src.rarg.isSome,
    ⟨if src.larg.isSome then src.larg else dest.larg,
     if src.rarg.isSome then src.rarg else dest.rarg⟩)

/-- AND one more conjunct onto an expression: onto its arguments when it is an AND
clause, else into a new two-argument AND (the combine step of `get_join_qual_exprs` and
of the fuse branch). -/
def combineAnd (e e₂ : Expr) : Expr :=
  match e with
  | .boolExpr .andExpr args => makeAndExpr (args ++ [e₂])
  | e => makeAndExpr [e, e₂]

/-- The ON of a join after the fuse branch appends a conjunct; an empty ON becomes a
one-argument AND. -/
def appendJoinQual (quals : Option Expr) (e : Expr) : Expr :=
  match quals with
  | none => makeAndExpr [e]
  | some q => combineAnd q e

/-- The error `transformFromAndWhere` raises when a conjunct's tables are not both found. -/
def moveFilterQualError : ErrorData :=
  ⟨.internalError, "move filter qual to join filter failed!"⟩

mutual
/-- `pullup_rel_for_join(node, jinfo, pstate, context)`: returns whether the conjunct was
placed, the node as the walk leaves it, and the context. -/
def pullupRelForJoin (jinfo : JoinExprInfo) :
    JoinNode → PullupRelForJoinContext →
      Except ErrorData (Bool × JoinNode × PullupRelForJoinContext)
  | .fromExpr fromlist quals, context => do
    let (found, fromlist', context') ← pullupFromlist jinfo fromlist context
    if found then return (true, .fromExpr fromlist' quals, context')
    match context'.larg, context'.rarg with
    | some larg, some rarg =>
      return (true, .fromExpr (fromlist' ++ [.joinExpr jinfo.type larg rarg (some jinfo.expr) 0])
        quals, context')
    | _, _ => return (false, .fromExpr fromlist' quals, context')
  | .joinExpr jointype larg rarg quals rtindex, context => do
    let (foundL, larg', myL) ← pullupRelForJoin jinfo larg .empty
    if foundL then return (true, .joinExpr jointype larg' rarg quals rtindex, context)
    let context₁ := (combinPullupContext context myL).2
    let (foundR, rarg', context₂) ←
      if context₁.larg.isNone || context₁.rarg.isNone then do
        let (foundR, rarg', myR) ← pullupRelForJoin jinfo rarg .empty
        pure (foundR, rarg', (combinPullupContext context₁ myR).2)
      else pure (false, rarg, context₁)
    if foundR then return (true, .joinExpr jointype larg' rarg' quals rtindex, context₁)
    if context₂.larg.isSome && context₂.rarg.isSome then
      if jinfo.type = .left && jointype != .left && jointype != .right then
        throw oneOuterJoinedError
      return (true, .joinExpr jointype larg' rarg' (some (appendJoinQual quals jinfo.expr))
        rtindex, context₂)
    -- release the side found to this whole join
    let node := JoinNode.joinExpr jointype larg' rarg' quals rtindex
    if context₂.larg.isSome then return (false, node, { context₂ with larg := some node })
    if context₂.rarg.isSome then return (false, node, { context₂ with rarg := some node })
    return (false, node, context₂)
  | .rangeTblRef rtindex, context =>
    if rtindex = jinfo.lrtindex then
      .ok (false, .rangeTblRef rtindex, { context with larg := some (.rangeTblRef rtindex) })
    else if rtindex = jinfo.rrtindex then
      .ok (false, .rangeTblRef rtindex, { context with rarg := some (.rangeTblRef rtindex) })
    else .ok (false, .rangeTblRef rtindex, context)

/-- The `foreach` over a `FromExpr`'s list: an item that holds an endpoint is deleted and
moves into the context; the loop stops once both endpoints are found. -/
def pullupFromlist (jinfo : JoinExprInfo) :
    List JoinNode → PullupRelForJoinContext →
      Except ErrorData (Bool × List JoinNode × PullupRelForJoinContext)
  | [], context => .ok (false, [], context)
  | item :: rest, context => do
    let (found, item', my) ← pullupRelForJoin jinfo item .empty
    if found then return (true, item' :: rest, context)
    let (combined, context') := combinPullupContext context my
    if combined then
      if context'.larg.isSome && context'.rarg.isSome then return (false, rest, context')
      pullupFromlist jinfo rest context'
    else
      let (found', rest', context'') ← pullupFromlist jinfo rest context
      return (found', item' :: rest', context'')
end

end AntdbAnalyze
