import AntdbAnalyze.OuterJoin.Pullup

/-!
# The `(+)` rewrite of one SELECT level (analyze.c:3377-3669)

`transformFromAndWhere` runs on an Oracle-grammar SELECT after its FROM list and WHERE
are transformed. It leaves the query alone when the FROM list is empty or the WHERE has
no marker, strips the markers when the FROM list has one item (the *fast path*), and
otherwise (the *general path*):

1. `getJoinQualExprs`: splits the canonicalized WHERE into conjuncts, classifies those
   with a marker, then classifies the others and ANDs each into an earlier entry with the
   same type and tables, or appends it;
2. keeps every entry that names at most one table in WHERE, and places every other one
   into the FROM tree with `pullupRelForJoin`, failing when that does not find both tables;
3. `analyzeNewJoin`: enters each join the rewrite built in the range table, bottom-up,
   pads `p_joinexprs` to the new index, and rebuilds the namespace from the new tree.

`canonicalize_qual` (optimizer/prep, not under src/) is a parameter.
-/

namespace AntdbAnalyze

/-- Add a classified conjunct to the entries found so far: AND it into the first entry
with the same type and tables, else append it. -/
def addJoinQual (jinfo₂ : JoinExprInfo) : List JoinExprInfo → List JoinExprInfo
  | [] => [jinfo₂]
  | jinfo :: rest =>
    if jinfo.type = jinfo₂.type ∧ jinfo.lrtindex = jinfo₂.lrtindex ∧
        jinfo.rrtindex = jinfo₂.rrtindex then
      { jinfo with expr := combineAnd jinfo.expr jinfo₂.expr } :: rest
    else jinfo :: addJoinQual jinfo₂ rest

/-- One round of the combining loop of `get_join_qual_exprs`: classify the conjunct and add
it to the entries. -/
def addClassifiedQual (result : List JoinExprInfo) (expr : Expr) :
    Except ErrorData (List JoinExprInfo) := do
  return addJoinQual (← getOraColumnJoin expr) result

/-- `get_join_qual_exprs(quals, pstate)`: the conjuncts with a marker, classified in
order, then the other conjuncts, each classified and merged by `addJoinQual`. -/
def getJoinQualExprs (canonicalizeQual : Expr → Expr) :
    Option Expr → Except ErrorData (List JoinExprInfo)
  | none => .ok []
  | some quals => do
    let qualList := (canonicalizeQual quals).andArgs
    let result ← (qualList.filter haveOraColumnJoin).mapM getOraColumnJoin
    (qualList.filter (!haveOraColumnJoin ·)).foldlM addClassifiedQual result

/-- `find_namespace_item_for_rte`: the namespace item exposing entry `rtindex`. The loop
variable is left on the last item when none matches (the source asserts one does). -/
def findNamespaceItemForRte (nspace : List ParseNamespaceItem) (rtindex : Nat) :
    List ParseNamespaceItem :=
  match nspace.find? (·.p_rte = rtindex) with
  | some pni => [pni]
  | none => nspace.getLast?.toList

/-- Modelled from the spec: `expandRTE` (parse_relation.c) is not under src/. §4.11
step 7 reads the column names of each input; the column Vars are `Var(rtindex, i)`. -/
def expandRTE (rte : RangeTblEntry) (rtindex : Nat) : List String × List Expr :=
  (rte.colnames, if h : 0 < rtindex then
    (List.range rte.colnames.length).map fun i =>
      .var { varno := rtindex, varattno := i + 1, varno_pos := h }
    else [])

/-- Modelled from the spec: `addRangeTableEntryForJoin` (parse_relation.c) is not under
src/. §4.11 step 7: a join entry with the joined column names and alias Vars, appended
to the range table; an unaliased join is named `unnamed_join`. -/
def addRangeTableEntryForJoin (pstate : ParseState) (colnames : List String)
    (jointype : JoinType) (aliasvars : List Expr) : ParseState :=
  { pstate with p_rtable := pstate.p_rtable ++
      [⟨.join, 0, false, none, "unnamed_join", colnames, 0, jointype, aliasvars⟩] }

/-- The column names and alias Vars of the entry `rtindex`, as `expandRTE` reads them. -/
def expandRTEAt (pstate : ParseState) (rtindex : Nat) : List String × List Expr :=
  match rtFetch rtindex pstate.p_rtable with
  | some rte => expandRTE rte rtindex
  | none => ([], [])

/-- `p_joinexprs` padded with NULLs up to index `rtindex - 1`, then `j` at `rtindex`. -/
def padJoinexprs (joinexprs : List (Option JoinNode)) (rtindex : Nat) (j : JoinNode) :
    List (Option JoinNode) :=
  joinexprs ++ List.replicate (rtindex - 1 - joinexprs.length) none ++ [some j]

mutual
/-- `analyze_new_join(pstate, node, &top_rte, &rtindex, &namelist)`: returns the state,
the node with the new joins' `rtindex` set, the node's range-table index, and its
namespace items. A `FromExpr` leaves the index as it was passed (`0` here). -/
def analyzeNewJoin (pstate : ParseState) :
    JoinNode → ParseState × JoinNode × Nat × List ParseNamespaceItem
  | .joinExpr jointype larg rarg quals 0 =>
    let (pstate₁, larg', lIndex, resNamelist) := analyzeNewJoin pstate larg
    let (resColnames, resColvars) := expandRTEAt pstate₁ lIndex
    let (pstate₂, rarg', rIndex, argNamelist) := analyzeNewJoin pstate₁ rarg
    let (colnames, colvars) := expandRTEAt pstate₂ rIndex
    let pstate₃ := addRangeTableEntryForJoin pstate₂ (resColnames ++ colnames) jointype
      (resColvars ++ colvars)
    let rtindex := pstate₃.p_rtable.length
    let j := JoinNode.joinExpr jointype larg' rarg' quals rtindex
    let pni : ParseNamespaceItem := ⟨rtindex, false, true, false, true⟩
    ({ pstate₃ with p_joinexprs := padJoinexprs pstate₃.p_joinexprs rtindex j }, j, rtindex,
      (resNamelist ++ argNamelist).map ({ · with p_cols_visible := false }) ++ [pni])
  | .joinExpr jointype larg rarg quals (rtindex + 1) =>
    (pstate, .joinExpr jointype larg rarg quals (rtindex + 1), rtindex + 1,
      findNamespaceItemForRte pstate.p_namespace (rtindex + 1))
  | .fromExpr fromlist quals =>
    let (pstate', fromlist', namelist) := analyzeNewJoinList pstate fromlist
    (pstate', .fromExpr fromlist' quals, 0, namelist)
  | .rangeTblRef rtindex =>
    (pstate, .rangeTblRef rtindex, rtindex, findNamespaceItemForRte pstate.p_namespace rtindex)

/-- The `foreach` of `analyze_new_join` over a `FromExpr`'s list, concatenating the
namespace items of its items. -/
def analyzeNewJoinList (pstate : ParseState) :
    List JoinNode → ParseState × List JoinNode × List ParseNamespaceItem
  | [] => (pstate, [], [])
  | item :: rest =>
    let (pstate₁, item', _, myNamelist) := analyzeNewJoin pstate item
    let (pstate₂, rest', namelist) := analyzeNewJoinList pstate₁ rest
    (pstate₂, item' :: rest', myNamelist ++ namelist)
end

/-- What the loop of `transformFromAndWhere` keeps in WHERE or places in the tree. -/
structure FromAndWhereLoop where
  «from» : JoinNode
  kept : List Expr

/-- The loop of `transformFromAndWhere` over the classified conjuncts: one naming at most
one table stays in WHERE with its markers stripped; any other is stripped and placed by
`pullupRelForJoin`, and failing to place it is an error. -/
def pullupJoinQuals : FromAndWhereLoop → List JoinExprInfo → Except ErrorData FromAndWhereLoop
  | loop, [] => .ok loop
  | loop, jinfo :: rest =>
    if jinfo.lrtindex = 0 ∨ jinfo.rrtindex = 0 then
      pullupJoinQuals ⟨loop.from, loop.kept ++ [removeColumnJoinExpr jinfo.expr]⟩ rest
    else do
      let (found, from', _) ← pullupRelForJoin
        { jinfo with expr := removeColumnJoinExpr jinfo.expr } loop.from .empty
      if found then pullupJoinQuals ⟨from', loop.kept⟩ rest else throw moveFilterQualError

/-- The list of a `FromExpr` (what `from->fromlist` holds). -/
def JoinNode.fromlist : JoinNode → List JoinNode
  | .fromExpr fromlist _ => fromlist
  | _ => []

/-- The WHERE left for the kept conjuncts: none, the one, or their AND. -/
def keptQuals : List Expr → Option Expr
  | [] => none
  | [e] => some e
  | es => some (makeAndExpr es)

/-- The general path of `transformFromAndWhere` (analyze.c:3612-3668), for two or more
FROM items. -/
def transformFromAndWhereGeneral (canonicalizeQual : Expr → Expr) (pstate : ParseState)
    (quals : Option Expr) : Except ErrorData (ParseState × Option Expr) := do
  let qualList ← getJoinQualExprs canonicalizeQual quals
  let loop ← pullupJoinQuals ⟨.fromExpr pstate.p_joinlist none, []⟩ qualList
  let pstate₁ := { pstate with p_save_namespace := pstate.p_namespace }
  let (pstate₂, from', _, newNamelist) := analyzeNewJoin pstate₁ loop.from
  return ({ pstate₂ with p_namespace := newNamelist, p_joinlist := from'.fromlist },
    keptQuals loop.kept)

/-- `transformFromAndWhere(pstate, quals)`: the new parse state and WHERE. -/
def transformFromAndWhere (canonicalizeQual : Expr → Expr) (pstate : ParseState)
    (quals : Option Expr) : Except ErrorData (ParseState × Option Expr) :=
  if pstate.p_joinlist.isEmpty || quals.all (!haveOraColumnJoin ·) then .ok (pstate, quals)
  else if pstate.p_joinlist.length = 1 then .ok (pstate, quals.map removeColumnJoinExpr)
  else transformFromAndWhereGeneral canonicalizeQual pstate quals

/-! ## The two paths -/

/-- The fast path: with one FROM item, a WHERE with a marker comes back stripped and the
parse state is left alone. -/
theorem transformFromAndWhere_single_item (canonicalizeQual : Expr → Expr)
    {pstate : ParseState} {item : JoinNode} (hjoin : pstate.p_joinlist = [item]) {q : Expr}
    (hq : haveOraColumnJoin q) :
    transformFromAndWhere canonicalizeQual pstate (some q) =
      .ok (pstate, some (removeColumnJoinExpr q)) := by
  simp [transformFromAndWhere, hjoin, hq]

/-- With two or more FROM items and a marker, the general path runs. -/
theorem transformFromAndWhere_of_two_le (canonicalizeQual : Expr → Expr)
    {pstate : ParseState} (hlen : 2 ≤ pstate.p_joinlist.length) {q : Expr}
    (hq : haveOraColumnJoin q) :
    transformFromAndWhere canonicalizeQual pstate (some q) =
      transformFromAndWhereGeneral canonicalizeQual pstate (some q) := by
  have hne : pstate.p_joinlist.isEmpty = false := by
    cases h : pstate.p_joinlist <;> simp_all
  simp [transformFromAndWhere, hne, hq, show pstate.p_joinlist.length ≠ 1 by omega]

/-- A loop over conjuncts that each name at most one table keeps them all, in order,
stripped, and leaves the tree alone. -/
theorem pullupJoinQuals_of_oneTable (loop : FromAndWhereLoop) (infos : List JoinExprInfo)
    (hone : ∀ jinfo ∈ infos, jinfo.lrtindex = 0 ∨ jinfo.rrtindex = 0) :
    pullupJoinQuals loop infos =
      .ok ⟨loop.from, loop.kept ++ infos.map (removeColumnJoinExpr ·.expr)⟩ := by
  induction infos generalizing loop with
  | nil => simp [pullupJoinQuals]
  | cons jinfo rest ih =>
    rw [List.forall_mem_cons] at hone
    simp [pullupJoinQuals, hone.1, ih _ hone.2]

mutual
/-- Every `JoinExpr` of the tree has its range-table entry, as `transformFromClause` leaves
the FROM items it builds. -/
def JoinNode.registered : JoinNode → Bool
  | .rangeTblRef _ => true
  | .joinExpr _ larg rarg _ rtindex => rtindex != 0 && larg.registered && rarg.registered
  | .fromExpr fromlist _ => registeredList fromlist

/-- Every tree of the list is registered. -/
def registeredList : List JoinNode → Bool
  | [] => true
  | node :: rest => node.registered && registeredList rest
end

mutual
/-- `analyze_new_join` leaves a registered tree, and the parse state, as they are. -/
theorem analyzeNewJoin_of_registered (pstate : ParseState) :
    ∀ node : JoinNode, node.registered →
      ∃ rtindex namelist, analyzeNewJoin pstate node = (pstate, node, rtindex, namelist)
  | .rangeTblRef _, _ => ⟨_, _, rfl⟩
  | .joinExpr _ _ _ _ 0, h => by simp [JoinNode.registered] at h
  | .joinExpr _ _ _ _ (_ + 1), _ => ⟨_, _, rfl⟩
  | .fromExpr fromlist _, h => by
    obtain ⟨namelist, hlist⟩ := analyzeNewJoinList_of_registered pstate fromlist
      (by simpa [JoinNode.registered] using h)
    exact ⟨0, namelist, by simp only [analyzeNewJoin, hlist]⟩

/-- The list form of `analyzeNewJoin_of_registered`. -/
theorem analyzeNewJoinList_of_registered (pstate : ParseState) :
    ∀ fromlist : List JoinNode, registeredList fromlist →
      ∃ namelist, analyzeNewJoinList pstate fromlist = (pstate, fromlist, namelist)
  | [], _ => ⟨_, rfl⟩
  | node :: rest, h => by
    simp only [registeredList, Bool.and_eq_true] at h
    obtain ⟨_, names, hnode⟩ := analyzeNewJoin_of_registered pstate node h.1
    obtain ⟨names', hrest⟩ := analyzeNewJoinList_of_registered pstate rest h.2
    exact ⟨names ++ names', by simp only [analyzeNewJoinList, hnode, hrest]⟩
end

/-- Adding a conjunct that names at most one table to entries that each do keeps them so:
a merged entry keeps its indexes. -/
theorem addJoinQual_oneTable {jinfo₂ : JoinExprInfo} (h₂ : jinfo₂.lrtindex = 0 ∨ jinfo₂.rrtindex = 0)
    {infos : List JoinExprInfo} (hinfos : ∀ j ∈ infos, j.lrtindex = 0 ∨ j.rrtindex = 0) :
    ∀ j ∈ addJoinQual jinfo₂ infos, j.lrtindex = 0 ∨ j.rrtindex = 0 := by
  induction infos with
  | nil => simpa [addJoinQual] using h₂
  | cons jinfo rest ih =>
    rw [List.forall_mem_cons] at hinfos
    unfold addJoinQual
    split_ifs
    · simpa using hinfos
    · simpa [hinfos.1] using ih hinfos.2

/-- Classifying conjuncts that each name at most one table succeeds, and so do the
entries. -/
theorem mapM_getOraColumnJoin_oneTable : ∀ {es : List Expr},
    (∀ e ∈ es, ∃ info, getOraColumnJoin e = .ok info ∧ (info.lrtindex = 0 ∨ info.rrtindex = 0)) →
    ∃ infos, es.mapM getOraColumnJoin = .ok infos ∧
      ∀ j ∈ infos, j.lrtindex = 0 ∨ j.rrtindex = 0
  | [], _ => ⟨[], rfl, by simp⟩
  | e :: es, h => by
    rw [List.forall_mem_cons] at h
    obtain ⟨info, he, hinfo⟩ := h.1
    obtain ⟨infos, hes, hall⟩ := mapM_getOraColumnJoin_oneTable h.2
    exact ⟨info :: infos, by rw [List.mapM_cons, he, hes]; rfl, by simpa [hinfo] using hall⟩

/-- The combining loop over conjuncts that each name at most one table succeeds. -/
theorem foldlM_addClassifiedQual_oneTable : ∀ {es : List Expr} {acc : List JoinExprInfo},
    (∀ e ∈ es, ∃ info, getOraColumnJoin e = .ok info ∧ (info.lrtindex = 0 ∨ info.rrtindex = 0)) →
    (∀ j ∈ acc, j.lrtindex = 0 ∨ j.rrtindex = 0) →
    ∃ infos, es.foldlM addClassifiedQual acc = .ok infos ∧
      ∀ j ∈ infos, j.lrtindex = 0 ∨ j.rrtindex = 0
  | [], acc, _, hacc => ⟨acc, rfl, hacc⟩
  | e :: es, acc, h, hacc => by
    rw [List.forall_mem_cons] at h
    obtain ⟨info, he, hinfo⟩ := h.1
    obtain ⟨infos, hes, hall⟩ := foldlM_addClassifiedQual_oneTable h.2 (addJoinQual_oneTable hinfo hacc)
    refine ⟨infos, ?_, hall⟩
    rw [List.foldlM_cons, addClassifiedQual, he]
    exact hes

/-- `get_join_qual_exprs` on conjuncts that each name at most one table succeeds with
entries that each do. -/
theorem getJoinQualExprs_of_oneTable (canonicalizeQual : Expr → Expr) {q : Expr}
    (h : ∀ e ∈ (canonicalizeQual q).andArgs,
      ∃ info, getOraColumnJoin e = .ok info ∧ (info.lrtindex = 0 ∨ info.rrtindex = 0)) :
    ∃ infos, getJoinQualExprs canonicalizeQual (some q) = .ok infos ∧
      ∀ j ∈ infos, j.lrtindex = 0 ∨ j.rrtindex = 0 := by
  obtain ⟨marked, hmarked, hall⟩ :=
    @mapM_getOraColumnJoin_oneTable ((canonicalizeQual q).andArgs.filter haveOraColumnJoin)
      fun e he => h e (List.mem_of_mem_filter he)
  obtain ⟨infos, hinfos, hall'⟩ :=
    @foldlM_addClassifiedQual_oneTable ((canonicalizeQual q).andArgs.filter (!haveOraColumnJoin ·))
      marked (fun e he => h e (List.mem_of_mem_filter he)) hall
  exact ⟨infos, by simp only [getJoinQualExprs, hmarked]; exact hinfos, hall'⟩

/-- The general path on one registered FROM item whose conjuncts each name at most one
table: the FROM list and the range table stay, and every entry is kept in WHERE. -/
theorem transformFromAndWhereGeneral_of_oneTable (canonicalizeQual : Expr → Expr)
    {pstate : ParseState} {item : JoinNode} (hjoin : pstate.p_joinlist = [item])
    (hreg : item.registered) {q : Expr} {infos : List JoinExprInfo}
    (hinfos : getJoinQualExprs canonicalizeQual (some q) = .ok infos)
    (hone : ∀ j ∈ infos, j.lrtindex = 0 ∨ j.rrtindex = 0) :
    ∃ pstate', transformFromAndWhereGeneral canonicalizeQual pstate (some q) =
        .ok (pstate', keptQuals (infos.map (removeColumnJoinExpr ·.expr))) ∧
      pstate'.p_joinlist = [item] ∧ pstate'.p_rtable = pstate.p_rtable := by
  obtain ⟨_, namelist, hnew⟩ := analyzeNewJoin_of_registered
    { pstate with p_save_namespace := pstate.p_namespace } (.fromExpr pstate.p_joinlist none)
    (by simpa [hjoin, JoinNode.registered, registeredList] using hreg)
  refine ⟨{ pstate with p_save_namespace := pstate.p_namespace, p_namespace := namelist },
    ?_, hjoin, rfl⟩
  simp only [transformFromAndWhereGeneral, hinfos, bind, Except.bind,
    pullupJoinQuals_of_oneTable _ _ hone, hnew, List.nil_append]
  rfl

end AntdbAnalyze
