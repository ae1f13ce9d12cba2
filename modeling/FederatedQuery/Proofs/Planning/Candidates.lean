import FederatedQuery.Proofs.Planning.Outcomes
import FederatedQuery.Proofs.Planning.Session

/-!
# Candidates for dependent joins

Which inputs of a join may become dependent can be read off its payload and the
trees below it.  The survey of a plan finds exactly these inputs, and the candidates
are the joins with such an input that a visit comes to without passing an access.
-/

namespace FederatedQuery

def JoinNode.allows (join : JoinNode) (side : Side) : Bool :=
  (match join.joinType, side with
    | .inner, _ | .leftOuter, .right | .rightOuter, .left => true
    | _, _ => false) &&
    !join.criteria.isEmpty && !join.leftExprs.isEmpty && join.valueSource.isNone

/-- Whether a tree reads from an access without a hint against making it dependent. -/
def PlanTree.mayDepend (tree : PlanTree) : Bool :=
  tree.source.kind.access?.any fun access => !access.makeNotDependent

def JoinNode.admits (join : JoinNode) (side : Side) (input : PlanTree) : Bool :=
  input.mayDepend && join.allows side

def CandidateJoin.isEligible (candidate : CandidateJoin) : Bool := candidate.left || candidate.right

theorem CandidateJoin.exists_admits {candidate : CandidateJoin} {join : JoinNode}
    {left right : PlanTree} (hleft : candidate.left = join.admits .left left)
    (hright : candidate.right = join.admits .right right) (eligible : candidate.isEligible = true) :
    ∃ side : Side, join.admits side (side.pick left right) = true := by
  rw [isEligible, hleft, hright, Bool.or_eq_true] at eligible
  rcases eligible with h | h
  · exact ⟨.left, h⟩
  · exact ⟨.right, h⟩

namespace PlanTree

def candidate : PlanTree → CandidateJoin
  | .node id (.join join) [left, right] =>
      ⟨id, join.admits .left left, join.admits .right right⟩
  | tree => ⟨tree.id, false, false⟩

def isJoin (tree : PlanTree) : Bool := tree.kind.join?.isSome

def isAccess (kind : NodeKind) : Bool := kind.access?.isSome

theorem isJoin_of_kind_eq {tree : PlanTree} {join : JoinNode} (h : tree.kind = .join join) :
    tree.isJoin = true := by
  rw [isJoin, h]
  rfl

def joins (tree : PlanTree) : List PlanTree := (tree.visit isAccess).filter isJoin

def candidates (tree : PlanTree) : List CandidateJoin :=
  (tree.joins.map candidate).filter CandidateJoin.isEligible

theorem joins_node (id : NodeId) (kind : NodeKind) (children : List PlanTree) :
    (PlanTree.node id kind children).joins =
      (if kind.join?.isSome then [.node id kind children] else []) ++
        if isAccess kind then [] else children.flatMap joins := by
  rw [joins, visit_node, List.filter_cons]
  have below : (if isAccess kind then [] else children.flatMap (visit isAccess)).filter isJoin =
      if isAccess kind then [] else children.flatMap joins := by
    cases isAccess kind with
    | true => rfl
    | false =>
        simp only [Bool.false_eq_true, if_false, List.filter_flatMap]
        rfl
  rw [below, isJoin, kind_node]
  cases kind.join?.isSome <;> rfl

theorem joins_subset_subtrees (tree : PlanTree) : tree.joins ⊆ tree.subtrees :=
  fun _ member => visit_subset_subtrees _ _ (List.mem_filter.mp member).1

theorem WellShaped.exists_inputs {tree : PlanTree} (shaped : tree.WellShaped)
    (h : tree.isJoin = true) :
    ∃ id join left right, tree = .node id (.join join) [left, right] ∧
      join.leftExprs.length = join.rightExprs.length := by
  obtain ⟨id, kind, children⟩ := tree
  obtain ⟨join, hjoin⟩ := Option.isSome_iff_exists.mp h
  cases kind <;> simp only [kind_node, NodeKind.join?, reduceCtorEq, Option.some.injEq] at hjoin
  subst hjoin
  obtain ⟨fits, -⟩ := wellShaped_node.mp shaped
  obtain ⟨left, right, rfl⟩ := List.length_eq_two.mp (fits.arity 2 rfl)
  exact ⟨id, _, left, right, rfl, fits.paired _ rfl⟩

@[simp] theorem join_candidate (tree : PlanTree) : tree.candidate.join = tree.id := by
  unfold candidate
  split <;> rfl

theorem exists_of_mem_candidates {tree : PlanTree} (shaped : tree.WellShaped)
    {candidate : CandidateJoin} (member : candidate ∈ tree.candidates) :
    ∃ join left right, PlanTree.node candidate.join (.join join) [left, right] ∈ tree.joins ∧
      candidate.left = join.admits .left left ∧ candidate.right = join.admits .right right ∧
      candidate.isEligible = true ∧ join.leftExprs.length = join.rightExprs.length := by
  obtain ⟨hmap, eligible⟩ := List.mem_filter.mp member
  obtain ⟨sub, hsub, rfl⟩ := List.mem_map.mp hmap
  obtain ⟨id, join, left, right, rfl, paired⟩ :=
    (shaped.of_mem (joins_subset_subtrees tree hsub)).exists_inputs (List.mem_filter.mp hsub).2
  exact ⟨join, left, right, hsub, rfl, rfl, eligible, paired⟩

theorem length_candidates_le (tree : PlanTree) :
    tree.candidates.length ≤ tree.subtrees.countP isJoin := by
  have joins : tree.joins.length ≤ tree.subtrees.countP isJoin := by
    rw [joins, List.countP_eq_length_filter]
    exact ((visit_sublist_subtrees _ _).filter _).length_le
  refine (List.length_filter_le _ _).trans ?_
  rwa [List.length_map]

theorem nodup_candidates {tree : PlanTree} (nodup : tree.ids.Nodup) :
    (tree.candidates.map CandidateJoin.join).Nodup := by
  have found : (tree.joins.map id).Sublist tree.ids :=
    (List.filter_sublist.trans (visit_sublist_subtrees _ _)).map _
  have named : (tree.joins.map candidate).map CandidateJoin.join = tree.joins.map id := by
    rw [List.map_map]
    exact List.map_congr_left fun sub _ => join_candidate sub
  have chosen : (tree.candidates.map CandidateJoin.join).Sublist (tree.joins.map id) := by
    rw [← named]
    exact List.filter_sublist.map _
  exact nodup.sublist (chosen.trans found)

end PlanTree

theorem JoinNode.joinType_of_allows {join : JoinNode} {side : Side}
    (h : join.allows side = true) :
    join.joinType = .inner ∨ join.joinType = .leftOuter ∧ side = .right ∨
      join.joinType = .rightOuter ∧ side = .left := by
  cases htype : join.joinType <;> cases side <;> simp_all [allows]

theorem JoinNode.plain_of_allows {join : JoinNode} {side : Side}
    (h : join.allows side = true) : join.joinType ≠ .fullOuter ∧ join.joinType ≠ .cross := by
  rcases joinType_of_allows h with h | ⟨h, -⟩ | ⟨h, -⟩ <;> simp [h]

theorem JoinNode.ordinary_of_allows {join : JoinNode} {side : Side}
    (h : join.allows side = true) : join.valueSource = none := by
  simp only [allows, Bool.and_eq_true, Option.isNone_iff_eq_none] at h
  exact h.2

theorem JoinNode.allows_of_admits {join : JoinNode} {side : Side} {input : PlanTree}
    (h : join.admits side input = true) : join.allows side = true :=
  (Bool.and_eq_true_iff.mp h).2

theorem JoinNode.equalities_of_admits {join : JoinNode} {side : Side} {input : PlanTree}
    (h : join.admits side input = true) : join.leftExprs ≠ [] := by
  intro empty
  simp [admits, allows, empty] at h

def Decision.dependent? : Decision → Option NodeId
  | .leave => none
  | .convert dependent | .compareCosts dependent _ _ => some dependent

namespace ChooseDependent

variable {plan : Plan} {tree : PlanTree} {id : NodeId} {join : JoinNode} {left right : PlanTree}

theorem innerSide?_eq (holds : plan.Holds tree)
    (member : PlanTree.node id (.join join) [left, right] ∈ tree.subtrees) :
    plan.innerSide? id = match join.joinType with
      | .leftOuter => some right.id
      | .rightOuter => some left.id
      | .inner | .fullOuter | .cross => none := by
  have hjoin : plan.join? id = some join := holds.join?_eq member
  have hfirst : plan.firstChild? id = some left.id := holds.firstChild?_eq member
  have hlast : plan.lastChild? id = some right.id := holds.lastChild?_eq member
  cases htype : join.joinType <;> simp [Plan.innerSide?, hjoin, hfirst, hlast, htype]

theorem input_ids_ne (holds : plan.Holds tree)
    (member : PlanTree.node id (.join join) [left, right] ∈ tree.subtrees) :
    left.id ≠ right.id := by
  have nodup := PlanTree.nodup_of_mem_subtrees holds.nodup member
  rw [PlanTree.ids_node, List.nodup_cons] at nodup
  simp only [List.flatMap_cons, List.flatMap_nil, List.append_nil] at nodup
  intro same
  exact (List.disjoint_of_nodup_append nodup.2) left.id_mem_ids (same ▸ right.id_mem_ids)

theorem ineligibility?_eq_none_iff (holds : plan.Holds tree)
    (member : PlanTree.node id (.join join) [left, right] ∈ tree.subtrees) (side : Side) :
    ineligibility? plan id (side.pick left.id right.id) join = none ↔
      join.allows side = true := by
  have hne := input_ids_ne holds member
  unfold ineligibility? JoinNode.allows
  rw [innerSide?_eq holds member]
  cases htype : join.joinType <;> cases side <;> cases hcriteria : join.criteria.isEmpty <;>
    cases hexprs : join.leftExprs.isEmpty <;> cases hsource : join.valueSource <;>
    simp [JoinType.isOuter, Side.pick, hne, hne.symm]

theorem input?_eq (holds : plan.Holds tree) {child : PlanTree} (member : child ∈ tree.subtrees)
    (isLast : Bool) :
    input? plan child.id isLast =
      if child.mayDepend then some ⟨child.id, isLast, child.source.id⟩ else none := by
  have hsource : plan.access? child.source.id = child.source.kind.access? :=
    holds.access?_eq (PlanTree.subtrees_subset_of_mem member (PlanTree.descend_mem_subtrees _ _))
  rw [input?, holds.sourceOf_eq member, hsource, PlanTree.mayDepend]
  cases child.source.kind.access? with
  | none => rfl
  | some access => cases hnot : access.makeNotDependent <;> simp [hnot]

theorem inputs_eq (holds : plan.Holds tree)
    (member : PlanTree.node id (.join join) [left, right] ∈ tree.subtrees) :
    inputs plan id =
      (if left.mayDepend then [⟨left.id, false, left.source.id⟩] else []) ++
        if right.mayDepend then [⟨right.id, true, right.source.id⟩] else [] := by
  have inside : ∀ child ∈ [left, right], child ∈ tree.subtrees :=
    fun _ hchild => PlanTree.child_mem_subtrees member hchild
  have hchildren : plan.children id = [left.id, right.id] := holds.children_eq member
  simp only [inputs, hchildren, List.zipIdx_cons, List.zipIdx_nil, List.length_cons,
    List.length_nil]
  rw [List.filterMap_cons, List.filterMap_cons, List.filterMap_nil,
    input?_eq holds (inside left (by simp)), input?_eq holds (inside right (by simp))]
  cases left.mayDepend <;> cases right.mayDepend <;> rfl

theorem survey_eq (holds : plan.Holds tree)
    (member : PlanTree.node id (.join join) [left, right] ∈ tree.subtrees) :
    (survey plan id).1 = (PlanTree.node id (.join join) [left, right]).candidate := by
  have hjoin : plan.join? id = some join := holds.join?_eq member
  have hleft := ineligibility?_eq_none_iff holds member .left
  have hright := ineligibility?_eq_none_iff holds member .right
  simp only [Side.pick] at hleft hright
  simp only [survey, hjoin, inputs_eq holds member, PlanTree.candidate, JoinNode.admits]
  cases left.mayDepend <;> cases right.mayDepend <;>
    cases hfirst : ineligibility? plan id left.id join <;>
    cases hsecond : ineligibility? plan id right.id join <;>
    simp_all

theorem joins_eq (holds : plan.Holds tree) : joins plan = tree.joins.map PlanTree.id := by
  have stop : (fun kind : NodeKind => [NodeType.access].contains kind.nodeType) =
      PlanTree.isAccess := by
    funext kind
    cases kind <;> rfl
  have wanted : (fun sub : PlanTree => [NodeType.join].contains sub.kind.nodeType) =
      PlanTree.isJoin := by
    funext sub
    simp only [PlanTree.isJoin]
    cases sub.kind <;> rfl
  rw [joins, holds.findAll_root_eq, stop, wanted, PlanTree.joins]

theorem candidates_eq (holds : plan.Holds tree) (shaped : tree.WellShaped) :
    candidates plan = tree.candidates := by
  have surveyed : (surveys plan).map (·.1) = tree.joins.map PlanTree.candidate := by
    rw [surveys, joins_eq holds, List.map_map, List.map_map]
    apply List.map_congr_left
    intro sub hsub
    have inside := PlanTree.joins_subset_subtrees tree hsub
    obtain ⟨id, join, left, right, rfl, -⟩ :=
      (shaped.of_mem inside).exists_inputs (List.mem_filter.mp hsub).2
    exact survey_eq holds inside
  rw [candidates, surveyed]
  rfl

/-! ## Decisions -/

/-- The input chosen by need or by hint. -/
def needed (plan : Plan) (first : NodeId) (second : Option NodeId) : Option NodeId :=
  let firstAccess := plan.access? (plan.sourceOf first)
  let secondAccess := (second.map plan.sourceOf).bind plan.access?
  let firstNeeds := firstAccess.any (·.hasUnsatisfiedPatterns)
  let secondNeeds := secondAccess.any (·.hasUnsatisfiedPatterns)
  if firstNeeds && secondNeeds then none
  else if firstNeeds then some first
  else if secondNeeds then second
  else if firstAccess.any (·.makeDependent) then some first
  else if secondAccess.any (·.makeDependent) then second
  else none

theorem finds_chooseByNeed (plan : Plan) (first : NodeId) (second : Option NodeId) :
    (chooseByNeed plan first second).Finds (.ok (needed plan first second)) := by
  simp only [chooseByNeed, needed]
  split
  · exact (Inquiry.finds_pure _).reporting _
  · split
    · exact Inquiry.finds_pure _
    · split
      · exact (Inquiry.finds_pure _).reporting _
      · split
        · exact (Inquiry.finds_pure _).reporting _
        · split
          · exact (Inquiry.finds_pure _).reporting _
          · exact Inquiry.finds_pure _

def compared (context : PlanningContext) (plan : Plan) (both : Bool) (strategy : JoinStrategy)
    (first second : NodeId) (firstCost secondCost : Option Float) :
    Except PlanError Decision := do
  match cheaper first second firstCost secondCost with
  | some (dependent, independent, cost) =>
      let ordinary ← context.oracle.joinCost plan independent dependent strategy
      return .compareCosts dependent cost ordinary
  | none =>
      let firstRows ← context.oracle.subtreeCost plan first
      let secondRows ← context.oracle.subtreeCost plan second
      match chooseBySize context.threshold both first second firstRows secondRows with
      | some dependent => return .convert dependent
      | none => return .leave

theorem finds_compare (context : PlanningContext) (plan : Plan) (candidate : CandidateJoin)
    (strategy : JoinStrategy) (first second : NodeId) (firstCost secondCost : Option Float) :
    (compare context plan candidate strategy first second firstCost secondCost).Finds
      (compared context plan (candidate.left && candidate.right) strategy first second firstCost
        secondCost) := by
  unfold compare compared
  cases cheaper first second firstCost secondCost with
  | some costs =>
      obtain ⟨dependent, independent, cost⟩ := costs
      refine (Inquiry.finds_ask _ _).bind fun ordinary => ?_
      exact ((Inquiry.finds_pure _).reporting _).reporting _
  | none =>
      refine (Inquiry.finds_ask _ _).bind fun firstRows => ?_
      refine (Inquiry.finds_ask _ _).bind fun secondRows => ?_
      simp only
      cases chooseBySize context.threshold (candidate.left && candidate.right) first second
          firstRows secondRows with
      | some dependent => exact (Inquiry.finds_pure _).reporting _
      | none => exact (Inquiry.finds_pure _).reporting _

def weighed (context : PlanningContext) (plan : Plan) (candidate : CandidateJoin)
    (strategy : JoinStrategy) (first second : NodeId) : Except PlanError Decision := do
  let both := candidate.left && candidate.right
  let firstSide : Side := if candidate.left then .left else .right
  let firstCost ← context.oracle.dependentJoinCost plan candidate.join firstSide strategy
  if both then
    let secondCost ← context.oracle.dependentJoinCost plan candidate.join .right strategy
    compared context plan both strategy first second firstCost secondCost
  else
    compared context plan both strategy first second firstCost none

theorem finds_decideByCost (context : PlanningContext) (plan : Plan) (candidate : CandidateJoin)
    (strategy : JoinStrategy) (first second : NodeId) :
    (decideByCost context plan candidate strategy first second).Finds
      (weighed context plan candidate strategy first second) := by
  unfold decideByCost weighed
  refine (Inquiry.finds_ask _ _).bind fun firstCost => ?_
  have rest := fun secondCost =>
    finds_compare context plan candidate strategy first second firstCost secondCost
  cases hboth : candidate.left && candidate.right with
  | true =>
      rw [hboth] at rest
      exact (Inquiry.finds_ask _ _).bind rest
  | false =>
      rw [hboth] at rest
      exact rest none

/-- What is decided about a join with the given inputs and payload. -/
def decided (context : PlanningContext) (plan : Plan) (candidate : CandidateJoin)
    (left right : NodeId) (strategy : JoinStrategy) : Except PlanError Decision :=
  let inputs := if candidate.left then (left, right) else (right, left)
  let second := if candidate.left && candidate.right then some inputs.2 else none
  match needed plan inputs.1 second with
  | some dependent => .ok (.convert dependent)
  | none => weighed context plan candidate strategy inputs.1 inputs.2

theorem finds_decide (context : PlanningContext) {plan : Plan} {candidate : CandidateJoin}
    {left right : NodeId} {payload : JoinNode}
    (hleft : plan.firstChild? candidate.join = some left)
    (hright : plan.lastChild? candidate.join = some right)
    (hjoin : plan.join? candidate.join = some payload) :
    (decide context plan candidate).Finds
      (decided context plan candidate left right payload.strategy) := by
  unfold decide decided
  simp only [hleft, hright, hjoin]
  generalize (if candidate.left = true then (left, right) else (right, left)) = inputs
  refine @Inquiry.Finds.bind _ _ _ (.ok _) _
    (fun chosen => match chosen with
      | some dependent => .ok (.convert dependent)
      | none => weighed context plan candidate payload.strategy inputs.1 inputs.2)
    (finds_chooseByNeed plan inputs.1 _) fun chosen => ?_
  cases chosen with
  | some dependent => exact Inquiry.finds_pure _
  | none => exact finds_decideByCost _ _ _ _ _ _

theorem eq_of_needed {plan : Plan} {first dependent : NodeId} {second : Option NodeId}
    (h : needed plan first second = some dependent) :
    dependent = first ∨ second = some dependent := by
  unfold needed at h
  simp only at h
  split at h
  · cases h
  · split at h
    · exact .inl (Option.some.inj h).symm
    · split at h
      · exact .inr h
      · split at h
        · exact .inl (Option.some.inj h).symm
        · split at h
          · exact .inr h
          · cases h

theorem eq_of_cheaper {first second dependent independent : NodeId}
    {firstCost secondCost : Option Float} {cost : Float}
    (h : cheaper first second firstCost secondCost = some (dependent, independent, cost)) :
    dependent = first ∧ independent = second ∨
      dependent = second ∧ independent = first ∧ secondCost.isSome = true := by
  cases firstCost <;> cases secondCost <;> simp only [cheaper] at h
  · cases h
  · cases h
    exact .inr ⟨rfl, rfl, rfl⟩
  · cases h
    exact .inl ⟨rfl, rfl⟩
  · split at h
    · cases h
      exact .inr ⟨rfl, rfl, rfl⟩
    · cases h
      exact .inl ⟨rfl, rfl⟩

theorem eq_of_chooseBySize {threshold : Float} {both : Bool} {first second dependent : NodeId}
    {firstRows secondRows : Option Float}
    (h : chooseBySize threshold both first second firstRows secondRows = some dependent) :
    dependent = first ∨ dependent = second ∧ both = true := by
  cases both <;> cases firstRows <;> cases secondRows <;> simp [chooseBySize] at h
  all_goals grind

theorem eq_of_compared {context : PlanningContext} {plan : Plan} {both : Bool}
    {strategy : JoinStrategy} {first second dependent : NodeId}
    {firstCost secondCost : Option Float} {decision : Decision}
    (asked : secondCost.isSome = true → both = true)
    (h : compared context plan both strategy first second firstCost secondCost = .ok decision)
    (hdependent : decision.dependent? = some dependent) :
    dependent = first ∨ dependent = second ∧ both = true := by
  unfold compared at h
  cases hcosts : cheaper first second firstCost secondCost with
  | some costs =>
      obtain ⟨chosen, other, cost⟩ := costs
      simp only [hcosts, Except.bind_eq_ok_iff] at h
      obtain ⟨ordinary, -, h⟩ := h
      cases h
      cases hdependent
      rcases eq_of_cheaper hcosts with ⟨rfl, -⟩ | ⟨rfl, -, hsecond⟩
      · exact .inl rfl
      · exact .inr ⟨rfl, asked hsecond⟩
  | none =>
      simp only [hcosts, Except.bind_eq_ok_iff] at h
      obtain ⟨firstRows, -, secondRows, -, h⟩ := h
      cases hsize : chooseBySize context.threshold both first second firstRows secondRows with
      | none =>
          rw [hsize] at h
          cases h
          cases hdependent
      | some chosen =>
          rw [hsize] at h
          cases h
          cases hdependent
          exact eq_of_chooseBySize hsize

theorem eq_of_decided {context : PlanningContext} {plan : Plan} {candidate : CandidateJoin}
    {left right dependent : NodeId} {strategy : JoinStrategy} {decision : Decision}
    (eligible : candidate.isEligible = true)
    (h : decided context plan candidate left right strategy = .ok decision)
    (hdependent : decision.dependent? = some dependent) :
    candidate.left = true ∧ dependent = left ∨ candidate.right = true ∧ dependent = right := by
  have chosen : ∀ first second, (dependent = first ∨ dependent = second ∧
      (candidate.left && candidate.right) = true) →
      (first, second) = (if candidate.left = true then (left, right) else (right, left)) →
      candidate.left = true ∧ dependent = left ∨ candidate.right = true ∧ dependent = right := by
    intro first second hdependent hinputs
    simp only [CandidateJoin.isEligible] at eligible
    cases hleft : candidate.left <;> cases hright : candidate.right <;> simp_all
  refine chosen (if candidate.left = true then (left, right) else (right, left)).1
    (if candidate.left = true then (left, right) else (right, left)).2 ?_ rfl
  unfold decided at h
  generalize (if candidate.left = true then (left, right) else (right, left)) = inputs at h ⊢
  simp only at h
  split at h
  · rename_i needed hneeded
    cases h
    cases hdependent
    rcases eq_of_needed hneeded with rfl | hsecond
    · exact .inl rfl
    · right
      split at hsecond
      · exact ⟨(Option.some.inj hsecond).symm, ‹_›⟩
      · cases hsecond
  · simp only [weighed, Except.bind_eq_ok_iff] at h
    obtain ⟨firstCost, -, h⟩ := h
    split at h
    · rename_i hboth
      simp only [Except.bind_eq_ok_iff] at h
      obtain ⟨secondCost, -, h⟩ := h
      exact eq_of_compared (fun _ => hboth) h hdependent
    · exact eq_of_compared (fun hnone => by cases hnone) h hdependent

end ChooseDependent

end FederatedQuery
