import FederatedQuery.Proofs.Plan.Edits

/-!
# Exchanging the inputs of a join

A join lists its expressions twice, once for each side.  Exchanging the inputs exchanges
the two lists and reverses the type of the join, so every input keeps its expressions and
the part that it plays in the join.  Exchanging the inputs once more restores the plan.
-/

namespace FederatedQuery

/-- The joins are the same but for their type and for the expressions of the two sides. -/
structure JoinNode.Matches (join old : JoinNode) : Prop where
  criteria : join.criteria = old.criteria
  strategy : join.strategy = old.strategy
  valueSource : join.valueSource = old.valueSource
  dependentCost : join.dependentCost = old.dependentCost
  ordinaryCost : join.ordinaryCost = old.ordinaryCost

namespace Plan

def sides (plan : Plan) (id : NodeId) : List (NodeId × List Expr) :=
  match plan.join? id with
  | some join => (plan.children id).zip [join.leftExprs, join.rightExprs]
  | none => []

def sideExprs? (plan : Plan) (id input : NodeId) : Option (List Expr) :=
  (plan.sides id).lookup input

/-- What an exchange of the inputs of a join comes to. -/
structure Exchanges (plan new : Plan) (id left right : NodeId) : Prop where
  inputs : new.children id = [right, left]
  sides : new.sides id = (plan.sides id).reverse
  sideExprs : left ≠ right → ∀ input, new.sideExprs? id input = plan.sideExprs? id input
  innerSide : new.innerSide? id = plan.innerSide? id
  payload : ∃ join old, new.join? id = some join ∧ plan.join? id = some old ∧
    join.joinType = old.joinType.mirrored ∧ join.Matches old
  parent : new.parent? id = plan.parent? id
  others : ∀ other, other ≠ id → new.node? other = plan.node? other
  size : new.size = plan.size
  root : new.root = plan.root
  restores : Plan.swapJoinChildren id new = .ok () plan

theorem eq_of_node?_eq {plan other : Plan} (root : plan.root = other.root)
    (nodes : ∀ id, plan.node? id = other.node? id) : plan = other := by
  obtain ⟨planNodes, _⟩ := plan
  obtain ⟨otherNodes, _⟩ := other
  obtain rfl : planNodes = otherNodes := List.ext_getElem? nodes
  cases root
  rfl

variable {plan : Plan} {id left right : NodeId} {join : JoinNode}

theorem exists_node?_of_join? (found : plan.join? id = some join) :
    ∃ parent children, plan.node? id = some ⟨.join join, parent, children⟩ := by
  obtain ⟨kind, hkind, payload⟩ := Option.bind_eq_some_iff.mp found
  obtain ⟨⟨nodeKind, parent, children⟩, hnode, rfl⟩ := Option.map_eq_some_iff.mp hkind
  cases nodeKind <;> cases payload
  exact ⟨parent, children, hnode⟩

theorem node?_reordered (found : plan.join? id = some join) (inputs : List NodeId)
    (other : NodeId) :
    (plan.reordered id join inputs).node? other =
      if other = id then some ⟨.join join.mirrored, plan.parent? id, inputs⟩
      else plan.node? other := by
  obtain ⟨parent, children, hnode⟩ := exists_node?_of_join? found
  rw [reordered, node?_modify]
  by_cases same : other = id
  · rw [if_pos same, if_pos same, same, hnode, parent?, hnode]
    rfl
  · rw [if_neg same, if_neg same]

theorem reordered_reordered (inputs : plan.children id = [left, right])
    (found : plan.join? id = some join) (between : List NodeId) :
    (plan.reordered id join between).reordered id join.mirrored [left, right] = plan := by
  have middle := node?_reordered found between
  have again : (plan.reordered id join between).join? id = some join.mirrored := by
    rw [join?, kind?, middle, if_pos rfl]
    rfl
  refine eq_of_node?_eq rfl fun other => ?_
  rw [node?_reordered again, JoinNode.mirrored_mirrored, parent?, middle, if_pos rfl]
  by_cases same : other = id
  · obtain ⟨parent, children, hnode⟩ := exists_node?_of_join? found
    have listed : children = [left, right] := by simpa only [Plan.children, hnode] using inputs
    rw [if_pos same, same, hnode, listed, Option.bind_some, parent?, hnode]
    rfl
  · rw [if_neg same, middle, if_neg same]

theorem innerSide?_of_inputs (inputs : plan.children id = [left, right])
    (found : plan.join? id = some join) :
    plan.innerSide? id =
      match join.joinType with
      | .leftOuter => some right
      | .rightOuter => some left
      | .inner | .fullOuter | .cross => none := by
  rw [innerSide?, found]
  cases h : join.joinType <;> simp [h, lastChild?, firstChild?, inputs]

theorem exchanges_reordered (inputs : plan.children id = [left, right])
    (found : plan.join? id = some join) :
    plan.Exchanges (plan.reordered id join [right, left]) id left right := by
  have nodes := node?_reordered found [right, left]
  have here := (nodes id).trans (if_pos rfl)
  have inputs' : (plan.reordered id join [right, left]).children id = [right, left] :=
    children_eq_of_node? here
  have found' : (plan.reordered id join [right, left]).join? id = some join.mirrored := by
    rw [join?, kind?, here]
    rfl
  have sides : (plan.reordered id join [right, left]).sides id = (plan.sides id).reverse := by
    simp [Plan.sides, found, found', inputs, inputs', JoinNode.mirrored]
  refine ⟨inputs', sides, fun distinct input => ?_, ?_, ?_, ?_, fun other ne => ?_,
    size_modify _ _ _, rfl, ?_⟩
  · rw [sideExprs?, sides, sideExprs?, Plan.sides, found, inputs]
    by_cases first : input = left <;> by_cases second : input = right <;> grind
  · rw [innerSide?_of_inputs inputs found, innerSide?_of_inputs inputs' found']
    cases h : join.joinType <;> simp [JoinNode.mirrored, JoinType.mirrored, h]
  · exact ⟨join.mirrored, join, found', found, rfl, rfl, rfl, rfl, rfl, rfl⟩
  · rw [parent?, here]
    rfl
  · rw [nodes, if_neg ne]
  · rw [swapJoinChildren_eq inputs' found', reordered_reordered inputs found]

/-- Exactly the joins with two inputs have these exchanged, and at any other node the plan stays
as it is. -/
theorem swapJoinChildren_exchanges (plan : Plan) (id : NodeId) :
    (∀ left right, (plan.join? id).isSome = true → plan.children id = [left, right] →
      ∃ new, (PlanEdit.swapJoinChildren id).perform plan = .ok () new ∧
        plan.Exchanges new id left right) ∧
    (¬ ((plan.join? id).isSome = true ∧ ∃ left right, plan.children id = [left, right]) →
      ∃ error, (PlanEdit.swapJoinChildren id).perform plan = .error error plan) := by
  constructor
  · intro left right isJoin inputs
    obtain ⟨join, found⟩ := Option.isSome_iff_exists.mp isJoin
    exact ⟨_, swapJoinChildren_eq inputs found, exchanges_reordered inputs found⟩
  · exact swapJoinChildren_eq_error

def outerJoin : Plan :=
  let idOf (group : String) : Expr := .column ⟨.named group, "id", .int64⟩
  ⟨[⟨.join { joinType := .leftOuter, leftExprs := [idOf "pm1.g1"], rightExprs := [idOf "pm2.g1"] },
      none, [1, 2]⟩,
    ⟨.access { group := .named "pm1.g1" }, some 0, []⟩,
    ⟨.access { group := .named "pm2.g1" }, some 0, []⟩], 0⟩

theorem outerJoin_exchanged :
    (∃ new, (PlanEdit.swapJoinChildren 0).perform outerJoin = .ok () new ∧
      new.children 0 = [2, 1] ∧ new.sideExprs? 0 1 = outerJoin.sideExprs? 0 1 ∧
      new.innerSide? 0 = some 2) ∧
    ∃ error, (PlanEdit.swapJoinChildren 1).perform outerJoin = .error error outerJoin := by
  constructor
  · obtain ⟨new, performed, exchanges⟩ :=
      (swapJoinChildren_exchanges outerJoin 0).1 1 2 (by decide) (by decide)
    refine ⟨new, performed, exchanges.inputs, exchanges.sideExprs (by decide) 1, ?_⟩
    rw [exchanges.innerSide]
    decide
  · exact (swapJoinChildren_exchanges outerJoin 1).2 fun isJoin => absurd isJoin.1 (by decide)

def repeatedInput : Plan :=
  ⟨[⟨.join { joinType := .leftOuter }, none, [1, 1]⟩,
    ⟨.access { group := .named "pm1.g1" }, some 0, []⟩], 0⟩

theorem repeatedInput_exchanged :
    (¬ ∃ left right, left ≠ right ∧ repeatedInput.children 0 = [left, right]) ∧
      ∃ new, (PlanEdit.swapJoinChildren 0).perform repeatedInput = .ok () new ∧
        (repeatedInput.join? 0).map (·.joinType) = some .leftOuter ∧
        (new.join? 0).map (·.joinType) = some .rightOuter := by
  refine ⟨?_, _, rfl, rfl, rfl⟩
  rintro ⟨left, right, distinct, inputs⟩
  obtain ⟨rfl, same⟩ := List.cons.inj inputs
  exact distinct (List.cons.inj same).1

end Plan

end FederatedQuery
