import FederatedQuery.Proofs.Cost.Local
import FederatedQuery.Proofs.Plan.Linked

/-!
# Unknown estimates

The estimate of a node is made of those of its inputs: both of a join, all of a set operation,
and the one below any other node.  Going down these inputs ends at accesses, at empty results
and at sources without a plan.  What is not known there is never filled in: the node's own
estimate is unknown just if one of these ends has no estimate, whatever the others have.
-/

namespace FederatedQuery

def NodeKind.counted {α : Type} (kind : NodeKind) (inputs : List α) : List α :=
  match kind with
  | .join _ | .setOp _ _ => inputs
  | .select _ | .project _ | .sort _ | .group _ | .dupRemove | .source _ => inputs.take 1
  | .access _ | .null => []

def NodeKind.endsCount (kind : NodeKind) (childless : Bool) : Bool :=
  match kind with
  | .access _ | .null => true
  | .source _ => childless
  | .join _ | .select _ | .project _ | .sort _ | .group _ | .setOp _ _ | .dupRemove => false

def NodeKind.isUnestimated (kind : NodeKind) (childless : Bool) : Bool :=
  match kind with
  | .access payload => payload.cardinality.isNone
  | .source _ => childless
  | _ => false

namespace Plan

variable {plan : Plan} {id leaf : NodeId}

/-- The second node is an end of the inputs that the estimate of the first is made of. -/
inductive Frontier (plan : Plan) : NodeId → NodeId → Prop
  | here {id : NodeId} {kind : NodeKind} (found : plan.kind? id = some kind)
      (ends : kind.endsCount (plan.children id).isEmpty = true) : Frontier plan id id
  | through {id input leaf : NodeId} {kind : NodeKind} (found : plan.kind? id = some kind)
      (counted : input ∈ kind.counted (plan.children id)) (further : Frontier plan input leaf) :
      Frontier plan id leaf

def Unestimated (plan : Plan) (id : NodeId) : Prop :=
  ∃ kind, plan.kind? id = some kind ∧ kind.isUnestimated (plan.children id).isEmpty = true

end Plan

theorem mapM_eq_none_iff (inputs : List (Option Float)) :
    inputs.mapM (fun input => input) = none ↔ none ∈ inputs := by
  induction inputs with
  | nil => simp
  | cons input rest ih =>
      cases input with
      | none => simp
      | some rows =>
          rw [List.mapM_cons]
          cases known : rest.mapM fun input => input <;> simp [known, ← ih]

/-- Whatever the inputs are combined with, one that is unknown leaves the node unknown. -/
theorem NodeKind.cardinality?_eq_none_iff {kind : NodeKind} {inputs : List (Option Float)}
    (fits : kind.Fits inputs.length) :
    kind.cardinality? inputs = none ↔
      kind.isUnestimated inputs.isEmpty = true ∨ none ∈ kind.counted inputs := by
  cases kind with
  | access payload => simp [cardinality?, isUnestimated, counted]
  | null => simp [cardinality?, isUnestimated, counted]
  | setOp operation all => simp [cardinality?, isUnestimated, counted, mapM_eq_none_iff]
  | join payload =>
      obtain ⟨left, right, rfl⟩ := List.length_eq_two.mp (fits.arity 2 rfl)
      cases left <;> cases right <;> simp [cardinality?, isUnestimated, counted]
  | source symbol =>
      cases inputs with
      | nil => simp [cardinality?, isUnestimated]
      | cons first rest => cases first <;> simp [cardinality?, isUnestimated, counted]
  | select | project | sort | group | dupRemove =>
      obtain ⟨input, rfl⟩ := List.length_eq_one_iff.mp (fits.arity 1 rfl)
      cases input <;> simp [cardinality?, isUnestimated, counted]

theorem NodeKind.counted_map {α β : Type} (kind : NodeKind) (image : α → β) (inputs : List α) :
    kind.counted (inputs.map image) = (kind.counted inputs).map image := by
  cases kind <;> simp [counted, List.map_take]

theorem NodeKind.counted_subset {α : Type} (kind : NodeKind) (inputs : List α) :
    kind.counted inputs ⊆ inputs := by
  cases kind <;> simp [counted, List.take_subset]

theorem NodeKind.endsCount_of_isUnestimated {kind : NodeKind} {childless : Bool}
    (unestimated : kind.isUnestimated childless = true) : kind.endsCount childless = true := by
  cases kind <;> simp_all [isUnestimated, endsCount]

namespace Plan

variable {plan : Plan} {tree sub : PlanTree} {id leaf : NodeId} {kind : NodeKind}

theorem Holds.unestimated_iff (holds : plan.Holds tree) (member : sub ∈ tree.subtrees) :
    plan.Unestimated sub.id ↔ sub.kind.isUnestimated sub.children.isEmpty = true := by
  simp [Unestimated, holds.kind?_eq member, holds.children_eq member]

theorem Holds.frontier_iff (holds : plan.Holds tree) (member : sub ∈ tree.subtrees) :
    plan.Frontier sub.id leaf ↔
      (leaf = sub.id ∧ sub.kind.endsCount sub.children.isEmpty = true) ∨
        ∃ child ∈ sub.kind.counted sub.children, plan.Frontier child.id leaf := by
  have found := holds.kind?_eq member
  have children := holds.children_eq member
  constructor
  · intro frontier
    cases frontier with
    | here found' ends =>
        obtain rfl := Option.some.inj (found.symm.trans found')
        exact .inl ⟨rfl, by simpa [children] using ends⟩
    | through found' counted further =>
        obtain rfl := Option.some.inj (found.symm.trans found')
        rw [children, NodeKind.counted_map] at counted
        obtain ⟨child, hchild, rfl⟩ := List.mem_map.mp counted
        exact .inr ⟨child, hchild, further⟩
  · rintro (⟨rfl, ends⟩ | ⟨child, counted, further⟩)
    · exact .here found (by simpa [children] using ends)
    · refine .through found ?_ further
      rw [children, NodeKind.counted_map]
      exact List.mem_map_of_mem counted

theorem Holds.cardinality?_eq (holds : plan.Holds tree) (member : sub ∈ tree.subtrees) :
    plan.cardinality? sub.id = sub.cardinality? := by
  obtain ⟨parent, keeps⟩ := holds.keeps_of_mem member
  exact keeps.cardinalityWithin_eq (holds.height_le_size member)

theorem Holds.cardinality?_eq_none_iff (holds : plan.Holds tree) (shaped : tree.WellShaped)
    (member : sub ∈ tree.subtrees) :
    sub.cardinality? = none ↔ ∃ leaf, plan.Frontier sub.id leaf ∧ plan.Unestimated leaf := by
  induction sub with
  | node id kind children ih =>
      have unfolded : (PlanTree.node id kind children).cardinality? =
          kind.cardinality? (children.map PlanTree.cardinality?) := PlanTree.fold_node _ _ _ _
      have fits : kind.Fits (children.map PlanTree.cardinality?).length := by
        simpa using shaped _ member
      have known {child : PlanTree} (counted : child ∈ kind.counted children) :=
        ih child (kind.counted_subset children counted)
          (PlanTree.child_mem_subtrees member (kind.counted_subset children counted))
      rw [unfolded, NodeKind.cardinality?_eq_none_iff fits, List.isEmpty_map, kind.counted_map]
      constructor
      · rintro (here | unknown)
        · have ends := NodeKind.endsCount_of_isUnestimated here
          exact ⟨id, (holds.frontier_iff member).mpr (.inl ⟨rfl, ends⟩),
            (holds.unestimated_iff member).mpr here⟩
        · obtain ⟨child, counted, none_eq⟩ := List.mem_map.mp unknown
          obtain ⟨leaf, further, unestimated⟩ := (known counted).mp none_eq
          exact ⟨leaf, (holds.frontier_iff member).mpr (.inr ⟨child, counted, further⟩),
            unestimated⟩
      · rintro ⟨leaf, frontier, unestimated⟩
        rcases (holds.frontier_iff member).mp frontier with ⟨rfl, -⟩ | ⟨child, counted, further⟩
        · exact .inl ((holds.unestimated_iff member).mp unestimated)
        · exact .inr (List.mem_map.mpr
            ⟨child, counted, (known counted).mpr ⟨leaf, further, unestimated⟩⟩)

end Plan

section

variable {plan : Plan}

theorem subtreeCost_eq_none_iff (plan : Plan) (id : NodeId) :
    cardinalityOracle.subtreeCost plan id = .ok none ↔ plan.cardinality? id = none := by
  simp [cardinalityOracle]

theorem dependentJoinCost_eq_none_iff {join left right : NodeId}
    (inputs : plan.children join = [left, right]) (side : Side) (strategy : JoinStrategy) :
    cardinalityOracle.dependentJoinCost plan join side strategy = .ok none ↔
      plan.cardinality? left = none ∨ plan.cardinality? right = none := by
  have first : plan.firstChild? join = some left := by simp [Plan.firstChild?, inputs]
  have last : plan.lastChild? join = some right := by simp [Plan.lastChild?, inputs]
  simp only [cardinalityOracle, first, last]
  cases side <;> cases plan.cardinality? left <;> cases plan.cardinality? right <;> simp

theorem joinCost_eq_error_iff {first second : NodeId} (strategy : JoinStrategy) :
    (∃ error, cardinalityOracle.joinCost plan first second strategy = .error error) ↔
      plan.cardinality? first = none ∨ plan.cardinality? second = none := by
  simp only [cardinalityOracle]
  cases plan.cardinality? first <;> cases plan.cardinality? second <;> simp

/-- The estimate of a node is unknown just if one of the ends below it has none, a dependent
join costs an unknown amount just if one of its inputs does, and an ordinary join cannot be
estimated just if one of the two nodes cannot. -/
theorem cardinalityOracle_unknown_iff (accepted : plan.Accepted) :
    (∀ id, plan.Reached id →
      (cardinalityOracle.subtreeCost plan id = .ok none ↔
        ∃ leaf, plan.Frontier id leaf ∧ plan.Unestimated leaf)) ∧
    (∀ join, plan.Reached join → plan.nodeType? join = some .join → ∀ side strategy,
      (cardinalityOracle.dependentJoinCost plan join side strategy = .ok none ↔
        ∃ input ∈ plan.children join, cardinalityOracle.subtreeCost plan input = .ok none)) ∧
    ∀ first second strategy,
      (∃ error, cardinalityOracle.joinCost plan first second strategy = .error error) ↔
        cardinalityOracle.subtreeCost plan first = .ok none ∨
          cardinalityOracle.subtreeCost plan second = .ok none := by
  obtain ⟨holds, shaped⟩ := accepted.holds
  simp only [subtreeCost_eq_none_iff]
  refine ⟨fun id reached => ?_, fun join reached isJoin side strategy => ?_,
    fun first second strategy => joinCost_eq_error_iff strategy⟩
  · obtain ⟨sub, member, rfl, -⟩ := holds.exists_of_reached reached
    rw [holds.cardinality?_eq member]
    exact holds.cardinality?_eq_none_iff shaped member
  · obtain ⟨sub, member, rfl, children⟩ := holds.exists_of_reached reached
    have two : sub.children.length = 2 := by
      refine (shaped sub member).arity 2 ?_
      have type : sub.kind.nodeType = .join := by
        simpa [Plan.nodeType?, holds.kind?_eq member] using isJoin
      rw [type]
      rfl
    obtain ⟨left, right, pair⟩ := List.length_eq_two.mp two
    have inputs : plan.children sub.id = [left.id, right.id] := by simp [children, pair]
    rw [dependentJoinCost_eq_none_iff inputs, inputs]
    simp

def emptyBesideUnknown : Plan :=
  ⟨[⟨.join { joinType := .cross }, none, [1, 2]⟩, ⟨.null, some 0, []⟩,
    ⟨.setOp .union true, some 0, [3, 4]⟩,
    ⟨.access { group := .named "pm1.g1", cardinality := some 6 }, some 2, []⟩,
    ⟨.source (.named "vm1.g1"), some 2, []⟩], 0⟩

theorem emptyBesideUnknown_unknown :
    emptyBesideUnknown.Accepted ∧
      cardinalityOracle.subtreeCost emptyBesideUnknown 0 = .ok none ∧
      cardinalityOracle.dependentJoinCost emptyBesideUnknown 0 .right .merge = .ok none ∧
      ∃ error, cardinalityOracle.joinCost emptyBesideUnknown 1 2 .merge = .error error := by
  have accepted : emptyBesideUnknown.Accepted := .of_links (by decide) (by decide) (by decide)
  obtain ⟨subtrees, joins, pairs⟩ := cardinalityOracle_unknown_iff accepted
  have source : emptyBesideUnknown.Frontier 4 4 := .here rfl rfl
  have union : emptyBesideUnknown.Frontier 2 4 := .through rfl (.tail _ (.head _)) source
  have unestimated : emptyBesideUnknown.Unestimated 4 := ⟨_, rfl, rfl⟩
  have unknown : cardinalityOracle.subtreeCost emptyBesideUnknown 2 = .ok none :=
    (subtrees 2 (.child .root (.tail _ (.head _)))).mpr ⟨4, union, unestimated⟩
  refine ⟨accepted, (subtrees 0 .root).mpr ⟨4, .through rfl (.tail _ (.head _)) union, unestimated⟩,
    (joins 0 .root rfl .right .merge).mpr ⟨2, .tail _ (.head _), unknown⟩, ?_⟩
  exact (pairs 1 2 .merge).mpr (.inr unknown)

end

end FederatedQuery
