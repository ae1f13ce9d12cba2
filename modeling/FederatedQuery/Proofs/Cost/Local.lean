import FederatedQuery.Cost.Cardinality
import FederatedQuery.Proofs.Plan.Unpriced

/-!
# Oracles that look below

Most oracles estimate a node from what lies below it, and never from what they have
estimated before.  The oracle that knows cardinalities is one of them.
-/

namespace FederatedQuery

/-- The answers depend on what lies below the nodes in question, up to recorded costs. -/
structure CostOracle.Local (oracle : CostOracle) : Prop where
  subtreeCost : ∀ {plan other : Plan} {id : NodeId}, plan.Agrees other id →
    oracle.subtreeCost other id = oracle.subtreeCost plan id
  dependentJoinCost : ∀ {plan other : Plan} {join : NodeId}, plan.Agrees other join →
    ∀ side strategy, oracle.dependentJoinCost other join side strategy =
      oracle.dependentJoinCost plan join side strategy
  joinCost : ∀ {plan other : Plan} {independent dependent : NodeId},
    plan.Agrees other independent → plan.Agrees other dependent →
      ∀ strategy, oracle.joinCost other independent dependent strategy =
        oracle.joinCost plan independent dependent strategy

def NodeKind.cardinality? (kind : NodeKind) (inputs : List (Option Float)) : Option Float :=
  match kind with
  | .access payload => payload.cardinality
  | .null => some 0
  | .select _ => inputs[0]?.join.map (· / selectReduction)
  | .join payload => do
      let left ← inputs[0]?.join
      let right ← inputs[1]?.join
      return if payload.joinType == .cross || payload.criteria.isEmpty then left * right
        else largerFloat left right
  | .setOp _ _ => (inputs.mapM fun input => input).map sumFloats
  | .project _ | .sort _ | .group _ | .dupRemove | .source _ => inputs[0]?.join

def PlanTree.cardinality? (tree : PlanTree) : Option Float :=
  tree.fold fun _ kind inputs => kind.cardinality? inputs

theorem PlanTree.cardinality?_unpriced (tree : PlanTree) :
    tree.unpriced.cardinality? = tree.cardinality? := by
  refine fold_unpriced (fun id kind inputs => ?_) tree
  cases kind <;> rfl

namespace Plan

variable {plan other : Plan}

theorem Keeps.cardinalityWithin_eq {parent : Option NodeId} {tree : PlanTree}
    (keeps : plan.Keeps parent tree) {depth : Nat} (deep : tree.height ≤ depth) :
    plan.cardinalityWithin depth tree.id = tree.cardinality? := by
  induction tree generalizing parent depth with
  | node id kind children ih =>
      cases depth with
      | zero => exact absurd deep (Nat.not_le.mpr (PlanTree.height_pos _))
      | succ depth =>
          have below : ∀ child ∈ children,
              plan.cardinalityWithin depth child.id = child.cardinality? := by
            intro child hchild
            have lower := PlanTree.height_lt_of_mem id kind hchild
            exact ih child hchild (keeps.child child hchild) (by omega)
          have hkind : plan.kind? id = some kind := by simp [kind?, keeps.here]
          have hchildren : plan.children id = children.map PlanTree.id := by
            simp [Plan.children, keeps.here]
          -- One level down the depth still exceeds the height, so all children are estimated.
          have all : (children.map PlanTree.id).mapM (plan.cardinalityWithin depth) =
              (children.map PlanTree.cardinality?).mapM fun input => input := by
            have estimates : (children.map PlanTree.id).map (plan.cardinalityWithin depth) =
                children.map PlanTree.cardinality? := by
              rw [List.map_map]
              exact List.map_congr_left below
            rw [← estimates, List.mapM_map, List.mapM_map, List.mapM_map]
            rfl
          have unfolded : (PlanTree.node id kind children).cardinality? =
              kind.cardinality? (children.map PlanTree.cardinality?) := PlanTree.fold_node _ _ _ _
          rw [unfolded]
          simp only [PlanTree.id_node, cardinalityWithin, hkind, hchildren, all]
          cases children with
          | nil => cases kind <;> rfl
          | cons first rest =>
              have hfirst := below first List.mem_cons_self
              cases rest with
              | nil => cases kind <;> simp [NodeKind.cardinality?, hfirst]
              | cons second others =>
                  have hsecond := below second (by simp)
                  cases kind <;> simp [NodeKind.cardinality?, hfirst, hsecond]

theorem Agrees.cardinality?_eq {id : NodeId} (agrees : plan.Agrees other id) :
    other.cardinality? id = plan.cardinality? id := by
  obtain ⟨holds, holds', member, member', same⟩ := agrees
  rename_i sub sub'
  have hid : sub.id = sub'.id := by rw [← sub.id_unpriced, ← same, sub'.id_unpriced]
  obtain ⟨parent, keeps⟩ := holds.keeps_of_mem member
  obtain ⟨parent', keeps'⟩ := holds'.keeps_of_mem member'
  have estimate : plan.cardinality? sub.id = sub.cardinality? :=
    keeps.cardinalityWithin_eq (holds.height_le_size member)
  have estimate' : other.cardinality? sub'.id = sub'.cardinality? :=
    keeps'.cardinalityWithin_eq (holds'.height_le_size member')
  rw [estimate, hid, estimate', ← sub'.cardinality?_unpriced, same, sub.cardinality?_unpriced]

end Plan

theorem cardinalityOracle_local : cardinalityOracle.Local := by
  constructor
  · intro plan other id agrees
    simp only [cardinalityOracle, agrees.cardinality?_eq]
  · intro plan other join agrees side strategy
    have hfirst : other.firstChild? join = plan.firstChild? join := by
      simp only [Plan.firstChild?, agrees.children_eq]
    have hlast : other.lastChild? join = plan.lastChild? join := by
      simp only [Plan.lastChild?, agrees.children_eq]
    have below {child : NodeId} (h : child ∈ plan.children join) :
        other.cardinality? child = plan.cardinality? child := (agrees.child h).cardinality?_eq
    simp only [cardinalityOracle, hfirst, hlast]
    cases hleft : plan.firstChild? join with
    | none => rfl
    | some left =>
        cases hright : plan.lastChild? join with
        | none => rfl
        | some right =>
            have left_eq := below (List.mem_of_head? hleft)
            have right_eq := below (List.mem_of_getLast? hright)
            cases side <;> simp only [left_eq, right_eq]
  · intro plan other independent dependent hindependent hdependent strategy
    simp only [cardinalityOracle, hindependent.cardinality?_eq, hdependent.cardinality?_eq]

end FederatedQuery
