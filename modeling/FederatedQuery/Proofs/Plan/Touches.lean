import FederatedQuery.Proofs.Plan.Surgery
import FederatedQuery.Proofs.Plan.Unpriced

/-!
# What surgery touches

Some changes of an arena are known by the joins they are about: every other node is
left as it is, but for its costs, or it is an input of such a join that has come to
stand below a new filter.  This speaks of the whole arena, so also of nodes that are
not reached.
-/

namespace FederatedQuery

/-- What may have become of a node when changes were about `joins` and made nodes `fresh`. -/
inductive PlanNode.Change (joins fresh : NodeId → Prop) (id : NodeId) (node after : PlanNode) :
    Prop
  | left (same : after.unpriced = node.unpriced)
  | changed (join : joins id)
  | relinked {above filter : NodeId} (parent : node.parent = some above) (join : joins above)
      (inserted : fresh filter)
      (same : after.unpriced = { node.unpriced with parent := some filter })

namespace Plan

/-- The plans differ in joins of one kind, in their inputs and in new filters of one kind. -/
structure Touches (old new : Plan) (joins : NodeId → Prop) (filters : SelectNode → Prop) :
    Prop where
  root : new.root = old.root
  grows : old.size ≤ new.size
  nodes : ∀ ⦃id node⦄, old.node? id = some node → ∃ after, new.node? id = some after ∧
    PlanNode.Change joins (fun filter => old.size ≤ filter ∧ filter < new.size) id node after
  added : ∀ ⦃id⦄, old.size ≤ id → id < new.size →
    ∃ select, new.select? id = some select ∧ filters select

theorem join?_lt_size {plan : Plan} {id : NodeId} {join : JoinNode}
    (found : plan.join? id = some join) : id < plan.size := by
  by_contra outside
  rw [join?, kind?, node?_eq_none (Nat.not_lt.mp outside)] at found
  cases found

theorem parent?_lt_size {plan : Plan} {id above : NodeId} (parent : plan.parent? id = some above) :
    id < plan.size := by
  by_contra outside
  rw [parent?, node?_eq_none (Nat.not_lt.mp outside)] at parent
  cases parent

theorem join?_setKind {plan : Plan} {id : NodeId} {join : JoinNode}
    (found : plan.join? id = some join) (payload : JoinNode) :
    (plan.setKind id (.join payload)).join? id = some payload := by
  obtain ⟨node, hnode⟩ := exists_node?_of_lt (join?_lt_size found)
  rw [join?, kind?, setKind, node?_modify, if_pos rfl, hnode]
  rfl

theorem parent?_setKind (plan : Plan) (id : NodeId) (kind : NodeKind) (other : NodeId) :
    (plan.setKind id kind).parent? other = plan.parent? other := by
  rw [parent?, setKind, node?_modify, parent?]
  by_cases h : other = id
  · rw [if_pos h]
    cases plan.node? other <;> rfl
  · rw [if_neg h]

namespace Touches

variable {old middle new : Plan} {joins joins' : NodeId → Prop}
  {filters filters' : SelectNode → Prop} {id : NodeId}

theorem mono (touches : old.Touches new joins filters) (weaker : ∀ id, joins id → joins' id)
    (weaker' : ∀ select, filters select → filters' select) : old.Touches new joins' filters' := by
  refine ⟨touches.root, touches.grows, fun id node found => ?_, fun id hold hnew => ?_⟩
  · obtain ⟨after, hafter, change⟩ := touches.nodes found
    refine ⟨after, hafter, ?_⟩
    cases change with
    | left same => exact .left same
    | changed join => exact .changed (weaker _ join)
    | relinked parent join inserted same => exact .relinked parent (weaker _ join) inserted same
  · obtain ⟨select, hselect, hfilters⟩ := touches.added hold hnew
    exact ⟨select, hselect, weaker' select hfilters⟩

theorem of_unpriced_eq (same : new.unpriced = old.unpriced) : old.Touches new joins filters := by
  obtain ⟨root, nodes⟩ := unpriced_eq_iff.mp same
  have size := size_eq_of_unpriced_eq same
  refine ⟨root, Nat.le_of_eq size.symm, fun id node found => ?_, fun id hold hnew => ?_⟩
  · have h := nodes id
    rw [found, Option.map_some, Option.map_eq_some_iff] at h
    obtain ⟨after, hafter, hsame⟩ := h
    exact ⟨after, hafter, .left hsame⟩
  · omega

theorem kind_eq (touches : old.Touches new joins filters) (untouched : ¬ joins id)
    (inside : id < old.size) :
    (new.kind? id).map NodeKind.unpriced = (old.kind? id).map NodeKind.unpriced := by
  obtain ⟨node, found⟩ := exists_node?_of_lt inside
  obtain ⟨after, hafter, change⟩ := touches.nodes found
  have same : after.kind.unpriced = node.kind.unpriced := by
    cases change with
    | left same => exact congrArg PlanNode.kind same
    | changed join => exact absurd join untouched
    | relinked _ _ _ same => exact congrArg PlanNode.kind same
  simp only [kind?, found, hafter, Option.map_some, same]

theorem select?_eq (touches : old.Touches new joins filters) (untouched : ¬ joins id)
    (inside : id < old.size) : new.select? id = old.select? id := by
  have select (plan : Plan) :
      plan.select? id = ((plan.kind? id).map NodeKind.unpriced).bind NodeKind.select? := by
    rw [Option.bind_map, Plan.select?]
    exact congrArg _ (funext fun kind => kind.select?_unpriced.symm)
  rw [select, select, touches.kind_eq untouched inside]

theorem join?_eq (touches : old.Touches new joins filters) (untouched : ¬ joins id)
    (inside : id < old.size) :
    (new.join? id).map JoinNode.unpriced = (old.join? id).map JoinNode.unpriced := by
  have join (plan : Plan) : (plan.join? id).map JoinNode.unpriced =
      ((plan.kind? id).map NodeKind.unpriced).bind NodeKind.join? := by
    rw [Option.bind_map, Plan.join?, Option.map_bind]
    exact congrArg _ (funext fun kind => kind.join?_unpriced.symm)
  rw [join, join, touches.kind_eq untouched inside]

theorem trans (first : old.Touches middle joins filters) (second : middle.Touches new joins filters)
    (inside : ∀ id, joins id → id < old.size) : old.Touches new joins filters := by
  refine ⟨second.root.trans first.root, Nat.le_trans first.grows second.grows,
    fun id node found => ?_, fun id hold hnew => ?_⟩
  · obtain ⟨between, hbetween, change⟩ := first.nodes found
    obtain ⟨after, hafter, change'⟩ := second.nodes hbetween
    refine ⟨after, hafter, ?_⟩
    cases change with
    | changed join => exact .changed join
    | left same =>
        cases change' with
        | left same' => exact .left (same'.trans same)
        | changed join => exact .changed join
        | relinked parent join inserted same' =>
            have hparent : node.parent = between.parent := (congrArg PlanNode.parent same).symm
            exact .relinked (hparent.trans parent) join
              ⟨Nat.le_trans first.grows inserted.1, inserted.2⟩ (by rw [same', same])
    | relinked parent join inserted same =>
        cases change' with
        | left same' =>
            exact .relinked parent join ⟨inserted.1, Nat.lt_of_lt_of_le inserted.2 second.grows⟩
              (same'.trans same)
        | changed join => exact .changed join
        | relinked parent' join' =>
            have hparent := congrArg PlanNode.parent same
            cases parent'.symm.trans hparent
            exact absurd (inside _ join') (Nat.not_lt.mpr inserted.1)
  · by_cases h : id < middle.size
    · obtain ⟨select, hselect, hfilters⟩ := first.added hold h
      have untouched : ¬ joins id := fun join => absurd (inside id join) (Nat.not_lt.mpr hold)
      exact ⟨select, (second.select?_eq untouched h).trans hselect, hfilters⟩
    · exact second.added (Nat.not_lt.mp h) hnew

end Touches

/-! ## Operations -/

variable {plan : Plan} {id child : NodeId} {filters : SelectNode → Prop}

theorem touches_modify (plan : Plan) (id : NodeId) (change : PlanNode → PlanNode) :
    plan.Touches (plan.modify id change) (· = id) filters := by
  refine ⟨rfl, Nat.le_of_eq (size_modify _ _ _).symm, fun other node found => ?_,
    fun other hold hnew => ?_⟩
  · rw [node?_modify, found]
    by_cases h : other = id
    · exact ⟨change node, by simp [h], .changed h⟩
    · exact ⟨node, by simp [h], .left rfl⟩
  · rw [size_modify] at hnew
    omega

theorem touches_addAsParent {select : SelectNode} (parent : plan.parent? child = some id)
    (inside : id < plan.size) (ne : id ≠ child) (wanted : filters select) :
    plan.Touches (plan.addAsParent child (.select select)).1 (· = id) filters := by
  have hchild := parent?_lt_size parent
  refine ⟨?_, by simp, fun other node found => ?_, fun other hold hnew => ?_⟩
  · rw [root_addAsParent, if_neg (by simp [parent])]
  · have ne_new : other ≠ plan.size := Nat.ne_of_lt (node?_lt_size found)
    by_cases hother : other = child
    · subst hother
      have ne_parent : some other ≠ plan.parent? other := by simpa [parent] using ne.symm
      have above : node.parent = some id := by simpa [parent?, found] using parent
      refine ⟨{ node with parent := some plan.size }, ?_, .relinked above rfl ?_ rfl⟩
      · rw [node?_addAsParent_child _ ne_new ne_parent, found]
        rfl
      · simp
    · rw [node?_addAsParent _ hother ne_new, parent, found]
      by_cases hid : other = id
      · exact ⟨node.relinked child plan.size, by simp [hid], .changed hid⟩
      · exact ⟨node, by simp [hid], .left rfl⟩
  · rw [size_addAsParent] at hnew
    obtain rfl : other = plan.size := by omega
    refine ⟨select, ?_, wanted⟩
    rw [select?, kind?, node?_addAsParent_new _ (Nat.ne_of_gt hchild)
      (by simpa [parent] using Nat.ne_of_gt inside)]
    rfl

end Plan

end FederatedQuery
