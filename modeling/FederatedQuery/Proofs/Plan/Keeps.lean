import FederatedQuery.Proofs.Plan.Context
import Mathlib.Data.List.Perm.Subperm

/-!
# Trees kept in an arena

An arena holds a tree if every node of the tree lies at its position with the kind,
the parent and the children that the tree gives it.  The tree is then the one that
is read off from the root, and it is never deeper than the arena is large.
-/

namespace FederatedQuery

/-- The nodes of a tree lie in the arena, and its root records the given parent. -/
inductive Plan.Keeps (plan : Plan) : Option NodeId → PlanTree → Prop
  | node {parent : Option NodeId} {id : NodeId} {kind : NodeKind} {children : List PlanTree}
      (here : plan.node? id = some ⟨kind, parent, children.map PlanTree.id⟩)
      (below : ∀ child ∈ children, plan.Keeps (some id) child) :
      plan.Keeps parent (.node id kind children)

def Plan.KeepsFrames (plan : Plan) : List Frame → NodeId → Prop
  | [], _ => True
  | frame :: rest, hole =>
      plan.node? frame.id =
          some ⟨frame.kind, Frame.parent? rest,
            frame.left.map PlanTree.id ++ hole :: frame.right.map PlanTree.id⟩ ∧
        (∀ side ∈ frame.sides, plan.Keeps (some frame.id) side) ∧
        plan.KeepsFrames rest frame.id

/-- The arena holds exactly this tree below its root. -/
structure Plan.Holds (plan : Plan) (tree : PlanTree) : Prop where
  keeps : plan.Keeps none tree
  root : plan.root = tree.id
  nodup : tree.ids.Nodup

namespace Plan

def treeWithin (plan : Plan) : Nat → NodeId → PlanTree
  | 0, id => .node id .null []
  | depth + 1, id =>
      match plan.node? id with
      | some node => .node id node.kind (node.children.map (plan.treeWithin depth))
      | none => .node id .null []

def treeAt (plan : Plan) (id : NodeId) : PlanTree := plan.treeWithin plan.size id

def tree (plan : Plan) : PlanTree := plan.treeAt plan.root

theorem exists_node?_of_lt {plan : Plan} {id : NodeId} (inside : id < plan.size) :
    ∃ node, plan.node? id = some node :=
  ⟨_, List.getElem?_eq_getElem inside⟩

theorem node?_eq_none {plan : Plan} {id : NodeId} (outside : plan.size ≤ id) :
    plan.node? id = none :=
  List.getElem?_eq_none outside

theorem children_eq_of_node? {plan : Plan} {id : NodeId} {node : PlanNode}
    (found : plan.node? id = some node) : plan.children id = node.children := by
  simp only [Plan.children, found]

theorem node?_lt_size {plan : Plan} {id : NodeId} {node : PlanNode}
    (found : plan.node? id = some node) : id < plan.size :=
  (List.getElem?_eq_some_iff.mp found).1

namespace Keeps

variable {plan : Plan} {parent : Option NodeId} {tree : PlanTree}

theorem here {id : NodeId} {kind : NodeKind} {children : List PlanTree}
    (keeps : plan.Keeps parent (.node id kind children)) :
    plan.node? id = some ⟨kind, parent, children.map PlanTree.id⟩ := by
  cases keeps
  assumption

theorem child {id : NodeId} {kind : NodeKind} {children : List PlanTree}
    (keeps : plan.Keeps parent (.node id kind children)) :
    ∀ child ∈ children, plan.Keeps (some id) child := by
  cases keeps
  assumption

theorem node?_id (keeps : plan.Keeps parent tree) :
    plan.node? tree.id = some ⟨tree.kind, parent, tree.children.map PlanTree.id⟩ := by
  cases tree
  exact keeps.here

theorem exists_of_mem_subtrees (keeps : plan.Keeps parent tree) {sub : PlanTree}
    (member : sub ∈ tree.subtrees) : ∃ above, plan.Keeps above sub := by
  induction tree generalizing parent with
  | node id kind children ih =>
      rw [PlanTree.subtrees_node, List.mem_cons, List.mem_flatMap] at member
      rcases member with rfl | ⟨child, hchild, member⟩
      · exact ⟨parent, keeps⟩
      · exact ih child hchild (keeps.child child hchild) member

theorem congr {other : Plan} (keeps : plan.Keeps parent tree)
    (same : ∀ id ∈ tree.ids, other.node? id = plan.node? id) : other.Keeps parent tree := by
  induction tree generalizing parent with
  | node id kind children ih =>
      refine .node ?_ fun child hchild => ?_
      · rw [same id (by simp)]
        exact keeps.here
      · refine ih child hchild (keeps.child child hchild) fun position hposition => ?_
        exact same position (PlanTree.mem_ids_of_child hchild hposition)

theorem lt_size (keeps : plan.Keeps parent tree) {id : NodeId} (member : id ∈ tree.ids) :
    id < plan.size := by
  obtain ⟨sub, hsub, rfl⟩ := List.mem_map.mp member
  obtain ⟨above, hkeeps⟩ := keeps.exists_of_mem_subtrees hsub
  exact node?_lt_size hkeeps.node?_id

end Keeps

theorem keeps_fill_iff {plan : Plan} {parent : Option NodeId} {frame : Frame}
    {tree : PlanTree} :
    plan.Keeps parent (frame.fill tree) ↔
      plan.node? frame.id =
          some ⟨frame.kind, parent,
            frame.left.map PlanTree.id ++ tree.id :: frame.right.map PlanTree.id⟩ ∧
        (∀ side ∈ frame.sides, plan.Keeps (some frame.id) side) ∧
        plan.Keeps (some frame.id) tree := by
  constructor
  · intro keeps
    refine ⟨?_, fun side hside => ?_, ?_⟩
    · simpa using keeps.here
    · apply keeps.child
      simp only [Frame.sides, List.mem_append, List.mem_cons] at hside ⊢
      tauto
    · exact keeps.child tree (by simp)
  · rintro ⟨here, sides, inner⟩
    refine .node (by simpa using here) fun child hchild => ?_
    simp only [Frame.sides, List.mem_append, List.mem_cons] at sides hchild
    rcases hchild with hchild | rfl | hchild
    · exact sides child (.inl hchild)
    · exact inner
    · exact sides child (.inr hchild)

theorem keeps_within_iff {plan : Plan} {tree : PlanTree} {frames : List Frame} :
    plan.Keeps none (tree.within frames) ↔
      plan.KeepsFrames frames tree.id ∧ plan.Keeps (Frame.parent? frames) tree := by
  induction frames generalizing tree with
  | nil => simp [KeepsFrames]
  | cons frame rest ih =>
      rw [PlanTree.within_cons, ih, keeps_fill_iff, Frame.id_fill, KeepsFrames,
        Frame.parent?_cons]
      tauto

theorem KeepsFrames.congr {plan other : Plan} {frames : List Frame} {hole : NodeId}
    (keeps : plan.KeepsFrames frames hole)
    (same : ∀ id ∈ Frame.outerIds frames, other.node? id = plan.node? id) :
    other.KeepsFrames frames hole := by
  induction frames generalizing hole with
  | nil => trivial
  | cons frame rest ih =>
      obtain ⟨here, sides, outer⟩ := keeps
      refine ⟨?_, fun side hside => (sides side hside).congr fun id hid => ?_, ih outer ?_⟩
      · rw [same frame.id (by simp [Frame.ids]), here]
      · apply same
        rw [Frame.outerIds_cons, List.mem_append, Frame.ids, List.mem_cons, List.mem_flatMap]
        exact .inl (.inr ⟨side, hside, hid⟩)
      · intro id hid
        exact same id (by rw [Frame.outerIds_cons]; exact List.mem_append_right _ hid)

end Plan

end FederatedQuery
