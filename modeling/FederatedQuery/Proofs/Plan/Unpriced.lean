import FederatedQuery.Proofs.Plan.Search

/-!
# Trees without recorded costs

Joins record what was estimated for them.  Nothing that a plan means depends on that,
so trees and plans are compared up to these costs.
-/

namespace FederatedQuery

universe u

def JoinNode.unpriced (join : JoinNode) : JoinNode :=
  { join with dependentCost := none, ordinaryCost := none }

theorem JoinNode.valueSource_of_unpriced_eq {join other : JoinNode}
    (same : other.unpriced = join.unpriced) : other.valueSource = join.valueSource := by
  have h := congrArg JoinNode.valueSource same
  exact h

def NodeKind.unpriced : NodeKind → NodeKind
  | .join payload => .join payload.unpriced
  | kind => kind

@[simp] theorem NodeKind.access?_unpriced (kind : NodeKind) :
    kind.unpriced.access? = kind.access? := by
  cases kind <;> rfl

@[simp] theorem NodeKind.select?_unpriced (kind : NodeKind) :
    kind.unpriced.select? = kind.select? := by
  cases kind <;> rfl

@[simp] theorem NodeKind.join?_unpriced (kind : NodeKind) :
    kind.unpriced.join? = kind.join?.map JoinNode.unpriced := by
  cases kind <;> rfl

namespace PlanTree

def unpriced (tree : PlanTree) : PlanTree :=
  tree.fold fun id kind children => .node id kind.unpriced children

@[simp] theorem unpriced_node (id : NodeId) (kind : NodeKind) (children : List PlanTree) :
    (PlanTree.node id kind children).unpriced =
      .node id kind.unpriced (children.map unpriced) :=
  fold_node _ _ _ _

@[simp] theorem id_unpriced (tree : PlanTree) : tree.unpriced.id = tree.id := by
  cases tree
  rw [unpriced_node]
  rfl

@[simp] theorem kind_unpriced (tree : PlanTree) : tree.unpriced.kind = tree.kind.unpriced := by
  cases tree
  rw [unpriced_node]
  rfl

@[simp] theorem children_unpriced (tree : PlanTree) :
    tree.unpriced.children = tree.children.map unpriced := by
  cases tree
  rw [unpriced_node]
  rfl

theorem subtrees_unpriced (tree : PlanTree) :
    tree.unpriced.subtrees = tree.subtrees.map unpriced := by
  induction tree with
  | node id kind children ih =>
      rw [unpriced_node, subtrees_node, subtrees_node, List.map_cons, unpriced_node,
        List.flatMap_map, List.map_flatMap]
      congr 1
      exact List.flatMap_congr ih

theorem ids_unpriced (tree : PlanTree) : tree.unpriced.ids = tree.ids := by
  rw [ids, subtrees_unpriced, List.map_map, ids]
  exact List.map_congr_left fun sub _ => sub.id_unpriced

theorem descend_unpriced {step : NodeKind → Bool} (same : ∀ kind, step kind.unpriced = step kind)
    (tree : PlanTree) : tree.unpriced.descend step = (tree.descend step).unpriced := by
  induction tree with
  | node id kind children ih =>
      cases children with
      | nil => rw [unpriced_node, List.map_nil, descend, descend, unpriced_node, List.map_nil]
      | cons child rest =>
          rw [unpriced_node, List.map_cons, descend, descend, same]
          cases step kind with
          | true => exact ih child List.mem_cons_self
          | false => rw [if_neg Bool.false_ne_true, if_neg Bool.false_ne_true, unpriced_node,
              List.map_cons]

theorem source_unpriced (tree : PlanTree) : tree.unpriced.source = tree.source.unpriced :=
  descend_unpriced (fun kind => by cases kind <;> rfl) tree

theorem fold_unpriced {α : Type u} {combine : NodeId → NodeKind → List α → α}
    (same : ∀ id kind inputs, combine id kind.unpriced inputs = combine id kind inputs)
    (tree : PlanTree) : tree.unpriced.fold combine = tree.fold combine := by
  induction tree with
  | node id kind children ih =>
      rw [unpriced_node, fold_node, fold_node, same, List.map_map]
      congr 1
      exact List.map_congr_left ih

end PlanTree

def PlanNode.unpriced (node : PlanNode) : PlanNode := { node with kind := node.kind.unpriced }

namespace Plan

variable {plan other : Plan} {tree : PlanTree}

def unpriced (plan : Plan) : Plan := { plan with nodes := plan.nodes.map PlanNode.unpriced }

theorem node?_unpriced (plan : Plan) (id : NodeId) :
    plan.unpriced.node? id = (plan.node? id).map PlanNode.unpriced := List.getElem?_map

theorem unpriced_eq_iff : other.unpriced = plan.unpriced ↔
    other.root = plan.root ∧
      ∀ id, (other.node? id).map PlanNode.unpriced = (plan.node? id).map PlanNode.unpriced := by
  constructor
  · intro same
    have root := congrArg Plan.root same
    refine ⟨root, fun id => ?_⟩
    rw [← node?_unpriced, same, node?_unpriced]
  · rintro ⟨root, same⟩
    have nodes : other.nodes.map PlanNode.unpriced = plan.nodes.map PlanNode.unpriced := by
      refine List.ext_getElem? fun id => ?_
      rw [List.getElem?_map, List.getElem?_map]
      exact same id
    rw [unpriced, unpriced, nodes, root]

theorem size_eq_of_unpriced_eq (same : other.unpriced = plan.unpriced) :
    other.size = plan.size := by
  simpa [unpriced, size] using congrArg Plan.size same

theorem Keeps.unpriced {parent : Option NodeId} (keeps : plan.Keeps parent tree) :
    plan.unpriced.Keeps parent tree.unpriced := by
  induction tree generalizing parent with
  | node id kind children ih =>
      rw [PlanTree.unpriced_node]
      refine .node ?_ fun child member => ?_
      · have ids : (children.map PlanTree.unpriced).map PlanTree.id = children.map PlanTree.id := by
          rw [List.map_map]
          exact List.map_congr_left fun child _ => child.id_unpriced
        rw [node?_unpriced, keeps.here, ids]
        rfl
      · obtain ⟨old, hold, rfl⟩ := List.mem_map.mp member
        exact ih old hold (keeps.child old hold)

theorem Holds.unpriced (holds : plan.Holds tree) : plan.unpriced.Holds tree.unpriced := by
  refine ⟨holds.keeps.unpriced, ?_, ?_⟩
  · rw [PlanTree.id_unpriced, ← holds.root]
    rfl
  · rw [PlanTree.ids_unpriced]
    exact holds.nodup

/-- Plans that differ in recorded costs only hold the same trees, up to these costs. -/
theorem Holds.unpriced_eq {new : PlanTree} (holds : plan.Holds tree) (holds' : other.Holds new)
    (same : other.unpriced = plan.unpriced) : new.unpriced = tree.unpriced := by
  rw [← holds.unpriced.tree_eq, ← holds'.unpriced.tree_eq, same]

end Plan

/-- The plans have the same below a node, up to recorded costs. -/
inductive Plan.Agrees (plan other : Plan) : NodeId → Prop
  | of_unpriced_eq {tree tree' sub sub' : PlanTree} (holds : plan.Holds tree)
      (holds' : other.Holds tree') (member : sub ∈ tree.subtrees) (member' : sub' ∈ tree'.subtrees)
      (same : sub'.unpriced = sub.unpriced) : Plan.Agrees plan other sub.id

namespace Plan.Agrees

variable {plan other : Plan} {id : NodeId}

theorem of_tree {tree tree' sub : PlanTree} (holds : plan.Holds tree) (holds' : other.Holds tree')
    (same : tree'.unpriced = tree.unpriced) (member : sub ∈ tree.subtrees) :
    plan.Agrees other sub.id := by
  have inside : sub.unpriced ∈ tree'.unpriced.subtrees := by
    rw [same, PlanTree.subtrees_unpriced]
    exact List.mem_map_of_mem member
  rw [PlanTree.subtrees_unpriced] at inside
  obtain ⟨sub', member', hsub'⟩ := List.mem_map.mp inside
  exact .of_unpriced_eq holds holds' member member' hsub'

theorem children_eq (agrees : plan.Agrees other id) : other.children id = plan.children id := by
  obtain ⟨holds, holds', member, member', same⟩ := agrees
  rename_i sub sub'
  have hid : sub.id = sub'.id := by rw [← sub.id_unpriced, ← same, sub'.id_unpriced]
  have ids (tree : PlanTree) :
      tree.unpriced.children.map PlanTree.id = tree.children.map PlanTree.id := by
    rw [PlanTree.children_unpriced, List.map_map]
    exact List.map_congr_left fun child _ => child.id_unpriced
  rw [holds.children_eq member, hid, holds'.children_eq member', ← ids, same, ids]

theorem join?_eq (agrees : plan.Agrees other id) :
    (other.join? id).map JoinNode.unpriced = (plan.join? id).map JoinNode.unpriced := by
  obtain ⟨holds, holds', member, member', same⟩ := agrees
  rename_i sub sub'
  have hid : sub.id = sub'.id := by rw [← sub.id_unpriced, ← same, sub'.id_unpriced]
  rw [holds.join?_eq member, hid, holds'.join?_eq member', ← NodeKind.join?_unpriced,
    ← NodeKind.join?_unpriced, ← PlanTree.kind_unpriced, same, PlanTree.kind_unpriced]

theorem child (agrees : plan.Agrees other id) {child : NodeId} (hchild : child ∈ plan.children id) :
    plan.Agrees other child := by
  obtain ⟨holds, holds', member, member', same⟩ := agrees
  rename_i sub sub'
  rw [holds.children_eq member] at hchild
  obtain ⟨input, hinput, rfl⟩ := List.mem_map.mp hchild
  have inside : input.unpriced ∈ sub'.unpriced.children := by
    rw [same, PlanTree.children_unpriced]
    exact List.mem_map_of_mem hinput
  rw [PlanTree.children_unpriced] at inside
  obtain ⟨input', hinput', hsame⟩ := List.mem_map.mp inside
  rw [← sub.eta] at member
  rw [← sub'.eta] at member'
  exact .of_unpriced_eq holds holds' (PlanTree.child_mem_subtrees member hinput)
    (PlanTree.child_mem_subtrees member' hinput') hsame

theorem access?_sourceOf_eq (agrees : plan.Agrees other id) :
    other.access? (other.sourceOf id) = plan.access? (plan.sourceOf id) := by
  obtain ⟨holds, holds', member, member', same⟩ := agrees
  rename_i sub sub'
  have hid : sub.id = sub'.id := by rw [← sub.id_unpriced, ← same, sub'.id_unpriced]
  have hsource := PlanTree.subtrees_subset_of_mem member
    (PlanTree.descend_mem_subtrees NodeKind.isTransparent sub)
  have hsource' := PlanTree.subtrees_subset_of_mem member'
    (PlanTree.descend_mem_subtrees NodeKind.isTransparent sub')
  have haccess : sub'.source.kind.access? = sub.source.kind.access? := by
    rw [← NodeKind.access?_unpriced, ← PlanTree.kind_unpriced, ← PlanTree.source_unpriced, same,
      PlanTree.source_unpriced, PlanTree.kind_unpriced, NodeKind.access?_unpriced]
  rw [holds.sourceOf_eq member, hid, holds'.sourceOf_eq member']
  exact (holds'.access?_eq hsource').trans (haccess.trans (holds.access?_eq hsource).symm)

end Plan.Agrees

end FederatedQuery
