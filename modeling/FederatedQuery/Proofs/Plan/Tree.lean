import FederatedQuery.Plan.Search

/-!
# Plans as trees

The arena says where the nodes of a plan are kept.  What a plan means only
depends on the tree that is reached from the root, so the theory of plans speaks
of trees whose nodes remember their positions.
-/

namespace FederatedQuery

universe u

/-- A plan node with everything below it. -/
inductive PlanTree where
  | node (id : NodeId) (kind : NodeKind) (children : List PlanTree)

namespace PlanTree

def id : PlanTree → NodeId
  | .node id _ _ => id

def kind : PlanTree → NodeKind
  | .node _ kind _ => kind

def children : PlanTree → List PlanTree
  | .node _ _ children => children

@[simp] theorem id_node (id : NodeId) (kind : NodeKind) (children : List PlanTree) :
    (PlanTree.node id kind children).id = id := rfl

@[simp] theorem kind_node (id : NodeId) (kind : NodeKind) (children : List PlanTree) :
    (PlanTree.node id kind children).kind = kind := rfl

@[simp] theorem children_node (id : NodeId) (kind : NodeKind) (children : List PlanTree) :
    (PlanTree.node id kind children).children = children := rfl

theorem eta (tree : PlanTree) : PlanTree.node tree.id tree.kind tree.children = tree := by
  cases tree
  rfl

@[elab_as_elim, induction_eliminator]
theorem induction {motive : PlanTree → Prop}
    (node : ∀ id kind children, (∀ child ∈ children, motive child) →
      motive (.node id kind children))
    (tree : PlanTree) : motive tree :=
  PlanTree.rec (motive_1 := motive) (motive_2 := fun trees => ∀ tree ∈ trees, motive tree)
    node (by simp) (fun _ _ head tail => by
      intro tree member
      rcases List.mem_cons.mp member with rfl | member
      · exact head
      · exact tail tree member) tree

/-! ## Folds -/

mutual

def fold {α : Type u} (combine : NodeId → NodeKind → List α → α) : PlanTree → α
  | .node id kind children => combine id kind (foldAll combine children)

def foldAll {α : Type u} (combine : NodeId → NodeKind → List α → α) : List PlanTree → List α
  | [] => []
  | tree :: rest => fold combine tree :: foldAll combine rest

end

theorem foldAll_eq_map {α : Type u} (combine : NodeId → NodeKind → List α → α)
    (trees : List PlanTree) : foldAll combine trees = trees.map (fold combine) := by
  induction trees with
  | nil => rfl
  | cons tree rest ih => rw [foldAll, ih, List.map_cons]

@[simp] theorem fold_node {α : Type u} (combine : NodeId → NodeKind → List α → α)
    (id : NodeId) (kind : NodeKind) (children : List PlanTree) :
    fold combine (.node id kind children) = combine id kind (children.map (fold combine)) := by
  rw [fold, foldAll_eq_map]

/-! ## Visits -/

mutual

/-- The subtrees in preorder, none of those below a node where `stop` holds. -/
def visit (stop : NodeKind → Bool) : PlanTree → List PlanTree
  | .node id kind children =>
      .node id kind children :: if stop kind then [] else visitAll stop children

def visitAll (stop : NodeKind → Bool) : List PlanTree → List PlanTree
  | [] => []
  | tree :: rest => visit stop tree ++ visitAll stop rest

end

theorem visitAll_eq_flatMap (stop : NodeKind → Bool) (trees : List PlanTree) :
    visitAll stop trees = trees.flatMap (visit stop) := by
  induction trees with
  | nil => rfl
  | cons tree rest ih => rw [visitAll, ih, List.flatMap_cons]

@[simp] theorem visit_node (stop : NodeKind → Bool) (id : NodeId) (kind : NodeKind)
    (children : List PlanTree) :
    visit stop (.node id kind children) =
      .node id kind children :: if stop kind then [] else children.flatMap (visit stop) := by
  rw [visit, visitAll_eq_flatMap]

def subtrees (tree : PlanTree) : List PlanTree := tree.visit fun _ => false

@[simp] theorem subtrees_node (id : NodeId) (kind : NodeKind) (children : List PlanTree) :
    (PlanTree.node id kind children).subtrees =
      .node id kind children :: children.flatMap subtrees := by
  simp only [subtrees, visit_node]
  rfl

theorem self_mem_subtrees (tree : PlanTree) : tree ∈ tree.subtrees := by
  cases tree
  simp

def ids (tree : PlanTree) : List NodeId := tree.subtrees.map id

@[simp] theorem ids_node (id : NodeId) (kind : NodeKind) (children : List PlanTree) :
    (PlanTree.node id kind children).ids = id :: children.flatMap ids := by
  simp only [ids, subtrees_node, List.map_cons, id_node, List.map_flatMap]
  rfl

theorem id_mem_ids (tree : PlanTree) : tree.id ∈ tree.ids := by
  cases tree
  simp

theorem mem_subtrees_of_child {id : NodeId} {kind : NodeKind} {children : List PlanTree}
    {child sub : PlanTree} (hchild : child ∈ children) (member : sub ∈ child.subtrees) :
    sub ∈ (PlanTree.node id kind children).subtrees := by
  rw [subtrees_node, List.mem_cons, List.mem_flatMap]
  exact .inr ⟨child, hchild, member⟩

theorem mem_ids_of_child {id position : NodeId} {kind : NodeKind} {children : List PlanTree}
    {child : PlanTree} (hchild : child ∈ children) (member : position ∈ child.ids) :
    position ∈ (PlanTree.node id kind children).ids := by
  rw [ids_node, List.mem_cons, List.mem_flatMap]
  exact .inr ⟨child, hchild, member⟩

theorem ids_subset_of_mem_subtrees {tree sub : PlanTree} (member : sub ∈ tree.subtrees) :
    sub.ids ⊆ tree.ids := by
  induction tree with
  | node id kind children ih =>
      rw [subtrees_node, List.mem_cons, List.mem_flatMap] at member
      rcases member with rfl | ⟨child, hchild, member⟩
      · exact List.Subset.refl _
      · intro position hposition
        exact mem_ids_of_child hchild (ih child hchild member hposition)

theorem subtrees_subset_of_mem {tree sub : PlanTree} (member : sub ∈ tree.subtrees) :
    sub.subtrees ⊆ tree.subtrees := by
  induction tree with
  | node id kind children ih =>
      rw [subtrees_node, List.mem_cons, List.mem_flatMap] at member
      rcases member with rfl | ⟨child, hchild, member⟩
      · exact List.Subset.refl _
      · intro other hother
        exact mem_subtrees_of_child hchild (ih child hchild member hother)

theorem child_mem_subtrees {tree child : PlanTree} {id : NodeId} {kind : NodeKind}
    {children : List PlanTree} (member : PlanTree.node id kind children ∈ tree.subtrees)
    (hchild : child ∈ children) : child ∈ tree.subtrees :=
  subtrees_subset_of_mem member (mem_subtrees_of_child hchild child.self_mem_subtrees)

/-! ## Chains of first children -/

def descend (step : NodeKind → Bool) : PlanTree → PlanTree
  | .node id kind [] => .node id kind []
  | .node id kind (child :: rest) =>
      if step kind then child.descend step else .node id kind (child :: rest)

theorem descend_of_step {step : NodeKind → Bool} {id : NodeId} {kind : NodeKind}
    {child : PlanTree} {rest : List PlanTree} (h : step kind = true) :
    (PlanTree.node id kind (child :: rest)).descend step = child.descend step := by
  simp [descend, h]

theorem descend_of_not_step {step : NodeKind → Bool} {tree : PlanTree}
    (h : step tree.kind = false) : tree.descend step = tree := by
  obtain ⟨id, kind, children⟩ := tree
  rw [kind_node] at h
  cases children <;> simp [descend, h]

def height (tree : PlanTree) : Nat :=
  tree.fold fun _ _ heights => 1 + heights.foldr max 0

end PlanTree

end FederatedQuery
