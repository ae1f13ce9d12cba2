import FederatedQuery.Proofs.Plan.Keeps

/-!
# Searches in a kept tree

The size of the arena bounds the depth of every search.  A tree that the arena holds
is no deeper, so the searches of the arena are those of the tree.
-/

namespace FederatedQuery

namespace PlanTree

@[simp] theorem height_node (id : NodeId) (kind : NodeKind) (children : List PlanTree) :
    (PlanTree.node id kind children).height = 1 + (children.map height).foldr max 0 := by
  rw [height, fold_node]
  rfl

theorem visit_sublist_subtrees (stop : NodeKind → Bool) (tree : PlanTree) :
    (tree.visit stop).Sublist tree.subtrees := by
  induction tree with
  | node id kind children ih =>
      rw [visit_node, subtrees_node]
      refine .cons_cons _ ?_
      cases stop kind with
      | true => exact List.nil_sublist _
      | false =>
          simp only [Bool.false_eq_true, if_false]
          induction children with
          | nil => exact .refl _
          | cons child rest ihrest =>
              rw [List.flatMap_cons, List.flatMap_cons]
              exact (ih child List.mem_cons_self).append
                (ihrest fun other hother => ih other (List.mem_cons_of_mem _ hother))

theorem visit_subset_subtrees (stop : NodeKind → Bool) (tree : PlanTree) :
    tree.visit stop ⊆ tree.subtrees :=
  (visit_sublist_subtrees stop tree).subset

theorem height_pos (tree : PlanTree) : 0 < tree.height := by
  cases tree
  rw [height_node]
  omega

private theorem le_foldr_max {heights : List Nat} {value : Nat} (member : value ∈ heights) :
    value ≤ heights.foldr max 0 := by
  induction heights with
  | nil => simp at member
  | cons first rest ih =>
      rw [List.foldr_cons]
      rcases List.mem_cons.mp member with rfl | member
      · exact Nat.le_max_left _ _
      · exact Nat.le_trans (ih member) (Nat.le_max_right _ _)

private theorem foldr_max_le {heights : List Nat} {bound : Nat}
    (below : ∀ value ∈ heights, value ≤ bound) : heights.foldr max 0 ≤ bound := by
  induction heights with
  | nil => exact Nat.zero_le bound
  | cons first rest ih =>
      rw [List.foldr_cons]
      exact Nat.max_le.mpr ⟨below first List.mem_cons_self,
        ih fun value member => below value (List.mem_cons_of_mem first member)⟩

theorem height_lt_of_mem (id : NodeId) (kind : NodeKind) {children : List PlanTree}
    {child : PlanTree} (member : child ∈ children) :
    child.height < (PlanTree.node id kind children).height := by
  have h := le_foldr_max (List.mem_map_of_mem (f := height) member)
  rw [height_node]
  omega

theorem height_le_of_mem_subtrees {tree sub : PlanTree} (member : sub ∈ tree.subtrees) :
    sub.height ≤ tree.height := by
  induction tree with
  | node id kind children ih =>
      rw [subtrees_node, List.mem_cons, List.mem_flatMap] at member
      rcases member with rfl | ⟨child, hchild, member⟩
      · exact Nat.le_refl _
      · have hbelow := ih child hchild member
        exact Nat.le_of_lt (Nat.lt_of_le_of_lt hbelow (height_lt_of_mem id kind hchild))

private theorem length_le_length_flatMap {children : List PlanTree} {child : PlanTree}
    (member : child ∈ children) : child.ids.length ≤ (children.flatMap ids).length := by
  obtain ⟨left, right, rfl⟩ := List.append_of_mem member
  simp only [List.flatMap_append, List.flatMap_cons, List.length_append]
  omega

theorem height_le_length_ids (tree : PlanTree) : tree.height ≤ tree.ids.length := by
  induction tree with
  | node id kind children ih =>
      have h : (children.map height).foldr max 0 ≤ (children.flatMap ids).length := by
        apply foldr_max_le
        intro value member
        obtain ⟨child, hchild, rfl⟩ := List.mem_map.mp member
        exact Nat.le_trans (ih child hchild) (length_le_length_flatMap hchild)
      rw [height_node, ids_node, List.length_cons]
      omega

end PlanTree

namespace Plan

variable {plan : Plan} {tree sub : PlanTree}

theorem Keeps.length_ids_le_size {parent : Option NodeId} (keeps : plan.Keeps parent tree)
    (nodup : tree.ids.Nodup) : tree.ids.length ≤ plan.size := by
  have bound : tree.ids ⊆ List.range plan.size := fun id member =>
    List.mem_range.mpr (keeps.lt_size member)
  have h := (nodup.subperm bound).length_le
  rwa [List.length_range] at h

theorem Keeps.height_le_size {parent : Option NodeId} (keeps : plan.Keeps parent tree)
    (nodup : tree.ids.Nodup) : tree.height ≤ plan.size :=
  Nat.le_trans tree.height_le_length_ids (keeps.length_ids_le_size nodup)

theorem Keeps.treeWithin_eq {parent : Option NodeId} (keeps : plan.Keeps parent tree)
    {depth : Nat} (deep : tree.height ≤ depth) : plan.treeWithin depth tree.id = tree := by
  induction tree generalizing parent depth with
  | node id kind children ih =>
      cases depth with
      | zero => exact absurd deep (Nat.not_le.mpr (PlanTree.height_pos _))
      | succ depth =>
          have children_eq : (children.map PlanTree.id).map (plan.treeWithin depth) =
              children := by
            rw [List.map_map, List.map_congr_left, List.map_id]
            intro child hchild
            have lower := PlanTree.height_lt_of_mem id kind hchild
            exact ih child hchild (keeps.child child hchild) (by omega)
          simp only [PlanTree.id_node, treeWithin, keeps.here, children_eq]

theorem Keeps.preorderWithin_eq {parent : Option NodeId} (keeps : plan.Keeps parent tree)
    {stop : NodeId → Bool} {stopKind : NodeKind → Bool}
    (same : ∀ sub ∈ tree.subtrees, stop sub.id = stopKind sub.kind)
    {depth : Nat} (deep : tree.height ≤ depth) :
    plan.preorderWithin stop depth tree.id = (tree.visit stopKind).map PlanTree.id := by
  induction tree generalizing parent depth with
  | node id kind children ih =>
      cases depth with
      | zero => exact absurd deep (Nat.not_le.mpr (PlanTree.height_pos _))
      | succ depth =>
          have stop_eq : stop id = stopKind kind := same _ (PlanTree.self_mem_subtrees _)
          have children_eq : plan.children id = children.map PlanTree.id := by
            simp only [Plan.children, keeps.here]
          simp only [PlanTree.id_node, preorderWithin, stop_eq, PlanTree.visit_node,
            List.map_cons, children_eq]
          cases stopKind kind with
          | true => rfl
          | false =>
              simp only [Bool.false_eq_true, if_false, List.map_flatMap, List.flatMap_map]
              congr 1
              apply List.flatMap_congr
              intro child hchild
              have lower := PlanTree.height_lt_of_mem id kind hchild
              refine ih child hchild (keeps.child child hchild) (fun sub hsub => ?_) (by omega)
              exact same sub (PlanTree.mem_subtrees_of_child hchild hsub)

theorem Keeps.descendWhile_eq {parent : Option NodeId} (keeps : plan.Keeps parent tree)
    {step : NodeId → Bool} {stepKind : NodeKind → Bool}
    (same : ∀ sub ∈ tree.subtrees, step sub.id = stepKind sub.kind)
    {depth : Nat} (deep : tree.height ≤ depth) :
    plan.descendWhile step depth tree.id = (tree.descend stepKind).id := by
  induction tree generalizing parent depth with
  | node id kind children ih =>
      cases depth with
      | zero => exact absurd deep (Nat.not_le.mpr (PlanTree.height_pos _))
      | succ depth =>
          have step_eq : step id = stepKind kind := same _ (PlanTree.self_mem_subtrees _)
          cases children with
          | nil =>
              simp [descendWhile, firstChild?, Plan.children, keeps.here, PlanTree.descend]
          | cons child rest =>
              have first : plan.firstChild? id = some child.id := by
                simp [firstChild?, Plan.children, keeps.here]
              have lower := PlanTree.height_lt_of_mem id kind
                (List.mem_cons_self (a := child) (l := rest))
              have inner : plan.descendWhile step depth child.id = (child.descend stepKind).id :=
                ih child List.mem_cons_self (keeps.child child List.mem_cons_self)
                (fun sub hsub => same sub
                  (PlanTree.mem_subtrees_of_child List.mem_cons_self hsub)) (by omega)
              simp only [PlanTree.id_node, descendWhile, step_eq, first, PlanTree.descend]
              cases stepKind kind with
              | true => simpa using inner
              | false => simp

end Plan

def NodeKind.isTransparent (kind : NodeKind) : Bool := kind.nodeType.isTransparent

def NodeKind.isSelect (kind : NodeKind) : Bool := kind.select?.isSome

theorem NodeKind.exists_eq_select {kind : NodeKind} (h : kind.isSelect = true) :
    ∃ select, kind = .select select := by
  cases kind <;> first | exact ⟨_, rfl⟩ | cases h

namespace PlanTree

def source (tree : PlanTree) : PlanTree := tree.descend NodeKind.isTransparent

/-- What lies below the filters at the top of a tree. -/
def beneath (tree : PlanTree) : PlanTree := tree.descend NodeKind.isSelect

theorem nodup_of_mem_subtrees {tree sub : PlanTree} (nodup : tree.ids.Nodup)
    (member : sub ∈ tree.subtrees) : sub.ids.Nodup := by
  obtain ⟨frames, rfl⟩ := exists_within_of_mem member
  exact (nodup_ids_within.mp nodup).2.1

theorem descend_mem_subtrees (step : NodeKind → Bool) (tree : PlanTree) :
    tree.descend step ∈ tree.subtrees := by
  induction tree with
  | node id kind children ih =>
      cases children with
      | nil => exact self_mem_subtrees _
      | cons child rest =>
          rw [descend]
          cases step kind with
          | false => exact self_mem_subtrees _
          | true =>
              rw [if_pos rfl]
              exact mem_subtrees_of_child List.mem_cons_self (ih child List.mem_cons_self)

end PlanTree

namespace Plan.Holds

variable {plan : Plan} {tree sub : PlanTree}

theorem keeps_of_mem (holds : plan.Holds tree) (member : sub ∈ tree.subtrees) :
    ∃ parent, plan.Keeps parent sub :=
  holds.keeps.exists_of_mem_subtrees member

theorem node?_of_mem (holds : plan.Holds tree) (member : sub ∈ tree.subtrees) :
    ∃ parent, plan.node? sub.id = some ⟨sub.kind, parent, sub.children.map PlanTree.id⟩ := by
  obtain ⟨parent, keeps⟩ := holds.keeps_of_mem member
  exact ⟨parent, keeps.node?_id⟩

theorem height_le_size (holds : plan.Holds tree) (member : sub ∈ tree.subtrees) :
    sub.height ≤ plan.size :=
  Nat.le_trans (PlanTree.height_le_of_mem_subtrees member)
    (holds.keeps.height_le_size holds.nodup)

theorem treeAt_eq (holds : plan.Holds tree) (member : sub ∈ tree.subtrees) :
    plan.treeAt sub.id = sub := by
  obtain ⟨parent, keeps⟩ := holds.keeps_of_mem member
  exact keeps.treeWithin_eq (holds.height_le_size member)

theorem tree_eq (holds : plan.Holds tree) : plan.tree = tree := by
  rw [Plan.tree, holds.root]
  exact holds.treeAt_eq tree.self_mem_subtrees

theorem kind?_eq (holds : plan.Holds tree) (member : sub ∈ tree.subtrees) :
    plan.kind? sub.id = some sub.kind := by
  obtain ⟨parent, h⟩ := holds.node?_of_mem member
  simp [kind?, h]

theorem children_eq (holds : plan.Holds tree) (member : sub ∈ tree.subtrees) :
    plan.children sub.id = sub.children.map PlanTree.id := by
  obtain ⟨parent, h⟩ := holds.node?_of_mem member
  simp [Plan.children, h]

theorem join?_eq (holds : plan.Holds tree) (member : sub ∈ tree.subtrees) :
    plan.join? sub.id = sub.kind.join? := by
  simp [join?, holds.kind?_eq member]

theorem access?_eq (holds : plan.Holds tree) (member : sub ∈ tree.subtrees) :
    plan.access? sub.id = sub.kind.access? := by
  simp [access?, holds.kind?_eq member]

theorem select?_eq (holds : plan.Holds tree) (member : sub ∈ tree.subtrees) :
    plan.select? sub.id = sub.kind.select? := by
  simp [select?, holds.kind?_eq member]

theorem firstChild?_eq (holds : plan.Holds tree) (member : sub ∈ tree.subtrees) :
    plan.firstChild? sub.id = sub.children.head?.map PlanTree.id := by
  simp [firstChild?, holds.children_eq member]

theorem lastChild?_eq (holds : plan.Holds tree) (member : sub ∈ tree.subtrees) :
    plan.lastChild? sub.id = sub.children.getLast?.map PlanTree.id := by
  simp [lastChild?, holds.children_eq member]

theorem lt_size (holds : plan.Holds tree) {id : NodeId} (member : id ∈ tree.ids) :
    id < plan.size :=
  holds.keeps.lt_size member

theorem hasType_eq (holds : plan.Holds tree) (member : sub ∈ tree.subtrees)
    (types : List NodeType) : plan.hasType types sub.id = types.contains sub.kind.nodeType := by
  simp [hasType, nodeType?, holds.kind?_eq member]

theorem preorder_eq (holds : plan.Holds tree) (member : sub ∈ tree.subtrees) :
    plan.preorder sub.id = sub.ids := by
  obtain ⟨parent, keeps⟩ := holds.keeps_of_mem member
  show plan.preorderWithin (fun _ => false) plan.size sub.id =
    (sub.visit fun _ => false).map PlanTree.id
  exact keeps.preorderWithin_eq (fun _ _ => rfl) (holds.height_le_size member)

theorem preorder_root (holds : plan.Holds tree) : plan.preorder plan.root = tree.ids := by
  rw [holds.root]
  exact holds.preorder_eq tree.self_mem_subtrees

theorem findAll_eq (holds : plan.Holds tree) (member : sub ∈ tree.subtrees)
    (types stop : List NodeType) :
    plan.findAll sub.id types stop =
      ((sub.visit fun kind => stop.contains kind.nodeType).filter fun other =>
        types.contains other.kind.nodeType).map PlanTree.id := by
  obtain ⟨parent, keeps⟩ := holds.keeps_of_mem member
  have inside {other : PlanTree} (hother : other ∈ sub.subtrees) : other ∈ tree.subtrees :=
    PlanTree.subtrees_subset_of_mem member hother
  have visited : plan.preorderWithin (plan.hasType stop) plan.size sub.id =
      (sub.visit fun kind => stop.contains kind.nodeType).map PlanTree.id :=
    keeps.preorderWithin_eq (fun other hother => holds.hasType_eq (inside hother) stop)
      (holds.height_le_size member)
  rw [findAll, visited, List.filter_map]
  congr 1
  apply List.filter_congr
  intro other hother
  exact holds.hasType_eq (inside (PlanTree.visit_subset_subtrees _ _ hother)) types

theorem findAll_root_eq (holds : plan.Holds tree) (types stop : List NodeType) :
    plan.findAll plan.root types stop =
      ((tree.visit fun kind => stop.contains kind.nodeType).filter fun sub =>
        types.contains sub.kind.nodeType).map PlanTree.id := by
  rw [holds.root]
  exact holds.findAll_eq tree.self_mem_subtrees types stop

theorem sourceOf_eq (holds : plan.Holds tree) (member : sub ∈ tree.subtrees) :
    plan.sourceOf sub.id = sub.source.id := by
  obtain ⟨parent, keeps⟩ := holds.keeps_of_mem member
  refine keeps.descendWhile_eq (fun other hother => ?_) (holds.height_le_size member)
  have inside := PlanTree.subtrees_subset_of_mem member hother
  simp [nodeType?, holds.kind?_eq inside, NodeKind.isTransparent]

theorem accessBelow?_eq (holds : plan.Holds tree) {id : NodeId} {kind : NodeKind}
    {child : PlanTree} {rest : List PlanTree}
    (member : PlanTree.node id kind (child :: rest) ∈ tree.subtrees) :
    plan.accessBelow? id =
      if child.beneath.kind.access?.isSome then some child.beneath.id else none := by
  have hchild : child ∈ tree.subtrees := PlanTree.subtrees_subset_of_mem member (by
    simp [PlanTree.self_mem_subtrees])
  have hbeneath : child.beneath ∈ tree.subtrees :=
    PlanTree.subtrees_subset_of_mem hchild (PlanTree.descend_mem_subtrees _ _)
  have first := holds.firstChild?_eq member
  obtain ⟨parent, keeps⟩ := holds.keeps_of_mem hchild
  have last : plan.descendWhile (fun id => (plan.select? id).isSome) plan.size child.id =
      child.beneath.id := by
    refine keeps.descendWhile_eq (fun other hother => ?_) (holds.height_le_size hchild)
    rw [holds.select?_eq (PlanTree.subtrees_subset_of_mem hchild hother)]
    rfl
  simp only [PlanTree.id_node, PlanTree.children_node, List.head?_cons, Option.map_some] at first
  simp [accessBelow?, first, last, holds.access?_eq hbeneath]

end Plan.Holds

end FederatedQuery
