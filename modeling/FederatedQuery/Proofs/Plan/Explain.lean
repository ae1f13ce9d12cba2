import FederatedQuery.Plan.Explain
import FederatedQuery.Proofs.Plan.Linked
import FederatedQuery.Proofs.Text.TreeDiagram

/-!
# Drawn plans

The drawing of a plan has one line for each node, in preorder.  As long as no details end a
line it shows everything that it is made of: two plans are drawn alike just if they have the
same types and details at corresponding nodes, and children in the same number and order.
-/

namespace FederatedQuery

open Text

def PlanTree.diagram (tree : PlanTree) : TreeDiagram :=
  tree.fold fun _ kind diagrams => .node kind.nodeType.name kind.details? diagrams

@[simp] theorem PlanTree.diagram_node (id : NodeId) (kind : NodeKind) (children : List PlanTree) :
    (PlanTree.node id kind children).diagram =
      .node kind.nodeType.name kind.details? (children.map PlanTree.diagram) :=
  PlanTree.fold_node _ _ _ _

theorem NodeType.name_injective {first second : NodeType} (same : first.name = second.name) :
    first = second := by
  cases first <;> cases second <;> first | rfl | simp [name] at same

theorem NodeType.isAlpha_of_mem_name {type : NodeType} {char : Char}
    (member : char ∈ type.name.toList) : char.isAlpha = true := by
  have letters : type.name.toList.all Char.isAlpha = true := by cases type <;> rfl
  exact List.all_eq_true.mp letters char member

namespace PlanTree

theorem labels_diagram (tree : PlanTree) :
    tree.diagram.labels =
      tree.subtrees.map fun sub => (sub.kind.nodeType.name, sub.kind.details?) := by
  induction tree with
  | node id kind children ih =>
      rw [diagram_node, TreeDiagram.labels_node, subtrees_node, List.map_cons, List.flatMap_map,
        List.map_flatMap]
      exact congrArg _ (List.flatMap_congr ih)

theorem named_diagram (tree : PlanTree) : tree.diagram.Named := by
  intro entry member space
  rw [labels_diagram] at member
  obtain ⟨sub, -, rfl⟩ := List.mem_map.mp member
  exact absurd (NodeType.isAlpha_of_mem_name space) (by decide)

end PlanTree

namespace Plan

variable {plan other : Plan} {tree : PlanTree}

theorem Keeps.diagramWithin_eq {parent : Option NodeId} (keeps : plan.Keeps parent tree)
    {depth : Nat} (deep : tree.height ≤ depth) :
    plan.diagramWithin depth tree.id = tree.diagram := by
  induction tree generalizing parent depth with
  | node id kind children ih =>
      cases depth with
      | zero => exact absurd deep (Nat.not_le.mpr (PlanTree.height_pos _))
      | succ depth =>
          have below : (children.map PlanTree.id).map (plan.diagramWithin depth) =
              children.map PlanTree.diagram := by
            rw [List.map_map]
            refine List.map_congr_left fun child hchild => ?_
            have lower := PlanTree.height_lt_of_mem id kind hchild
            exact ih child hchild (keeps.child child hchild) (by omega)
          simp only [PlanTree.id_node, diagramWithin, keeps.here, below, PlanTree.diagram_node]

theorem Holds.diagram_eq (holds : plan.Holds tree) : plan.diagram = tree.diagram := by
  rw [Plan.diagram, holds.root]
  exact holds.keeps.diagramWithin_eq (holds.keeps.height_le_size holds.nodup)

/-! ## Plans that look alike -/

/-- The nodes have the same type and details, and in the same order children that look alike. -/
inductive LooksLike (plan other : Plan) : NodeId → NodeId → Prop
  | node {id id' : NodeId} {kind kind' : NodeKind} (here : plan.kind? id = some kind)
      (there : other.kind? id' = some kind') (type : kind.nodeType = kind'.nodeType)
      (details : kind.details? = kind'.details?)
      (children : List.Forall₂ (LooksLike plan other) (plan.children id) (other.children id')) :
      LooksLike plan other id id'

theorem looksLike_iff {id id' : NodeId} {node node' : PlanNode}
    (here : plan.node? id = some node) (there : other.node? id' = some node') :
    plan.LooksLike other id id' ↔
      node.kind.nodeType = node'.kind.nodeType ∧ node.kind.details? = node'.kind.details? ∧
        List.Forall₂ (plan.LooksLike other) node.children node'.children := by
  rw [← children_eq_of_node? here, ← children_eq_of_node? there]
  constructor
  · rintro ⟨kind, kind', type, details, children⟩
    simp only [kind?, here, there, Option.map_some, Option.some.injEq] at kind kind'
    exact ⟨kind ▸ kind' ▸ type, kind ▸ kind' ▸ details, children⟩
  · rintro ⟨type, details, children⟩
    exact .node (by simp [kind?, here]) (by simp [kind?, there]) type details children

theorem Keeps.diagram_eq_iff {parent parent' : Option NodeId} {tree' : PlanTree}
    (keeps : plan.Keeps parent tree) (keeps' : other.Keeps parent' tree') :
    tree.diagram = tree'.diagram ↔ plan.LooksLike other tree.id tree'.id := by
  induction tree generalizing tree' parent parent' with
  | node id kind children ih =>
      obtain ⟨id', kind', children'⟩ := tree'
      have below : children.map PlanTree.diagram = children'.map PlanTree.diagram ↔
          List.Forall₂ (plan.LooksLike other) (children.map PlanTree.id)
            (children'.map PlanTree.id) := by
        rw [← List.forall₂_eq_eq_eq, List.forall₂_map_left_iff, List.forall₂_map_right_iff,
          List.forall₂_map_left_iff, List.forall₂_map_right_iff, List.forall₂_iff_zip,
          List.forall₂_iff_zip]
        have each {child child'} (member : (child, child') ∈ children.zip children') :
            child.diagram = child'.diagram ↔ plan.LooksLike other child.id child'.id := by
          obtain ⟨hchild, hchild'⟩ := List.of_mem_zip member
          exact ih child hchild (keeps.child child hchild) (keeps'.child child' hchild')
        exact and_congr_right fun _ =>
          ⟨fun same _ _ member => (each member).mp (same member),
            fun alike _ _ member => (each member).mpr (alike member)⟩
      have names : kind.nodeType.name = kind'.nodeType.name ↔ kind.nodeType = kind'.nodeType :=
        ⟨NodeType.name_injective, congrArg _⟩
      rw [PlanTree.diagram_node, PlanTree.diagram_node, TreeDiagram.node.injEq, names, below]
      exact (looksLike_iff keeps.here keeps'.here).symm

/-! ## Lines -/

def Unbroken (plan : Plan) : Prop :=
  ∀ id, plan.Reached id → ∀ kind, plan.kind? id = some kind →
    ∀ details, kind.details? = some details → '\n' ∉ details.toList

theorem Unbroken.of_nodes
    (each : ∀ node ∈ plan.nodes, ∀ details ∈ node.kind.details?, '\n' ∉ details.toList) :
    plan.Unbroken := by
  intro id _ kind found details hdetails
  obtain ⟨node, hnode, rfl⟩ := Option.map_eq_some_iff.mp found
  exact each node (List.mem_of_getElem? hnode) details hdetails

/-- The line shows the node, behind the rules that lead to it. -/
def Shows (plan : Plan) (line : String) (id : NodeId) : Prop :=
  ∃ lead kind, plan.kind? id = some kind ∧ lead.toList ⊆ TreeDiagram.rules ∧
    line = lead ++ TreeDiagram.label kind.nodeType.name kind.details?

theorem Holds.unbroken (holds : plan.Holds tree) (unbroken : plan.Unbroken) :
    tree.diagram.Unbroken := by
  intro entry member
  rw [PlanTree.labels_diagram] at member
  obtain ⟨sub, hsub, rfl⟩ := List.mem_map.mp member
  have own := unbroken sub.id (holds.reached hsub) sub.kind (holds.kind?_eq hsub)
  have name : '\n' ∉ sub.kind.nodeType.name.toList := fun lineFeed =>
    absurd (NodeType.isAlpha_of_mem_name lineFeed) (by decide)
  cases h : sub.kind.details? with
  | none => simpa [TreeDiagram.label] using name
  | some details => simp [TreeDiagram.toList_label_some, name, own details h]

theorem Holds.shows (holds : plan.Holds tree) :
    List.Forall₂ plan.Shows tree.diagram.lines (plan.preorder plan.root) := by
  have shown := tree.diagram.lines_show
  rw [PlanTree.labels_diagram, List.forall₂_map_right_iff, List.forall₂_iff_zip] at shown
  rw [holds.preorder_root, PlanTree.ids, List.forall₂_map_right_iff, List.forall₂_iff_zip]
  refine ⟨shown.1, fun {line sub} member => ?_⟩
  obtain ⟨lead, ruled, rfl⟩ := shown.2 member
  exact ⟨lead, sub.kind, holds.kind?_eq (List.of_mem_zip member).2, ruled, rfl⟩

theorem Holds.mem_preorder_iff (holds : plan.Holds tree) {id : NodeId} :
    id ∈ plan.preorder plan.root ↔ plan.Reached id := by
  rw [holds.preorder_root]
  constructor
  · intro member
    obtain ⟨sub, hsub, rfl⟩ := List.mem_map.mp member
    exact holds.reached hsub
  · exact holds.mem_ids_of_reached

/-- Plans that are drawn alike look alike at every node, and the drawing has one line for each
node that is reached, in preorder. -/
theorem explain_unambiguous (accepted : plan.Accepted) (accepted' : other.Accepted)
    (unbroken : plan.Unbroken) (unbroken' : other.Unbroken) :
    (plan.explain = other.explain ↔ plan.LooksLike other plan.root other.root) ∧
      ∃ lines : List String,
        plan.explain = String.join (lines.map (· ++ "\n")) ∧
        (∀ line ∈ lines, '\n' ∉ line.toList) ∧
        List.Forall₂ plan.Shows lines (plan.preorder plan.root) ∧
        (plan.preorder plan.root).Nodup ∧
        ∀ id, id ∈ plan.preorder plan.root ↔ plan.Reached id := by
  obtain ⟨holds, -⟩ := accepted.holds
  obtain ⟨holds', -⟩ := accepted'.holds
  have drawn := holds.unbroken unbroken
  have drawn' := holds'.unbroken unbroken'
  refine ⟨?_, plan.tree.diagram.lines, ?_, drawn.lines, holds.shows, ?_,
    fun _ => holds.mem_preorder_iff⟩
  · rw [explain, explain, holds.diagram_eq, holds'.diagram_eq, holds.root, holds'.root,
      ← holds.keeps.diagram_eq_iff holds'.keeps]
    exact ⟨TreeDiagram.render_injective plan.tree.named_diagram other.tree.named_diagram drawn
      drawn', congrArg _⟩
  · rw [explain, holds.diagram_eq, TreeDiagram.render]
  · rw [holds.preorder_root]
    exact holds.nodup

def drawnRules : Plan :=
  ⟨[⟨.join { joinType := .cross }, none, [1, 2]⟩,
    ⟨.source (.named "pm1 (├── Null)"), some 0, []⟩, ⟨.null, some 0, []⟩], 0⟩

def drawnRulesMoved : Plan :=
  ⟨[⟨.null, some 3, []⟩, ⟨.dupRemove, none, [0]⟩,
    ⟨.source (.named "pm1 (├── Null)"), some 3, []⟩,
    ⟨.join { joinType := .cross }, none, [2, 0]⟩], 3⟩

theorem drawnRules_looksLike :
    drawnRules.Accepted ∧ drawnRulesMoved.Accepted ∧ drawnRules.Unbroken ∧
      drawnRulesMoved.Unbroken ∧ drawnRules.explain = drawnRulesMoved.explain ∧
      drawnRules.LooksLike drawnRulesMoved 0 3 := by
  have accepted : drawnRules.Accepted := .of_links (by decide) (by decide) (by decide)
  have accepted' : drawnRulesMoved.Accepted := .of_links (by decide) (by decide) (by decide)
  have unbroken : drawnRules.Unbroken := .of_nodes (by decide)
  have unbroken' : drawnRulesMoved.Unbroken := .of_nodes (by decide)
  have same : drawnRules.explain = drawnRulesMoved.explain := by decide
  exact ⟨accepted, accepted', unbroken, unbroken', same,
    (explain_unambiguous accepted accepted' unbroken unbroken').1.mp same⟩

end Plan

end FederatedQuery
