import FederatedQuery.Plan.Structure
import FederatedQuery.Proofs.Plan.Search
import Mathlib.Algebra.BigOperators.Group.Finset.Basic
import Mathlib.Algebra.Order.BigOperators.Group.Finset

/-!
# What the structural check accepts

The check follows links and reports faults.  It finds none exactly if the arena
holds a tree in which every node has as many children as its kind asks for and the
expressions of every join are paired.  For the one direction the steps must be
enough: every step uses up a link, and no node's links are opened twice.
-/

namespace FederatedQuery

open Finset

inductive Plan.Reached (plan : Plan) : NodeId → Prop
  | root : plan.Reached plan.root
  | child {id child : NodeId} (parent : plan.Reached id) (member : child ∈ plan.children id) :
      plan.Reached child

/-- The check finds no fault, and no link that it follows leads out of the arena. -/
structure Plan.Accepted (plan : Plan) : Prop where
  inRange : ∀ id, plan.Reached id → id < plan.size
  wellFormed : plan.isWellFormed = true

theorem Plan.Reached.lt_size {plan : Plan} {id : NodeId} (reached : plan.Reached id)
    (root : plan.root < plan.size)
    (links : ∀ node ∈ plan.nodes, ∀ child ∈ node.children, child < plan.size) :
    id < plan.size := by
  cases reached with
  | root => exact root
  | @child parent _ _ member =>
      cases h : plan.node? parent with
      | none => simp [Plan.children, h] at member
      | some node =>
          simp only [Plan.children, h] at member
          exact links node (List.mem_of_getElem? h) id member

theorem Plan.Accepted.of_links {plan : Plan} (root : plan.root < plan.size)
    (links : ∀ node ∈ plan.nodes, ∀ child ∈ node.children, child < plan.size)
    (wellFormed : plan.isWellFormed = true) : plan.Accepted :=
  ⟨fun _ reached => reached.lt_size root links, wellFormed⟩

structure NodeKind.Fits (kind : NodeKind) (count : Nat) : Prop where
  arity : ∀ expected, kind.nodeType.arity? = some expected → count = expected
  paired : ∀ join, kind.join? = some join → join.leftExprs.length = join.rightExprs.length

theorem NodeKind.fits_access (access : AccessNode) (count : Nat) :
    (NodeKind.access access).Fits count :=
  ⟨nofun, nofun⟩

def PlanTree.WellShaped (tree : PlanTree) : Prop :=
  ∀ sub ∈ tree.subtrees, sub.kind.Fits sub.children.length

theorem PlanTree.wellShaped_node {id : NodeId} {kind : NodeKind} {children : List PlanTree} :
    (PlanTree.node id kind children).WellShaped ↔
      kind.Fits children.length ∧ ∀ child ∈ children, child.WellShaped := by
  simp only [WellShaped, subtrees_node, List.mem_cons, List.mem_flatMap, forall_eq_or_imp,
    kind_node, children_node, and_congr_right_iff]
  intro _
  constructor
  · intro all child hchild sub hsub
    exact all sub ⟨child, hchild, hsub⟩
  · rintro all sub ⟨child, hchild, hsub⟩
    exact all child hchild sub hsub

theorem PlanTree.WellShaped.of_mem {tree sub : PlanTree} (shaped : tree.WellShaped)
    (member : sub ∈ tree.subtrees) : sub.WellShaped :=
  fun other hother => shaped other (PlanTree.subtrees_subset_of_mem member hother)

theorem PlanTree.WellShaped.replace {old new : PlanTree} {frames : List Frame}
    (shaped : (old.within frames).WellShaped) (hnew : new.WellShaped) :
    (new.within frames).WellShaped := by
  induction frames generalizing old new with
  | nil => exact hnew
  | cons frame rest ih =>
      apply ih shaped
      have hold := shaped.of_mem (PlanTree.mem_subtrees_within_self (frame.fill old) rest)
      rw [Frame.fill, PlanTree.wellShaped_node] at hold ⊢
      simp only [List.length_append, List.length_cons, List.mem_append, List.mem_cons] at hold ⊢
      refine ⟨hold.1, fun child hchild => ?_⟩
      rcases hchild with hchild | rfl | hchild
      · exact hold.2 child (.inl hchild)
      · exact hnew
      · exact hold.2 child (.inr (.inr hchild))

namespace PlanNode

theorem faults_eq_nil_iff (id : NodeId) (expected : Option NodeId) (node : PlanNode) :
    node.faults id expected = [] ↔
      node.parent = expected ∧ node.kind.Fits node.children.length := by
  have arity : node.arityFaults id = [] ↔
      ∀ count, node.kind.nodeType.arity? = some count → node.children.length = count := by
    simp only [arityFaults]
    cases h : node.kind.nodeType.arity? with
    | none => simp
    | some count => by_cases hcount : node.children.length = count <;> simp [hcount]
  have paired : node.pairingFaults id = [] ↔
      ∀ join, node.kind.join? = some join → join.leftExprs.length = join.rightExprs.length := by
    simp only [pairingFaults]
    cases h : node.kind.join? with
    | none => simp
    | some join =>
        by_cases hlength : join.leftExprs.length = join.rightExprs.length <;> simp [hlength]
  have link : (if node.parent = expected then []
      else [StructuralFault.brokenParentLink id expected node.parent]) = [] ↔
      node.parent = expected := by
    by_cases h : node.parent = expected <;> simp [h]
  rw [faults, List.append_eq_nil_iff, List.append_eq_nil_iff, link, arity, paired, and_assoc]
  exact and_congr_right fun _ => ⟨fun ⟨a, p⟩ => ⟨a, p⟩, fun ⟨a, p⟩ => ⟨a, p⟩⟩

end PlanNode

namespace Plan

variable {plan : Plan}

def openLinks (plan : Plan) (visited : List NodeId) : Nat :=
  ∑ id ∈ (range plan.size).filter (· ∉ visited), (plan.children id).length

theorem openLinks_visit {visited : List NodeId} {id : NodeId} (inRange : id < plan.size)
    (fresh : id ∉ visited) :
    plan.openLinks visited = (plan.children id).length + plan.openLinks (id :: visited) := by
  have rest : (range plan.size).filter (· ∉ id :: visited) =
      ((range plan.size).filter (· ∉ visited)).erase id := by
    ext other
    simp only [mem_filter, mem_range, mem_erase, List.mem_cons]
    tauto
  have member : id ∈ (range plan.size).filter (· ∉ visited) := by simp [inRange, fresh]
  rw [openLinks, openLinks, rest]
  exact (add_sum_erase _ (fun id => (plan.children id).length) member).symm

private theorem foldl_children (nodes : List PlanNode) (start : Nat) :
    nodes.foldl (fun total node => total + node.children.length) start =
      start + ∑ id ∈ range nodes.length, (nodes[id]?.elim [] PlanNode.children).length := by
  induction nodes generalizing start with
  | nil => simp
  | cons node rest ih =>
      rw [List.foldl_cons, ih, List.length_cons, sum_range_succ']
      simp only [List.getElem?_cons_succ, List.getElem?_cons_zero, Option.elim_some]
      omega

theorem openLinks_nil (plan : Plan) : plan.openLinks [] = plan.linkCount := by
  have children_eq (id : NodeId) :
      plan.children id = (plan.nodes[id]?).elim [] PlanNode.children := by
    simp only [Plan.children, node?]
    cases plan.nodes[id]? <;> rfl
  rw [linkCount, foldl_children, openLinks]
  simp [children_eq, size]

theorem reached_links {id : NodeId} {node : PlanNode} {pending : List (NodeId × Option NodeId)}
    (entered : plan.Reached id) (found : plan.node? id = some node)
    (reached : ∀ link ∈ pending, plan.Reached link.1) :
    ∀ link ∈ node.children.reverse.map (·, some id) ++ pending, plan.Reached link.1 := by
  intro link member
  rcases List.mem_append.mp member with member | member
  · obtain ⟨child, hchild, rfl⟩ := List.mem_map.mp member
    refine .child entered ?_
    rw [children_eq_of_node? found]
    exact List.mem_reverse.mp hchild
  · exact reached link member

/-- The link to a node is traded for those to its children, which are open no more. -/
theorem length_links_add_openLinks {visited : List NodeId} {id : NodeId} {node : PlanNode}
    (inRange : id < plan.size) (fresh : id ∉ visited) (found : plan.node? id = some node)
    (pending : List (NodeId × Option NodeId)) :
    (node.children.reverse.map (·, some id) ++ pending).length + plan.openLinks (id :: visited) =
      pending.length + plan.openLinks visited := by
  rw [openLinks_visit inRange fresh, children_eq_of_node? found, List.length_append,
    List.length_map, List.length_reverse]
  omega

abbrev Rooted := PlanTree × Option NodeId

def Rooted.link (rooted : Rooted) : NodeId × Option NodeId := (rooted.1.id, rooted.2)

def Rooted.Sound (plan : Plan) (rooted : Rooted) : Prop :=
  plan.Keeps rooted.2 rooted.1 ∧ rooted.1.WellShaped

def forestIds (forest : List Rooted) : List NodeId := forest.flatMap fun rooted => rooted.1.ids

private theorem children_of_links {forest : List Rooted} {children : List NodeId} {id : NodeId}
    (links : forest.map Rooted.link = children.reverse.map (·, some id)) :
    (forest.reverse.map Prod.fst).map PlanTree.id = children ∧
      ∀ rooted ∈ forest, rooted.2 = some id := by
  constructor
  · have ids := congrArg (List.map Prod.fst) links
    simp only [List.map_map, Function.comp_def, Rooted.link] at ids
    rw [List.map_reverse, List.map_reverse, List.map_map, ← List.reverse_inj,
      List.reverse_reverse]
    simpa [Function.comp_def] using ids
  · intro rooted member
    have hlink : rooted.link ∈ children.reverse.map (·, some id) :=
      links ▸ List.mem_map_of_mem member
    obtain ⟨child, -, hchild⟩ := List.mem_map.mp hlink
    exact (congrArg Prod.snd hchild).symm

private theorem forestIds_node_perm (id : NodeId) (kind : NodeKind) (expected : Option NodeId)
    (inner outer : List Rooted) :
    (forestIds ((.node id kind (inner.reverse.map Prod.fst), expected) :: outer)).Perm
      (id :: forestIds (inner ++ outer)) := by
  have reversed : ((inner.reverse.map Prod.fst).flatMap PlanTree.ids).Perm (forestIds inner) := by
    rw [List.flatMap_map]
    exact (List.reverse_perm inner).flatMap_right _
  simp only [forestIds, List.flatMap_cons, PlanTree.ids_node, List.cons_append,
    List.flatMap_append]
  exact .cons _ (.append_right _ reversed)

private theorem sound_node {id : NodeId} {node : PlanNode} {inner : List Rooted}
    (hnode : plan.node? id = some node)
    (links : inner.map Rooted.link = node.children.reverse.map (·, some id))
    (fits : node.kind.Fits node.children.length) (sound : ∀ rooted ∈ inner, rooted.Sound plan) :
    Rooted.Sound plan (.node id node.kind (inner.reverse.map Prod.fst), node.parent) := by
  obtain ⟨hids, hparents⟩ := children_of_links links
  have below : ∀ child ∈ inner.reverse.map Prod.fst,
      plan.Keeps (some id) child ∧ child.WellShaped := by
    intro child hchild
    obtain ⟨rooted, hrooted, rfl⟩ := List.mem_map.mp hchild
    have hrooted := List.mem_reverse.mp hrooted
    obtain ⟨keeps, shaped⟩ := sound rooted hrooted
    exact ⟨hparents rooted hrooted ▸ keeps, shaped⟩
  constructor
  · refine .node ?_ fun child hchild => (below child hchild).1
    rw [hids, hnode]
  · refine PlanTree.wellShaped_node.mpr ⟨?_, fun child hchild => (below child hchild).2⟩
    rwa [← List.length_map PlanTree.id, hids]

/-- Pending links without a fault behind them lead to disjoint trees. -/
theorem exists_forest_of_faultsFrom (inRange : ∀ id, plan.Reached id → id < plan.size)
    (steps : Nat) (visited : List NodeId) (pending : List (NodeId × Option NodeId))
    (clean : plan.faultsFrom steps visited pending = [])
    (reached : ∀ link ∈ pending, plan.Reached link.1)
    (enough : pending.length + plan.openLinks visited ≤ steps) :
    ∃ forest : List Rooted, forest.map Rooted.link = pending ∧
      (∀ rooted ∈ forest, rooted.Sound plan) ∧
      (forestIds forest).Nodup ∧ ∀ id ∈ forestIds forest, id ∉ visited := by
  induction steps generalizing visited pending with
  | zero =>
      have empty : pending = [] := List.eq_nil_of_length_eq_zero (by omega)
      exact ⟨[], by simp [empty], by simp, by simp [forestIds], by simp [forestIds]⟩
  | succ steps ih =>
      cases pending with
      | nil => exact ⟨[], by simp, by simp, by simp [forestIds], by simp [forestIds]⟩
      | cons link rest =>
          obtain ⟨id, expected⟩ := link
          have hid := inRange id (reached _ List.mem_cons_self)
          by_cases hvisited : id ∈ visited
          · simp [faultsFrom, hvisited] at clean
          · obtain ⟨node, hnode⟩ := exists_node?_of_lt hid
            simp only [faultsFrom, List.contains_eq_mem, hvisited, decide_false,
              Bool.false_eq_true, if_false, hnode, List.append_eq_nil_iff,
              PlanNode.faults_eq_nil_iff] at clean
            obtain ⟨⟨hparent, hfits⟩, clean⟩ := clean
            have hreached := reached_links (reached _ List.mem_cons_self) hnode
              fun link member => reached link (List.mem_cons_of_mem _ member)
            have henough := length_links_add_openLinks hid hvisited hnode rest
            rw [List.length_cons] at enough
            obtain ⟨forest, hforest, hsound, hnodup, hfresh⟩ :=
              ih (id :: visited) _ clean hreached (by omega)
            obtain ⟨inner, outer, rfl, hinner, houter⟩ := List.map_eq_append_iff.mp hforest
            refine ⟨(.node id node.kind (inner.reverse.map Prod.fst), expected) :: outer,
              ?_, ?_, ?_, ?_⟩
            · rw [List.map_cons, houter]
              rfl
            · intro rooted hrooted
              rcases List.mem_cons.mp hrooted with rfl | hrooted
              · rw [← hparent]
                exact sound_node hnode hinner hfits fun rooted hrooted =>
                  hsound rooted (List.mem_append_left _ hrooted)
              · exact hsound rooted (List.mem_append_right _ hrooted)
            · rw [(forestIds_node_perm id node.kind expected inner outer).nodup_iff,
                List.nodup_cons]
              exact ⟨fun member => hfresh id member List.mem_cons_self, hnodup⟩
            · intro other member
              rw [(forestIds_node_perm id node.kind expected inner outer).mem_iff,
                List.mem_cons] at member
              rcases member with rfl | member
              · exact hvisited
              · exact fun old => hfresh other member (List.mem_cons_of_mem _ old)

theorem Accepted.holds (accepted : plan.Accepted) :
    plan.Holds plan.tree ∧ plan.tree.WellShaped := by
  have clean : plan.faultsFrom (plan.linkCount + 1) [] [(plan.root, none)] = [] := by
    simpa [isWellFormed, structuralFaults] using accepted.wellFormed
  obtain ⟨forest, hforest, hsound, hnodup, -⟩ :=
    exists_forest_of_faultsFrom accepted.inRange _ [] _ clean
      (by
        intro link hlink
        rw [List.mem_singleton.mp hlink]
        exact .root)
      (by
        rw [openLinks_nil]
        simp
        omega)
  obtain ⟨rooted, rfl, hrooted⟩ := List.map_eq_singleton_iff.mp hforest
  obtain ⟨keeps, shaped⟩ := hsound rooted List.mem_cons_self
  have root_eq : plan.root = rooted.1.id := (congrArg Prod.fst hrooted).symm
  have none_eq : rooted.2 = none := congrArg Prod.snd hrooted
  have holds : plan.Holds rooted.1 :=
    ⟨none_eq ▸ keeps, root_eq, by simpa [forestIds] using hnodup⟩
  rw [holds.tree_eq]
  exact ⟨holds, shaped⟩

theorem faultsFrom_forest (steps : Nat) (visited : List NodeId) (forest : List Rooted)
    (sound : ∀ rooted ∈ forest, rooted.Sound plan) (nodup : (forestIds forest).Nodup)
    (fresh : ∀ id ∈ forestIds forest, id ∉ visited) :
    plan.faultsFrom steps visited (forest.map Rooted.link) = [] := by
  induction steps generalizing visited forest with
  | zero => rw [faultsFrom]
  | succ steps ih =>
      cases forest with
      | nil => rfl
      | cons rooted rest =>
          obtain ⟨⟨id, kind, children⟩, expected⟩ := rooted
          obtain ⟨keeps, shaped⟩ := sound _ List.mem_cons_self
          have hshaped := PlanTree.wellShaped_node.mp shaped
          let inner : List Rooted := children.reverse.map (·, some id)
          have hperm := forestIds_node_perm id kind expected inner rest
          have hback : inner.reverse.map Prod.fst = children := by
            simp [inner, List.map_reverse, Function.comp_def]
          rw [hback] at hperm
          rw [hperm.nodup_iff, List.nodup_cons] at nodup
          have hvisited : id ∉ visited := fresh id (hperm.mem_iff.mpr List.mem_cons_self)
          have hclean : PlanNode.faults id expected
              ⟨kind, expected, children.map PlanTree.id⟩ = [] := by
            rw [PlanNode.faults_eq_nil_iff]
            exact ⟨rfl, by simpa using hshaped.1⟩
          have hpending : (children.map PlanTree.id).reverse.map (·, some id) ++
              rest.map Rooted.link = (inner ++ rest).map Rooted.link := by
            simp [inner, Rooted.link, List.map_reverse, Function.comp_def]
          simp only [List.map_cons, Rooted.link, PlanTree.id_node, faultsFrom, hvisited,
            List.contains_eq_mem, decide_false, Bool.false_eq_true, if_false, keeps.here, hclean,
            List.nil_append]
          rw [hpending]
          refine ih (id :: visited) (inner ++ rest) (fun other hother => ?_) nodup.2
            fun other hother => ?_
          · rcases List.mem_append.mp hother with hother | hother
            · obtain ⟨child, hchild, rfl⟩ := List.mem_map.mp hother
              have hchild := List.mem_reverse.mp hchild
              exact ⟨keeps.child child hchild, hshaped.2 child hchild⟩
            · exact sound other (List.mem_cons_of_mem _ hother)
          · rw [List.mem_cons, not_or]
            refine ⟨fun same => nodup.1 (same ▸ hother), fresh other ?_⟩
            exact hperm.mem_iff.mpr (List.mem_cons_of_mem _ hother)

theorem Holds.mem_ids_of_reached {tree : PlanTree} (holds : plan.Holds tree) {id : NodeId}
    (reached : plan.Reached id) : id ∈ tree.ids := by
  induction reached with
  | root =>
      rw [holds.root]
      exact tree.id_mem_ids
  | child _ member ih =>
      obtain ⟨sub, hsub, rfl⟩ := List.mem_map.mp ih
      rw [holds.children_eq hsub] at member
      obtain ⟨child, hchild, rfl⟩ := List.mem_map.mp member
      apply PlanTree.ids_subset_of_mem_subtrees hsub
      rw [← sub.eta]
      exact PlanTree.mem_ids_of_child hchild child.id_mem_ids

theorem Holds.accepted {tree : PlanTree} (holds : plan.Holds tree) (shaped : tree.WellShaped) :
    plan.Accepted where
  inRange := fun _ reached => holds.lt_size (holds.mem_ids_of_reached reached)
  wellFormed := by
    have clean : plan.faultsFrom (plan.linkCount + 1) []
        ([(tree, none)].map Rooted.link) = [] := by
      apply faultsFrom_forest
      · intro rooted member
        rw [List.mem_singleton.mp member]
        exact ⟨holds.keeps, shaped⟩
      · simpa [forestIds] using holds.nodup
      · simp
    simp only [List.map_cons, List.map_nil, Rooted.link, ← holds.root] at clean
    simp [isWellFormed, structuralFaults, clean]

/-- The check accepts exactly the arenas that hold a well-shaped tree. -/
theorem accepted_iff : plan.Accepted ↔ ∃ tree, plan.Holds tree ∧ tree.WellShaped :=
  ⟨fun accepted => ⟨plan.tree, accepted.holds⟩,
    fun ⟨_, holds, shaped⟩ => holds.accepted shaped⟩

end Plan

end FederatedQuery
