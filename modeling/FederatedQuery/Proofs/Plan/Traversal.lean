import FederatedQuery.Proofs.Plan.Linked
import Mathlib.Logic.Relation

/-!
# Searches that keep a stack

A search may keep the nodes that it still has to visit on a stack and put the children of
each node that it takes off there, the first child on top.  On a plan that holds a tree such
a search ends, and it visits the tree in preorder: a node comes before those below it, and
what is below one child comes before what is below a later one.  Searching by recursion
finds the same nodes in the same order.
-/

namespace FederatedQuery

/-- A search that starts with a stack of nodes, the top first, ends after it has visited some
nodes, the first visited first.  What `next` gives for a node takes its place on the stack. -/
inductive Drains (next : NodeId → List NodeId) : List NodeId → List NodeId → Prop
  | done : Drains next [] []
  | visit {id : NodeId} {stack visited : List NodeId}
      (rest : Drains next (next id ++ stack) visited) : Drains next (id :: stack) (id :: visited)

theorem Drains.unique {next : NodeId → List NodeId} {stack first second : List NodeId}
    (hfirst : Drains next stack first) (hsecond : Drains next stack second) : first = second := by
  induction hfirst generalizing second with
  | done =>
      cases hsecond
      rfl
  | visit _ ih =>
      cases hsecond with
      | visit rest => rw [ih rest]

namespace PlanTree

def properSubtrees (tree : PlanTree) : List PlanTree := tree.children.flatMap subtrees

theorem mem_subtrees_iff {tree sub : PlanTree} :
    sub ∈ tree.subtrees ↔ sub = tree ∨ sub ∈ tree.properSubtrees := by
  obtain ⟨id, kind, children⟩ := tree
  rw [subtrees_node, List.mem_cons]
  rfl

theorem self_notMem_properSubtrees (tree : PlanTree) : tree ∉ tree.properSubtrees := by
  obtain ⟨id, kind, children⟩ := tree
  intro member
  obtain ⟨child, hchild, member⟩ := List.mem_flatMap.mp member
  have lower := height_lt_of_mem id kind hchild
  exact absurd (height_le_of_mem_subtrees member) (Nat.not_le.mpr lower)

theorem mem_visit_of_free {stop : NodeKind → Bool} {tree sub : PlanTree}
    (member : sub ∈ tree.subtrees)
    (free : ∀ above ∈ tree.subtrees, sub ∈ above.properSubtrees → stop above.kind = false) :
    sub ∈ tree.visit stop := by
  induction tree with
  | node id kind children ih =>
      rw [visit_node, List.mem_cons]
      rcases mem_subtrees_iff.mp member with same | proper
      · exact .inl same
      · have enters : stop kind = false := free _ (self_mem_subtrees _) proper
        obtain ⟨child, hchild, inside⟩ := List.mem_flatMap.mp proper
        rw [enters, if_neg (by simp), List.mem_flatMap]
        exact .inr ⟨child, hchild, ih child hchild inside fun above habove =>
          free above (mem_subtrees_of_child hchild habove)⟩

theorem mem_visit_iff {stop : NodeKind → Bool} {tree sub : PlanTree} (nodup : tree.ids.Nodup) :
    sub ∈ tree.visit stop ↔
      sub ∈ tree.subtrees ∧
        ∀ above ∈ tree.subtrees, sub ∈ above.properSubtrees → stop above.kind = false := by
  refine ⟨fun visited => ⟨visit_subset_subtrees stop tree visited, fun above habove inside => ?_⟩,
    fun ⟨member, free⟩ => mem_visit_of_free member free⟩
  by_contra stops
  have same := eq_of_mem_visit nodup visited habove (Bool.not_eq_false _ ▸ stops)
    (mem_subtrees_iff.mpr (.inr inside))
  exact self_notMem_properSubtrees above (same ▸ inside)

/-! ## Stacks of trees -/

theorem drains_forest {next : NodeId → List NodeId} {block : PlanTree → List NodeId}
    {trees : List PlanTree}
    (each : ∀ tree ∈ trees, ∀ stack visited, Drains next stack visited →
      Drains next (tree.id :: stack) (block tree ++ visited))
    {stack visited : List NodeId} (rest : Drains next stack visited) :
    Drains next (trees.map id ++ stack) (trees.flatMap block ++ visited) := by
  induction trees with
  | nil => exact rest
  | cons tree trees ih =>
      rw [List.map_cons, List.flatMap_cons, List.append_assoc]
      exact each tree List.mem_cons_self _ _
        (ih fun other hother => each other (List.mem_cons_of_mem _ hother))

/-- The first child on top: the tree is visited in preorder. -/
theorem drains_visit {next : NodeId → List NodeId} {stop : NodeKind → Bool} {tree : PlanTree}
    (follows : ∀ sub ∈ tree.subtrees,
      next sub.id = if stop sub.kind then [] else sub.children.map id)
    {stack visited : List NodeId} (rest : Drains next stack visited) :
    Drains next (tree.id :: stack) ((tree.visit stop).map id ++ visited) := by
  induction tree generalizing stack visited with
  | node position kind children ih =>
      rw [visit_node, List.map_cons, List.cons_append]
      refine .visit ?_
      rw [follows _ (self_mem_subtrees _), kind_node, children_node]
      cases stop kind with
      | true => exact rest
      | false =>
          rw [if_neg (by simp), if_neg (by simp), List.map_flatMap]
          exact drains_forest (fun child hchild _ _ => ih child hchild fun sub hsub =>
            follows sub (mem_subtrees_of_child hchild hsub)) rest

def idsFromRight (tree : PlanTree) : List NodeId :=
  tree.fold fun id _ blocks => id :: blocks.reverse.flatten

theorem idsFromRight_node (id : NodeId) (kind : NodeKind) (children : List PlanTree) :
    (PlanTree.node id kind children).idsFromRight =
      id :: children.reverse.flatMap idsFromRight := by
  rw [idsFromRight, fold_node, ← List.map_reverse, ← List.flatMap_def]
  rfl

theorem idsFromRight_perm (tree : PlanTree) : tree.idsFromRight.Perm tree.ids := by
  induction tree with
  | node id kind children ih =>
      rw [idsFromRight_node, ids_node]
      refine .cons _ (((List.reverse_perm children).flatMap_right _).trans ?_)
      exact List.Perm.flatMap_left children ih

/-- The last child on top: every node of the tree is visited just as well. -/
theorem drains_idsFromRight {next : NodeId → List NodeId} {tree : PlanTree}
    (follows : ∀ sub ∈ tree.subtrees, next sub.id = (sub.children.map id).reverse)
    {stack visited : List NodeId} (rest : Drains next stack visited) :
    Drains next (tree.id :: stack) (tree.idsFromRight ++ visited) := by
  induction tree generalizing stack visited with
  | node position kind children ih =>
      rw [idsFromRight_node, List.cons_append]
      refine .visit ?_
      rw [follows _ (self_mem_subtrees _), children_node, ← List.map_reverse]
      refine drains_forest (fun child hchild _ _ => ?_) rest
      have hchild := List.mem_reverse.mp hchild
      exact ih child hchild fun sub hsub => follows sub (mem_subtrees_of_child hchild hsub)

end PlanTree

def NodeType.passing : List NodeType := [.select, .project, .sort, .dupRemove]

theorem NodeType.contains_passing (type : NodeType) :
    NodeType.passing.contains type = type.isTransparent := by
  cases type <;> rfl

theorem NodeType.arity?_of_isTransparent {type : NodeType} (h : type.isTransparent = true) :
    type.arity? = some 1 := by
  cases type <;> first | rfl | cases h

namespace Plan

def Lists (plan : Plan) (id child : NodeId) : Prop := child ∈ plan.children id

def Reaches (plan : Plan) : NodeId → NodeId → Prop := Relation.ReflTransGen plan.Lists

def IsAbove (plan : Plan) : NodeId → NodeId → Prop := Relation.TransGen plan.Lists

/-- The one node stands above the other, or somewhere in the plan below an earlier child. -/
def Precedes (plan : Plan) (first second : NodeId) : Prop :=
  plan.IsAbove first second ∨
    ∃ fork left right, [left, right].Sublist (plan.children fork) ∧
      plan.Reaches left first ∧ plan.Reaches right second

def entered (plan : Plan) (stop : List NodeType) (id : NodeId) : List NodeId :=
  if plan.hasType stop id then [] else plan.children id

/-- What a search from a node is to find, and in what order. -/
structure Searches (plan : Plan) (start : NodeId) (types stop : List NodeType) : Prop where
  ends : ∃ visited, Drains (plan.entered stop) [start] visited
  finds : ∀ visited, Drains (plan.entered stop) [start] visited →
    plan.findAll start types stop = visited.filter (plan.hasType types)
  recursive : plan.findAll start types stop =
    (if plan.hasType types start then [start] else []) ++
      (plan.entered stop start).flatMap (plan.findAll · types stop)
  mem_iff : ∀ id, id ∈ plan.findAll start types stop ↔
    plan.Reaches start id ∧ plan.hasType types id = true ∧
      ∀ above, plan.Reaches start above → plan.IsAbove above id →
        plan.hasType stop above = false
  nodup : (plan.findAll start types stop).Nodup
  ordered : (plan.findAll start types stop).Pairwise plan.Precedes

/-- What is counted without an order: a search that has the last child on top of its stack comes to
as many nodes as are found if every type is looked for. -/
structure Counts (plan : Plan) : Prop where
  ends : ∃ visited, Drains (fun id => (plan.children id).reverse) [plan.root] visited
  counted : ∀ visited, Drains (fun id => (plan.children id).reverse) [plan.root] visited →
    plan.nodeCount = visited.length
  found : (plan.findAll plan.root NodeType.all []).length = plan.nodeCount

/-- Going from first child to first child for as long as the node only passes rows on, one comes
to `last`. -/
inductive PassesTo (plan : Plan) : NodeId → NodeId → Prop
  | here {id : NodeId} (solid : plan.hasType NodeType.passing id = false) : plan.PassesTo id id
  | through {id child last : NodeId} (passes : plan.hasType NodeType.passing id = true)
      (first : plan.firstChild? id = some child) (rest : plan.PassesTo child last) :
      plan.PassesTo id last

variable {plan : Plan} {tree sub : PlanTree} {id : NodeId} {types stop : List NodeType}

namespace Holds

theorem reaches_iff (holds : plan.Holds tree) (member : sub ∈ tree.subtrees) :
    plan.Reaches sub.id id ↔ id ∈ sub.ids := by
  constructor
  · intro reaches
    induction reaches with
    | refl => exact sub.id_mem_ids
    | tail _ listed ih =>
        obtain ⟨other, hother, rfl⟩ := List.mem_map.mp ih
        have inside := PlanTree.subtrees_subset_of_mem member hother
        rw [Lists, holds.children_eq inside] at listed
        obtain ⟨child, hchild, rfl⟩ := List.mem_map.mp listed
        apply PlanTree.ids_subset_of_mem_subtrees hother
        rw [← other.eta]
        exact PlanTree.mem_ids_of_child hchild child.id_mem_ids
  · intro inside
    induction sub with
    | node position kind children ih =>
        rw [PlanTree.ids_node, List.mem_cons, List.mem_flatMap] at inside
        rcases inside with rfl | ⟨child, hchild, inside⟩
        · exact .refl
        · have inputs : plan.children position = children.map PlanTree.id :=
            holds.children_eq member
          have listed : plan.Lists position child.id := by
            rw [Lists, inputs]
            exact List.mem_map_of_mem hchild
          exact .head listed
            (ih child hchild (PlanTree.child_mem_subtrees member hchild) inside)

theorem isAbove_iff (holds : plan.Holds tree) (member : sub ∈ tree.subtrees) :
    plan.IsAbove sub.id id ↔ id ∈ sub.properSubtrees.map PlanTree.id := by
  have children := holds.children_eq member
  have below {child : PlanTree} (hchild : child ∈ sub.children) :
      plan.Reaches child.id id ↔ id ∈ child.ids :=
    holds.reaches_iff (PlanTree.child_mem_subtrees (sub.eta ▸ member) hchild)
  rw [IsAbove, Relation.TransGen.head'_iff, PlanTree.properSubtrees, List.map_flatMap]
  simp only [Lists, children, List.mem_map, List.mem_flatMap]
  constructor
  · rintro ⟨_, ⟨child, hchild, rfl⟩, reaches⟩
    exact ⟨child, hchild, List.mem_map.mp ((below hchild).mp reaches)⟩
  · rintro ⟨child, hchild, inside⟩
    exact ⟨child.id, ⟨child, hchild, rfl⟩, (below hchild).mpr (List.mem_map.mpr inside)⟩

theorem pairwise_precedes (holds : plan.Holds tree) (member : sub ∈ tree.subtrees) :
    sub.ids.Pairwise plan.Precedes := by
  induction sub with
  | node position kind children ih =>
      have inputs : plan.children position = children.map PlanTree.id := holds.children_eq member
      rw [PlanTree.ids_node, List.pairwise_cons, List.pairwise_flatMap]
      refine ⟨fun other hother => .inl ((holds.isAbove_iff member).mpr ?_), fun child hchild =>
        ih child hchild (PlanTree.child_mem_subtrees member hchild), ?_⟩
      · rw [PlanTree.properSubtrees, List.map_flatMap]
        exact hother
      · refine List.pairwise_iff_forall_sublist.mpr fun {left right} pair first hfirst second
          hsecond => .inr ⟨position, left.id, right.id, ?_, ?_, ?_⟩
        · rw [inputs]
          exact pair.map PlanTree.id
        · have hleft := pair.subset List.mem_cons_self
          exact (holds.reaches_iff (PlanTree.child_mem_subtrees member hleft)).mpr hfirst
        · have hright := pair.subset (List.mem_cons_of_mem _ List.mem_cons_self)
          exact (holds.reaches_iff (PlanTree.child_mem_subtrees member hright)).mpr hsecond

theorem isAbove_id_iff (holds : plan.Holds tree) {upper lower : PlanTree}
    (hupper : upper ∈ tree.subtrees) (hlower : lower ∈ tree.subtrees) :
    plan.IsAbove upper.id lower.id ↔ lower ∈ upper.properSubtrees := by
  rw [holds.isAbove_iff hupper]
  refine ⟨fun member => ?_, List.mem_map_of_mem⟩
  obtain ⟨other, hother, same⟩ := List.mem_map.mp member
  have below := PlanTree.mem_subtrees_iff.mpr (.inr hother)
  have inside := PlanTree.subtrees_subset_of_mem hupper below
  exact PlanTree.eq_of_id_eq holds.nodup inside hlower same ▸ hother

theorem mem_findAll_iff (holds : plan.Holds tree) (member : sub ∈ tree.subtrees) :
    id ∈ plan.findAll sub.id types stop ↔
      plan.Reaches sub.id id ∧ plan.hasType types id = true ∧
        ∀ above, plan.Reaches sub.id above → plan.IsAbove above id →
          plan.hasType stop above = false := by
  have inside {other : PlanTree} (hother : other ∈ sub.subtrees) : other ∈ tree.subtrees :=
    PlanTree.subtrees_subset_of_mem member hother
  have nodup := PlanTree.nodup_of_mem_subtrees holds.nodup member
  rw [holds.findAll_eq member, List.mem_map]
  constructor
  · rintro ⟨other, hother, rfl⟩
    obtain ⟨visited, wanted⟩ := List.mem_filter.mp hother
    obtain ⟨hother, free⟩ := (PlanTree.mem_visit_iff nodup).mp visited
    refine ⟨(holds.reaches_iff member).mpr (List.mem_map_of_mem hother), ?_, ?_⟩
    · rwa [holds.hasType_eq (inside hother)]
    · intro above reaches isAbove
      obtain ⟨upper, hupper, rfl⟩ := List.mem_map.mp ((holds.reaches_iff member).mp reaches)
      rw [holds.hasType_eq (inside hupper)]
      exact free upper hupper ((holds.isAbove_id_iff (inside hupper) (inside hother)).mp isAbove)
  · rintro ⟨reaches, wanted, free⟩
    obtain ⟨other, hother, rfl⟩ := List.mem_map.mp ((holds.reaches_iff member).mp reaches)
    rw [holds.hasType_eq (inside hother)] at wanted
    refine ⟨other, List.mem_filter.mpr ⟨?_, wanted⟩, rfl⟩
    refine (PlanTree.mem_visit_iff nodup).mpr ⟨hother, fun upper hupper lower => ?_⟩
    have isAbove := (holds.isAbove_id_iff (inside hupper) (inside hother)).mpr lower
    have reachesUpper := (holds.reaches_iff member).mpr (List.mem_map_of_mem hupper)
    rw [← holds.hasType_eq (inside hupper)]
    exact free upper.id reachesUpper isAbove

theorem findAll_sublist (holds : plan.Holds tree) (member : sub ∈ tree.subtrees) :
    (plan.findAll sub.id types stop).Sublist sub.ids := by
  rw [holds.findAll_eq member]
  exact (List.filter_sublist.trans (PlanTree.visit_sublist_subtrees _ _)).map _

theorem entered_eq (holds : plan.Holds tree) (member : sub ∈ tree.subtrees) :
    plan.entered stop sub.id =
      if stop.contains sub.kind.nodeType then [] else sub.children.map PlanTree.id := by
  rw [entered, holds.hasType_eq member, holds.children_eq member]

theorem findAll_recursive (holds : plan.Holds tree) (member : sub ∈ tree.subtrees) :
    plan.findAll sub.id types stop =
      (if plan.hasType types sub.id then [sub.id] else []) ++
        (plan.entered stop sub.id).flatMap (plan.findAll · types stop) := by
  rw [holds.findAll_eq member, holds.entered_eq member, holds.hasType_eq member]
  obtain ⟨position, kind, children⟩ := sub
  have below : (children.map PlanTree.id).flatMap (plan.findAll · types stop) =
      ((children.flatMap (PlanTree.visit fun kind => stop.contains kind.nodeType)).filter
        fun other => types.contains other.kind.nodeType).map PlanTree.id := by
    rw [List.flatMap_map, List.filter_flatMap, List.map_flatMap]
    exact List.flatMap_congr fun child hchild =>
      holds.findAll_eq (PlanTree.child_mem_subtrees member hchild) types stop
  rw [PlanTree.visit_node, List.filter_cons, PlanTree.kind_node, PlanTree.id_node,
    PlanTree.children_node]
  cases stop.contains kind.nodeType <;> cases types.contains kind.nodeType <;>
    simp only [Bool.false_eq_true, if_true, if_false, below, List.filter_nil, List.map_nil,
      List.map_cons, List.flatMap_nil, List.append_nil, List.nil_append, List.cons_append,
      PlanTree.id_node]

theorem searches (holds : plan.Holds tree) (member : sub ∈ tree.subtrees) :
    plan.Searches sub.id types stop := by
  have inside {other : PlanTree} (hother : other ∈ sub.subtrees) : other ∈ tree.subtrees :=
    PlanTree.subtrees_subset_of_mem member hother
  have drains : Drains (plan.entered stop) [sub.id]
      ((sub.visit fun kind => stop.contains kind.nodeType).map PlanTree.id ++ []) :=
    PlanTree.drains_visit (fun other hother => holds.entered_eq (inside hother)) .done
  refine ⟨⟨_, drains⟩, fun visited other => ?_, holds.findAll_recursive member,
    fun id => holds.mem_findAll_iff member, ?_, ?_⟩
  · rw [other.unique drains, holds.findAll_eq member, List.append_nil, List.filter_map]
    congr 1
    refine List.filter_congr fun other hother => ?_
    exact (holds.hasType_eq (inside (PlanTree.visit_subset_subtrees _ _ hother)) types).symm
  · exact (PlanTree.nodup_of_mem_subtrees holds.nodup member).sublist (holds.findAll_sublist member)
  · exact (holds.pairwise_precedes member).sublist (holds.findAll_sublist member)

theorem findAll_all (holds : plan.Holds tree) :
    plan.findAll plan.root NodeType.all [] = tree.ids := by
  rw [holds.findAll_root_eq, PlanTree.ids, PlanTree.subtrees, List.filter_eq_self.mpr]
  · rfl
  · intro other _
    cases other.kind <;> rfl

theorem passesTo (holds : plan.Holds tree) (shaped : tree.WellShaped)
    (member : sub ∈ tree.subtrees) : plan.PassesTo sub.id (plan.sourceOf sub.id) := by
  rw [holds.sourceOf_eq member, PlanTree.source]
  induction sub with
  | node position kind children ih =>
      have passes := holds.hasType_eq member NodeType.passing
      rw [NodeType.contains_passing] at passes
      cases h : kind.isTransparent with
      | false =>
          rw [PlanTree.descend_of_not_step h]
          exact .here (passes.trans h)
      | true =>
          have arity : kind.nodeType.arity? = some 1 := NodeType.arity?_of_isTransparent h
          obtain ⟨child, rfl⟩ := List.length_eq_one_iff.mp ((shaped _ member).arity 1 arity)
          rw [PlanTree.descend_of_step h]
          have hchild := PlanTree.child_mem_subtrees member (List.mem_singleton_self child)
          exact .through (passes.trans h) (holds.firstChild?_eq member)
            (ih child (List.mem_singleton_self child) hchild)

theorem counts (holds : plan.Holds tree) : plan.Counts := by
  have drains : Drains (fun id => (plan.children id).reverse) [tree.id]
      (tree.idsFromRight ++ []) :=
    PlanTree.drains_idsFromRight
      (fun other hother => congrArg List.reverse (holds.children_eq hother)) .done
  have count : plan.nodeCount = tree.ids.length := by rw [nodeCount, holds.preorder_root]
  rw [← holds.root, List.append_nil] at drains
  refine ⟨⟨_, drains⟩, fun visited other => ?_, ?_⟩
  · rw [other.unique drains, count, tree.idsFromRight_perm.length_eq]
  · rw [count, holds.findAll_all]

end Holds

/-- On an accepted plan a search from any node that is reached ends and finds what it is to find,
in preorder, the nodes are counted, and a join reads from the first node that does not only
pass rows on. -/
theorem Accepted.findAll_searches {start : NodeId} (accepted : plan.Accepted)
    (reached : plan.Reached start) :
    (∀ types stop, plan.Searches start types stop) ∧ plan.Counts ∧
      plan.PassesTo start (plan.sourceOf start) := by
  obtain ⟨holds, shaped⟩ := accepted.holds
  obtain ⟨sub, member, rfl, -⟩ := holds.exists_of_reached reached
  exact ⟨fun types stop => holds.searches member, holds.counts, holds.passesTo shaped member⟩

def filteredInput : Plan :=
  let keep : NodeKind := .select ⟨.isNull (.literal .null) false, false⟩
  ⟨[⟨keep, none, [1]⟩, ⟨.join { joinType := .inner }, some 0, [2, 4]⟩, ⟨keep, some 1, [3]⟩,
    ⟨.access { group := .named "pm1.g1" }, some 2, []⟩,
    ⟨.access { group := .named "pm2.g1" }, some 1, []⟩], 0⟩

theorem filteredInput_searched :
    filteredInput.Searches 1 [.select, .access] [.select] ∧ filteredInput.Counts ∧
      filteredInput.PassesTo 1 1 ∧
      filteredInput.findAll 1 [.select, .access] [.select] = [2, 4] := by
  have accepted : filteredInput.Accepted := .of_links (by decide) (by decide) (by decide)
  have reached : filteredInput.Reached 1 := .child .root (by decide)
  obtain ⟨searches, counts, passes⟩ := accepted.findAll_searches reached
  exact ⟨searches _ _, counts, passes, by decide⟩

end Plan

end FederatedQuery
