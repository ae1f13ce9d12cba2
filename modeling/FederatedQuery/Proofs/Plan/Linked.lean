import FederatedQuery.Proofs.Plan.Accepted

/-!
# Linked arenas

An arena is linked if links lead from the root to every node along one path only and
each node that is reached records where it is reached from.  A path that came back to a
node would be a second path to it, so paths are shorter than the arena is large, and
the linked arenas are exactly those that hold a tree.
-/

namespace FederatedQuery

namespace Plan

/-- The steps lead from the root to the node, the last one first: each is a position among
the children of the node before. -/
inductive ReachedAlong (plan : Plan) : List Nat → NodeId → Prop
  | root : plan.ReachedAlong [] plan.root
  | child {path : List Nat} {id child : NodeId} {step : Nat} (parent : plan.ReachedAlong path id)
      (found : (plan.children id)[step]? = some child) : plan.ReachedAlong (step :: path) child

structure Linked (plan : Plan) : Prop where
  root : (plan.node? plan.root).map (·.parent) = some none
  links : ∀ id, plan.Reached id → ∀ child ∈ plan.children id, plan.parent? child = some id
  unique : ∀ {first second id}, plan.ReachedAlong first id → plan.ReachedAlong second id →
    first = second

variable {plan : Plan} {tree : PlanTree} {path : List Nat} {id : NodeId}

theorem ReachedAlong.reached (along : plan.ReachedAlong path id) : plan.Reached id := by
  induction along with
  | root => exact .root
  | child _ found ih => exact .child ih (List.mem_of_getElem? found)

/-! ## The tree of a linked arena -/

theorem id_treeWithin (plan : Plan) (depth : Nat) (id : NodeId) :
    (plan.treeWithin depth id).id = id := by
  cases depth with
  | zero => rfl
  | succ depth =>
      rw [treeWithin]
      split <;> rfl

namespace Linked

theorem exists_node? (linked : plan.Linked) (reached : plan.Reached id) :
    ∃ node, plan.node? id = some node := by
  have recorded : (plan.node? id).isSome = true := by
    cases reached with
    | root =>
        have root := linked.root
        cases h : plan.node? plan.root <;> simp [h] at root ⊢
    | child parent member =>
        have link := linked.links _ parent _ member
        rw [parent?] at link
        cases h : plan.node? id <;> simp [h] at link ⊢
  exact Option.isSome_iff_exists.mp recorded

theorem exists_nodup_above (linked : plan.Linked) (along : plan.ReachedAlong path id) :
    ∃ ids : List NodeId, ids.length = path.length + 1 ∧ ids.Nodup ∧ ∀ other ∈ ids,
      ∃ way, way.length ≤ path.length ∧ plan.ReachedAlong way other := by
  induction along with
  | root =>
      refine ⟨[plan.root], rfl, List.nodup_singleton _, fun other member => ?_⟩
      rw [List.mem_singleton.mp member]
      exact ⟨[], Nat.le_refl _, .root⟩
  | @child path id child step parent found ih =>
      obtain ⟨ids, length, nodup, reached⟩ := ih
      have fresh : child ∉ ids := by
        intro member
        obtain ⟨way, short, along⟩ := reached child member
        rw [linked.unique along (.child parent found), List.length_cons] at short
        omega
      refine ⟨child :: ids, by simp [length], List.nodup_cons.mpr ⟨fresh, nodup⟩, ?_⟩
      intro other member
      rcases List.mem_cons.mp member with rfl | member
      · exact ⟨_, Nat.le_refl _, .child parent found⟩
      · obtain ⟨way, short, along⟩ := reached other member
        exact ⟨way, Nat.le_succ_of_le short, along⟩

theorem length_lt_size (linked : plan.Linked) (along : plan.ReachedAlong path id) :
    path.length < plan.size := by
  obtain ⟨ids, length, nodup, reached⟩ := linked.exists_nodup_above along
  have inside : ids ⊆ List.range plan.size := by
    intro other member
    obtain ⟨way, -, along⟩ := reached other member
    obtain ⟨node, found⟩ := linked.exists_node? along.reached
    exact List.mem_range.mpr (node?_lt_size found)
  have few := (nodup.subperm inside).length_le
  rw [List.length_range] at few
  omega

theorem keeps_treeWithin (linked : plan.Linked) {depth : Nat} (along : plan.ReachedAlong path id)
    (deep : plan.size ≤ path.length + depth) :
    plan.Keeps (plan.parent? id) (plan.treeWithin depth id) := by
  induction depth generalizing path id with
  | zero => exact absurd (linked.length_lt_size along) (Nat.not_lt.mpr deep)
  | succ depth ih =>
      obtain ⟨node, found⟩ := linked.exists_node? along.reached
      have children := children_eq_of_node? found
      have recorded : plan.parent? id = node.parent := by simp [parent?, found]
      rw [recorded, treeWithin, found]
      refine .node ?_ fun tree member => ?_
      · simp [found, Function.comp_def, id_treeWithin]
      · obtain ⟨child, hchild, rfl⟩ := List.mem_map.mp member
        rw [← children] at hchild
        obtain ⟨step, hstep⟩ := List.getElem?_of_mem hchild
        rw [← linked.links id along.reached child hchild]
        exact ih (.child along hstep) (by rw [List.length_cons]; omega)

end Linked

theorem ids_treeWithin_succ (plan : Plan) (depth : Nat) (id : NodeId) :
    (plan.treeWithin (depth + 1) id).ids =
      id :: (plan.children id).flatMap fun child => (plan.treeWithin depth child).ids := by
  rw [treeWithin, Plan.children]
  cases plan.node? id with
  | none => rfl
  | some node => simp only [PlanTree.ids_node, List.flatMap_map]

theorem exists_along_of_mem_treeWithin {depth : Nat} {other : NodeId}
    (along : plan.ReachedAlong path id) (member : other ∈ (plan.treeWithin depth id).ids) :
    ∃ below, plan.ReachedAlong (below ++ path) other := by
  induction depth generalizing path id with
  | zero =>
      obtain rfl : other = id := by simpa [treeWithin] using member
      exact ⟨[], along⟩
  | succ depth ih =>
      rw [ids_treeWithin_succ, List.mem_cons, List.mem_flatMap] at member
      rcases member with rfl | ⟨child, hchild, member⟩
      · exact ⟨[], along⟩
      · obtain ⟨step, hstep⟩ := List.getElem?_of_mem hchild
        obtain ⟨below, along'⟩ := ih (.child along hstep) member
        exact ⟨below ++ [step], by simpa using along'⟩

theorem Linked.nodup_treeWithin (linked : plan.Linked) (depth : Nat)
    (along : plan.ReachedAlong path id) : (plan.treeWithin depth id).ids.Nodup := by
  induction depth generalizing path id with
  | zero => simp [treeWithin]
  | succ depth ih =>
      rw [ids_treeWithin_succ, List.nodup_cons, List.nodup_flatMap, List.pairwise_iff_getElem]
      refine ⟨fun member => ?_, fun child hchild => ?_, fun first second hfirst hsecond lt => ?_⟩
      · obtain ⟨child, hchild, member⟩ := List.mem_flatMap.mp member
        obtain ⟨step, hstep⟩ := List.getElem?_of_mem hchild
        obtain ⟨below, again⟩ := exists_along_of_mem_treeWithin (.child along hstep) member
        have length := congrArg List.length (linked.unique along again)
        rw [List.length_append, List.length_cons] at length
        omega
      · obtain ⟨step, hstep⟩ := List.getElem?_of_mem hchild
        exact ih (.child along hstep)
      -- A node below two children would be reached through both of them.
      · intro other inFirst inSecond
        obtain ⟨below, again⟩ := exists_along_of_mem_treeWithin
          (.child along (List.getElem?_eq_getElem hfirst)) inFirst
        obtain ⟨below', again'⟩ := exists_along_of_mem_treeWithin
          (.child along (List.getElem?_eq_getElem hsecond)) inSecond
        have same := linked.unique again again'
        have steps := List.append_inj_right' same rfl
        exact absurd (List.cons.inj steps).1 (Nat.ne_of_lt lt)

theorem Linked.holds (linked : plan.Linked) : plan.Holds plan.tree := by
  obtain ⟨node, found, parent⟩ := Option.map_eq_some_iff.mp linked.root
  have keeps : plan.Keeps (plan.parent? plan.root) plan.tree :=
    linked.keeps_treeWithin .root (by simp)
  rw [parent?, found, Option.bind_some, parent] at keeps
  exact ⟨keeps, (id_treeWithin plan plan.size plan.root).symm, linked.nodup_treeWithin _ .root⟩

/-! ## The links of a tree -/

theorem Holds.parent?_of_child (holds : plan.Holds tree) {sub child : PlanTree}
    (member : sub ∈ tree.subtrees) (hchild : child ∈ sub.children) :
    plan.parent? child.id = some sub.id := by
  obtain ⟨above, keeps⟩ := holds.keeps_of_mem member
  rw [← sub.eta] at keeps
  rw [parent?, (keeps.child child hchild).node?_id]
  rfl

theorem Holds.exists_of_reached (holds : plan.Holds tree) (reached : plan.Reached id) :
    ∃ sub ∈ tree.subtrees, sub.id = id ∧ plan.children id = sub.children.map PlanTree.id := by
  obtain ⟨sub, member, rfl⟩ := List.mem_map.mp (holds.mem_ids_of_reached reached)
  exact ⟨sub, member, rfl, holds.children_eq member⟩

theorem Holds.reached (holds : plan.Holds tree) {sub : PlanTree} (member : sub ∈ tree.subtrees) :
    plan.Reached sub.id := by
  obtain ⟨frames, rfl⟩ := PlanTree.exists_within_of_mem member
  induction frames generalizing sub with
  | nil => exact holds.root ▸ .root
  | cons frame rest ih =>
      refine .child (ih holds (PlanTree.mem_subtrees_within_self (frame.fill sub) rest)) ?_
      rw [holds.children_eq (PlanTree.mem_subtrees_within_self (frame.fill sub) rest)]
      simp [Frame.fill]

theorem Holds.link (holds : plan.Holds tree) (reached : plan.Reached id) {child : NodeId}
    (member : child ∈ plan.children id) : plan.parent? child = some id := by
  obtain ⟨sub, hsub, rfl, children⟩ := holds.exists_of_reached reached
  rw [children] at member
  obtain ⟨below, hbelow, rfl⟩ := List.mem_map.mp member
  exact holds.parent?_of_child hsub hbelow

theorem Holds.root_node? (holds : plan.Holds tree) :
    (plan.node? plan.root).map (·.parent) = some none := by
  rw [holds.root, holds.keeps.node?_id]
  rfl

theorem Holds.nodup_children (holds : plan.Holds tree) (reached : plan.Reached id) :
    (plan.children id).Nodup := by
  obtain ⟨sub, hsub, rfl, children⟩ := holds.exists_of_reached reached
  have nodup := PlanTree.nodup_of_mem_subtrees holds.nodup hsub
  rw [← sub.eta, PlanTree.ids_node] at nodup
  have heads : (sub.children.map PlanTree.id).Sublist (sub.children.flatMap PlanTree.ids) := by
    induction sub.children with
    | nil => exact .refl _
    | cons child rest ih =>
        rw [List.map_cons, List.flatMap_cons, ← List.singleton_append]
        exact (List.singleton_sublist.mpr child.id_mem_ids).append ih
  rw [children]
  exact (List.nodup_cons.mp nodup).2.sublist heads

/-- A node records the one before it on any path, and stands once among its children. -/
theorem Holds.along_unique (holds : plan.Holds tree) {first second : List Nat}
    (hfirst : plan.ReachedAlong first id) (hsecond : plan.ReachedAlong second id) :
    first = second := by
  have top {above : NodeId} (reached : plan.Reached above)
      (member : plan.root ∈ plan.children above) : False := by
    have link := holds.link reached member
    have root := holds.root_node?
    obtain ⟨node, found, parent⟩ := Option.map_eq_some_iff.mp root
    rw [parent?, found, Option.bind_some, parent] at link
    cases link
  induction hfirst generalizing second with
  | root =>
      cases hsecond with
      | root => rfl
      | child above found => exact (top above.reached (List.mem_of_getElem? found)).elim
  | @child path above child step hpath hstep ih =>
      cases hsecond with
      | root => exact (top hpath.reached (List.mem_of_getElem? hstep)).elim
      | @child path' above' _ step' hpath' hstep' =>
          have link := holds.link hpath.reached (List.mem_of_getElem? hstep)
          rw [holds.link hpath'.reached (List.mem_of_getElem? hstep'), Option.some.injEq] at link
          subst link
          have inRange := (List.getElem?_eq_some_iff.mp hstep).1
          rw [ih hpath', (List.getElem?_inj inRange (holds.nodup_children hpath.reached)).mp
            (hstep.trans hstep'.symm)]

/-- The linked arenas are those that hold a tree. -/
theorem linked_iff : plan.Linked ↔ ∃ tree, plan.Holds tree :=
  ⟨fun linked => ⟨plan.tree, linked.holds⟩, fun ⟨_, holds⟩ =>
    ⟨holds.root_node?, fun _ reached _ => holds.link reached, holds.along_unique⟩⟩

end Plan

end FederatedQuery
