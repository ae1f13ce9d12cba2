import FederatedQuery.Proofs.Plan.Tree
import Mathlib.Data.List.Nodup

/-!
# Trees in a context

Surgery changes a plan at one place.  The nodes around that place form a context:
the frames on the way from the hole up to the root, each with the trees beside the
way.  What a fold makes of the whole only depends on what it makes of the tree in
the hole, and the positions of the whole are those of the frames and of that tree.
-/

namespace FederatedQuery

universe u

/-- A node on the way to a hole, with the trees on both sides of the way. -/
structure Frame where
  id : NodeId
  kind : NodeKind
  left : List PlanTree
  right : List PlanTree

namespace Frame

def fill (frame : Frame) (tree : PlanTree) : PlanTree :=
  .node frame.id frame.kind (frame.left ++ tree :: frame.right)

def sides (frame : Frame) : List PlanTree := frame.left ++ frame.right

def ids (frame : Frame) : List NodeId := frame.id :: frame.sides.flatMap PlanTree.ids

@[simp] theorem id_fill (frame : Frame) (tree : PlanTree) : (frame.fill tree).id = frame.id := rfl

theorem ids_fill_perm (frame : Frame) (tree : PlanTree) :
    (frame.fill tree).ids.Perm (frame.ids ++ tree.ids) := by
  rw [fill, PlanTree.ids_node, ids, sides, List.flatMap_append, List.flatMap_append,
    List.flatMap_cons, List.cons_append, List.append_assoc]
  exact .cons _ (.append_left _ List.perm_append_comm)

theorem mem_subtrees_fill {frame : Frame} {tree other : PlanTree} :
    other ∈ (frame.fill tree).subtrees ↔
      other = frame.fill tree ∨ other ∈ tree.subtrees ∨
        ∃ side ∈ frame.sides, other ∈ side.subtrees := by
  simp only [fill, sides, PlanTree.subtrees_node, List.mem_cons, List.mem_flatMap,
    List.mem_append]
  grind

def parent? (frames : List Frame) : Option NodeId := frames.head?.map id

def outerIds (frames : List Frame) : List NodeId := frames.flatMap ids

@[simp] theorem parent?_nil : parent? [] = none := rfl

@[simp] theorem parent?_cons (frame : Frame) (rest : List Frame) :
    parent? (frame :: rest) = some frame.id := rfl

@[simp] theorem outerIds_cons (frame : Frame) (rest : List Frame) :
    outerIds (frame :: rest) = frame.ids ++ outerIds rest := rfl

theorem id_mem_outerIds {frame : Frame} {frames : List Frame} (member : frame ∈ frames) :
    frame.id ∈ outerIds frames :=
  List.mem_flatMap.mpr ⟨frame, member, List.mem_cons_self⟩

end Frame

namespace PlanTree

/-- The tree that results from filling a hole, whose innermost frame comes first. -/
def within (tree : PlanTree) : List Frame → PlanTree
  | [] => tree
  | frame :: rest => (frame.fill tree).within rest

@[simp] theorem within_nil (tree : PlanTree) : tree.within [] = tree := rfl

theorem within_cons (tree : PlanTree) (frame : Frame) (rest : List Frame) :
    tree.within (frame :: rest) = (frame.fill tree).within rest := rfl

theorem within_append (tree : PlanTree) (inner outer : List Frame) :
    tree.within (inner ++ outer) = (tree.within inner).within outer := by
  induction inner generalizing tree with
  | nil => rfl
  | cons frame rest ih => exact ih (frame.fill tree)

theorem ids_within_perm (tree : PlanTree) (frames : List Frame) :
    (tree.within frames).ids.Perm (Frame.outerIds frames ++ tree.ids) := by
  induction frames generalizing tree with
  | nil => exact .refl _
  | cons frame rest ih =>
      have inner := (ih (frame.fill tree)).trans
        (.append_left (Frame.outerIds rest) (frame.ids_fill_perm tree))
      rw [← List.append_assoc] at inner
      exact inner.trans (.append_right _ List.perm_append_comm)

/-- In preorder the tree in the hole is one block. -/
theorem exists_ids_within (frames : List Frame) :
    ∃ before after, ∀ tree : PlanTree, (tree.within frames).ids = before ++ tree.ids ++ after := by
  induction frames with
  | nil => exact ⟨[], [], by simp⟩
  | cons frame rest ih =>
      obtain ⟨before, after, outer⟩ := ih
      refine ⟨before ++ frame.id :: frame.left.flatMap ids, frame.right.flatMap ids ++ after,
        fun tree => ?_⟩
      rw [within_cons, outer, Frame.fill, ids_node]
      simp

theorem mem_ids_within {tree : PlanTree} {frames : List Frame} {position : NodeId} :
    position ∈ (tree.within frames).ids ↔
      position ∈ Frame.outerIds frames ∨ position ∈ tree.ids := by
  rw [(tree.ids_within_perm frames).mem_iff, List.mem_append]

theorem nodup_ids_within {tree : PlanTree} {frames : List Frame} :
    (tree.within frames).ids.Nodup ↔
      (Frame.outerIds frames).Nodup ∧ tree.ids.Nodup ∧
        (Frame.outerIds frames).Disjoint tree.ids := by
  rw [(tree.ids_within_perm frames).nodup_iff, List.nodup_append']

theorem id_within_congr {tree other : PlanTree} (same : tree.id = other.id)
    (frames : List Frame) : (tree.within frames).id = (other.within frames).id := by
  induction frames generalizing tree other with
  | nil => exact same
  | cons frame rest ih => exact ih rfl

theorem id_within_cons (tree other : PlanTree) (frame : Frame) (rest : List Frame) :
    (tree.within (frame :: rest)).id = (other.within (frame :: rest)).id := by
  have same : (frame.fill tree).id = (frame.fill other).id := rfl
  exact id_within_congr same rest

theorem id_within_mem_outerIds (tree : PlanTree) (frame : Frame) (rest : List Frame) :
    (tree.within (frame :: rest)).id ∈ Frame.outerIds (frame :: rest) := by
  induction rest generalizing tree frame with
  | nil => exact Frame.id_mem_outerIds List.mem_cons_self
  | cons next rest ih =>
      rw [Frame.outerIds_cons, List.mem_append]
      exact .inr (ih (frame.fill tree) next)

theorem fold_within_congr {α : Type u} (combine : NodeId → NodeKind → List α → α)
    {tree other : PlanTree} (same : tree.fold combine = other.fold combine)
    (frames : List Frame) :
    (tree.within frames).fold combine = (other.within frames).fold combine := by
  induction frames generalizing tree other with
  | nil => exact same
  | cons frame rest ih =>
      apply ih
      simp only [Frame.fill, fold_node, List.map_append, List.map_cons, same]

/-! ## Subtrees of the whole -/

def enclosing (tree : PlanTree) : List Frame → List PlanTree
  | [] => []
  | frame :: rest => frame.fill tree :: (frame.fill tree).enclosing rest

theorem mem_subtrees_within {tree other : PlanTree} {frames : List Frame} :
    other ∈ (tree.within frames).subtrees ↔
      other ∈ tree.subtrees ∨ other ∈ tree.enclosing frames ∨
        ∃ frame ∈ frames, ∃ side ∈ frame.sides, other ∈ side.subtrees := by
  induction frames generalizing tree with
  | nil => simp [enclosing]
  | cons frame rest ih =>
      rw [within_cons, ih, Frame.mem_subtrees_fill]
      simp only [enclosing, List.mem_cons, exists_eq_or_imp]
      grind

theorem exists_frame_of_mem_enclosing {tree other : PlanTree} {frames : List Frame}
    (member : other ∈ tree.enclosing frames) : ∃ frame ∈ frames, other.kind = frame.kind := by
  induction frames generalizing tree with
  | nil => cases member
  | cons frame rest ih =>
      rcases List.mem_cons.mp member with rfl | member
      · exact ⟨frame, List.mem_cons_self, rfl⟩
      · obtain ⟨other', hother, hkind⟩ := ih member
        exact ⟨other', List.mem_cons_of_mem _ hother, hkind⟩

theorem mem_subtrees_within_self (tree : PlanTree) (frames : List Frame) :
    tree ∈ (tree.within frames).subtrees :=
  mem_subtrees_within.mpr (.inl tree.self_mem_subtrees)

/-- Every node that a visit comes to stands in a context in which nothing stops. -/
theorem exists_within_of_mem_visit {stop : NodeKind → Bool} {tree sub : PlanTree}
    (member : sub ∈ tree.visit stop) :
    ∃ frames, tree = sub.within frames ∧ ∀ frame ∈ frames, stop frame.kind = false := by
  induction tree with
  | node id kind children ih =>
      rw [visit_node, List.mem_cons] at member
      rcases member with rfl | member
      · exact ⟨[], rfl, by simp⟩
      · cases hstop : stop kind with
        | true => simp [hstop] at member
        | false =>
            simp only [hstop, Bool.false_eq_true, if_false, List.mem_flatMap] at member
            obtain ⟨child, hchild, member⟩ := member
            obtain ⟨frames, rfl, hframes⟩ := ih child hchild member
            obtain ⟨left, right, rfl⟩ := List.append_of_mem hchild
            refine ⟨frames ++ [⟨id, kind, left, right⟩], ?_, ?_⟩
            · rw [within_append]
              rfl
            · intro frame hframe
              rcases List.mem_append.mp hframe with hframe | hframe
              · exact hframes frame hframe
              · rw [List.mem_singleton.mp hframe]
                exact hstop

theorem exists_within_of_mem {tree sub : PlanTree} (member : sub ∈ tree.subtrees) :
    ∃ frames, tree = sub.within frames := by
  obtain ⟨frames, h, -⟩ := exists_within_of_mem_visit member
  exact ⟨frames, h⟩

theorem eq_of_id_eq {tree first second : PlanTree} (nodup : tree.ids.Nodup)
    (hfirst : first ∈ tree.subtrees) (hsecond : second ∈ tree.subtrees)
    (same : first.id = second.id) : first = second :=
  List.inj_on_of_nodup_map nodup hfirst hsecond same

theorem eq_of_mem_of_mem {first second : PlanTree} (nodup : first.ids.Nodup)
    (below : second ∈ first.subtrees) (above : first ∈ second.subtrees) : first = second := by
  obtain ⟨frames, rfl⟩ := exists_within_of_mem below
  cases frames with
  | nil => rfl
  | cons frame rest =>
      have outside := id_within_mem_outerIds second frame rest
      have inside := ids_subset_of_mem_subtrees above (id_mem_ids _)
      exact absurd inside ((nodup_ids_within.mp nodup).2.2 outside)

theorem eq_of_mem_visit {stop : NodeKind → Bool} {tree outer sub : PlanTree}
    (nodup : tree.ids.Nodup) (visited : sub ∈ tree.visit stop) (member : outer ∈ tree.subtrees)
    (stops : stop outer.kind = true) (inside : sub ∈ outer.subtrees) : sub = outer := by
  obtain ⟨frames, rfl, hframes⟩ := exists_within_of_mem_visit visited
  obtain ⟨-, hsub, disjoint⟩ := nodup_ids_within.mp nodup
  rcases mem_subtrees_within.mp member with below | above | ⟨frame, hframe, side, hside, beside⟩
  · exact eq_of_mem_of_mem hsub below inside
  · obtain ⟨frame, hframe, hkind⟩ := exists_frame_of_mem_enclosing above
    rw [hkind, hframes frame hframe] at stops
    cases stops
  · have hid : sub.id ∈ side.ids :=
      ids_subset_of_mem_subtrees beside (ids_subset_of_mem_subtrees inside sub.id_mem_ids)
    refine absurd sub.id_mem_ids (disjoint ?_)
    refine List.mem_flatMap.mpr ⟨frame, hframe, List.mem_cons_of_mem _ ?_⟩
    exact List.mem_flatMap.mpr ⟨side, hside, hid⟩

end PlanTree

end FederatedQuery
