import FederatedQuery.Plan.Surgery
import FederatedQuery.Proofs.Plan.Search

/-!
# Surgery on kept trees

Every change of the arena replaces the tree in one hole.  The nodes of the context
stay as they are, except that the node above the hole points to the new tree.  So
each operation has one law: if the arena holds the old tree in some context, then
afterwards it holds the new tree in the same context.
-/

namespace FederatedQuery

theorem PlanStep.get_bind {α : Type} (next : Plan → PlanStep α) (plan : Plan) :
    (get >>= next) plan = next plan plan := rfl

def JoinType.mirrored : JoinType → JoinType
  | .inner => .inner
  | .leftOuter => .rightOuter
  | .rightOuter => .leftOuter
  | .fullOuter => .fullOuter
  | .cross => .cross

def JoinNode.mirrored (join : JoinNode) : JoinNode :=
  { join with
    joinType := join.joinType.mirrored
    leftExprs := join.rightExprs
    rightExprs := join.leftExprs }

theorem JoinNode.mirrored_mirrored (join : JoinNode) : join.mirrored.mirrored = join := by
  obtain ⟨joinType⟩ := join
  cases joinType <;> rfl

theorem JoinNode.reverse_eq_mirrored (join : JoinNode) : join.reverse = join.mirrored := by
  obtain ⟨joinType⟩ := join
  cases joinType <;> rfl

def PlanNode.relinked (old new : NodeId) (node : PlanNode) : PlanNode :=
  { node with children := Plan.replaceChild old new node.children }

namespace Plan

/-! ## Nodes after an operation -/

@[simp] theorem size_modify (plan : Plan) (id : NodeId) (change : PlanNode → PlanNode) :
    (plan.modify id change).size = plan.size := by simp [modify, size]

@[simp] theorem root_modify (plan : Plan) (id : NodeId) (change : PlanNode → PlanNode) :
    (plan.modify id change).root = plan.root := rfl

theorem node?_modify (plan : Plan) (id : NodeId) (change : PlanNode → PlanNode)
    (other : NodeId) :
    (plan.modify id change).node? other =
      if other = id then (plan.node? other).map change else plan.node? other := by
  rw [node?, modify, List.getElem?_modify]
  by_cases h : other = id
  · simp [h, node?]
  · simp [h, Ne.symm h, node?]

@[simp] theorem size_setKind (plan : Plan) (id : NodeId) (kind : NodeKind) :
    (plan.setKind id kind).size = plan.size := size_modify _ _ _

@[simp] theorem size_append (plan : Plan) (node : PlanNode) :
    (plan.append node).size = plan.size + 1 := by simp [append, size]

@[simp] theorem root_append (plan : Plan) (node : PlanNode) :
    (plan.append node).root = plan.root := rfl

theorem node?_append (plan : Plan) (node : PlanNode) (other : NodeId) :
    (plan.append node).node? other =
      if other = plan.size then some node else plan.node? other := by
  by_cases h : other = plan.size
  · simp [h, node?, append, size]
  · rw [if_neg h, node?, append, node?]
    rcases Nat.lt_or_gt_of_ne h with h | h
    · exact List.getElem?_append_left h
    · rw [List.getElem?_eq_none (Nat.le_of_lt h), List.getElem?_eq_none]
      rw [List.length_append, List.length_singleton]
      exact h

@[simp] theorem size_relink (plan : Plan) (parent : Option NodeId) (old new : NodeId) :
    (plan.relink parent old new).size = plan.size := by
  cases parent with
  | none => rfl
  | some above => exact size_modify _ _ _

theorem root_relink (plan : Plan) (parent : Option NodeId) (old new : NodeId) :
    (plan.relink parent old new).root = if parent = none then new else plan.root := by
  cases parent <;> simp [relink]

theorem node?_relink (plan : Plan) (parent : Option NodeId) (old new other : NodeId) :
    (plan.relink parent old new).node? other =
      if some other = parent then (plan.node? other).map (PlanNode.relinked old new)
      else plan.node? other := by
  cases parent with
  | none => simp [relink, node?]
  | some above =>
      simp only [relink, node?_modify, Option.some.injEq]
      rfl

@[simp] theorem replaceChild_self (id : NodeId) (children : List NodeId) :
    replaceChild id id children = children := by
  have same : (fun child => if child = id then id else child) = fun child : NodeId => child := by
    funext child
    split <;> simp_all
  rw [replaceChild, same, List.map_id']

@[simp] theorem relinked_self (id : NodeId) :
    PlanNode.relinked id id = fun node : PlanNode => node := by
  funext node
  simp [PlanNode.relinked]

theorem replaceChild_of_notMem {old : NodeId} (new : NodeId) {children : List NodeId}
    (absent : old ∉ children) : replaceChild old new children = children := by
  have same : ∀ child ∈ children, (if child = old then new else child) = child :=
    fun child member => if_neg fun h : child = old => absent (h ▸ member)
  rw [replaceChild, List.map_congr_left same, List.map_id']

/-! ## Exchanging the tree in a hole -/

theorem KeepsFrames.relink {plan other : Plan} {frames : List Frame} {old new : NodeId}
    (keeps : plan.KeepsFrames frames old) (nodup : (Frame.outerIds frames).Nodup)
    (absent : old ∉ Frame.outerIds frames)
    (outside : ∀ id ∈ Frame.outerIds frames, other.node? id =
      if some id = Frame.parent? frames then (plan.node? id).map (PlanNode.relinked old new)
      else plan.node? id) : other.KeepsFrames frames new := by
  cases frames with
  | nil => trivial
  | cons frame rest =>
      obtain ⟨here, sides, outer⟩ := keeps
      rw [Frame.outerIds_cons, Frame.ids, List.cons_append, List.nodup_cons] at nodup
      have side_mem {side : PlanTree} (hside : side ∈ frame.sides) {id : NodeId}
          (hid : id ∈ side.ids) :
          id ∈ frame.sides.flatMap PlanTree.ids ++ Frame.outerIds rest :=
        List.mem_append_left _ (List.mem_flatMap.mpr ⟨side, hside, hid⟩)
      have elsewhere : ∀ id ∈ frame.sides.flatMap PlanTree.ids ++ Frame.outerIds rest,
          other.node? id = plan.node? id := by
        intro id member
        have ne : id ≠ frame.id := fun h => nodup.1 (h ▸ member)
        rw [outside id (List.mem_cons_of_mem _ member), Frame.parent?_cons, if_neg (by simpa)]
      have old_absent {side : PlanTree} (hside : side ∈ frame.sides) : old ≠ side.id := by
        rintro rfl
        exact absent (List.mem_cons_of_mem _ (side_mem hside side.id_mem_ids))
      refine ⟨?_, fun side hside => (sides side hside).congr fun id hid => ?_, outer.congr ?_⟩
      · have left_absent : old ∉ frame.left.map PlanTree.id := by
          rintro member
          obtain ⟨side, hside, hid⟩ := List.mem_map.mp member
          exact old_absent (List.mem_append_left _ hside) hid.symm
        have right_absent : old ∉ frame.right.map PlanTree.id := by
          rintro member
          obtain ⟨side, hside, hid⟩ := List.mem_map.mp member
          exact old_absent (List.mem_append_right _ hside) hid.symm
        have replaced : replaceChild old new
            (frame.left.map PlanTree.id ++ old :: frame.right.map PlanTree.id) =
            frame.left.map PlanTree.id ++ new :: frame.right.map PlanTree.id := by
          have hleft := replaceChild_of_notMem new left_absent
          have hright := replaceChild_of_notMem new right_absent
          simp only [replaceChild] at hleft hright ⊢
          rw [List.map_append, List.map_cons, hleft, hright, if_pos rfl]
        rw [outside frame.id List.mem_cons_self, Frame.parent?_cons, if_pos rfl, here,
          Option.map_some, PlanNode.relinked, replaced]
      · exact elsewhere id (side_mem hside hid)
      · exact fun id hid => elsewhere id (List.mem_append_right _ hid)

/-- A new tree in the hole, to which the node above points. -/
theorem Holds.exchange {plan other : Plan} {old new : PlanTree} {frames : List Frame}
    (holds : plan.Holds (old.within frames))
    (inside : other.Keeps (Frame.parent? frames) new)
    (outside : ∀ id ∈ Frame.outerIds frames, other.node? id =
      if some id = Frame.parent? frames then
        (plan.node? id).map (PlanNode.relinked old.id new.id)
      else plan.node? id)
    (root : other.root = if Frame.parent? frames = none then new.id else plan.root)
    (nodup : new.ids.Nodup) (disjoint : (Frame.outerIds frames).Disjoint new.ids) :
    other.Holds (new.within frames) := by
  have unique := PlanTree.nodup_ids_within.mp holds.nodup
  have kept := keeps_within_iff.mp holds.keeps
  refine ⟨keeps_within_iff.mpr ⟨kept.1.relink unique.1 ?_ outside, inside⟩, ?_,
    PlanTree.nodup_ids_within.mpr ⟨unique.1, nodup, disjoint⟩⟩
  · exact fun member => unique.2.2 member old.id_mem_ids
  · cases frames with
    | nil => simpa using root
    | cons frame rest =>
        rw [root, Frame.parent?_cons, if_neg (by simp), holds.root]
        exact PlanTree.id_within_cons _ _ _ _

/-- A new tree in the hole with the same root, so that the context stays as it is. -/
theorem Holds.replace {plan other : Plan} {old new : PlanTree} {frames : List Frame}
    (holds : plan.Holds (old.within frames)) (same : new.id = old.id)
    (inside : other.Keeps (Frame.parent? frames) new)
    (outside : ∀ id ∈ Frame.outerIds frames, other.node? id = plan.node? id)
    (root : other.root = plan.root)
    (nodup : new.ids.Nodup) (disjoint : (Frame.outerIds frames).Disjoint new.ids) :
    other.Holds (new.within frames) := by
  refine holds.exchange inside (fun id member => ?_) ?_ nodup disjoint
  · rw [outside id member, same, relinked_self, Option.map_id', ite_self]
  · cases frames with
    | nil => rw [root, holds.root, PlanTree.within_nil, ← same]; rfl
    | cons frame rest => rw [root, Frame.parent?_cons, if_neg (by simp)]

/-! ## The operations -/

theorem Holds.hole {plan : Plan} {id : NodeId} {kind : NodeKind} {children : List PlanTree}
    {frames : List Frame} (holds : plan.Holds ((PlanTree.node id kind children).within frames)) :
    plan.node? id = some ⟨kind, Frame.parent? frames, children.map PlanTree.id⟩ ∧
      (∀ child ∈ children, plan.Keeps (some id) child) ∧
      (∀ child ∈ children, id ∉ child.ids) ∧ id ∉ Frame.outerIds frames := by
  have unique := PlanTree.nodup_ids_within.mp holds.nodup
  have kept := (keeps_within_iff.mp holds.keeps).2
  rw [PlanTree.ids_node, List.nodup_cons] at unique
  refine ⟨kept.here, kept.child, fun child hchild member => ?_, fun member => ?_⟩
  · exact unique.2.1.1 (List.mem_flatMap.mpr ⟨child, hchild, member⟩)
  · exact unique.2.2 member List.mem_cons_self

theorem Holds.modify {plan : Plan} {id : NodeId} {kind new : NodeKind}
    {children shuffled : List PlanTree} {frames : List Frame}
    (holds : plan.Holds ((PlanTree.node id kind children).within frames))
    (perm : shuffled.Perm children) {change : PlanNode → PlanNode}
    (changed : ∀ parent, change ⟨kind, parent, children.map PlanTree.id⟩ =
      ⟨new, parent, shuffled.map PlanTree.id⟩) :
    (plan.modify id change).Holds ((PlanTree.node id new shuffled).within frames) := by
  obtain ⟨here, below, inner, outer⟩ := holds.hole
  have unique := PlanTree.nodup_ids_within.mp holds.nodup
  have ids_perm :
      (PlanTree.node id new shuffled).ids.Perm (PlanTree.node id kind children).ids := by
    rw [PlanTree.ids_node, PlanTree.ids_node]
    exact .cons _ (perm.flatMap_right _)
  refine holds.replace rfl (.node ?_ fun child hchild => ?_) (fun other member => ?_) rfl
    (ids_perm.nodup_iff.mpr unique.2.1) fun other houter hnew => ?_
  · rw [node?_modify, if_pos rfl, here, Option.map_some, changed]
  · have hchild := perm.mem_iff.mp hchild
    refine (below child hchild).congr fun other member => ?_
    rw [node?_modify, if_neg]
    rintro rfl
    exact inner child hchild member
  · rw [node?_modify, if_neg]
    rintro rfl
    exact outer member
  · exact unique.2.2 houter (ids_perm.mem_iff.mp hnew)

theorem Holds.setKind {plan : Plan} {id : NodeId} {kind : NodeKind} {children : List PlanTree}
    {frames : List Frame} (holds : plan.Holds ((PlanTree.node id kind children).within frames))
    (new : NodeKind) :
    (plan.setKind id new).Holds ((PlanTree.node id new children).within frames) :=
  holds.modify (.refl _) fun _ => rfl

/-- The plan after the inputs of a join have been put in this order. -/
def reordered (plan : Plan) (id : NodeId) (join : JoinNode) (inputs : List NodeId) : Plan :=
  plan.modify id fun node => { node with kind := .join join.mirrored, children := inputs }

theorem modify_modify (plan : Plan) (id : NodeId) (first second : PlanNode → PlanNode) :
    (plan.modify id first).modify id second = plan.modify id (second ∘ first) := by
  rw [modify, modify, modify, List.modify_modify_eq]

theorem swapJoinChildren_eq {plan : Plan} {id left right : NodeId} {join : JoinNode}
    (inputs : plan.children id = [left, right]) (found : plan.join? id = some join) :
    Plan.swapJoinChildren id plan = .ok () (plan.reordered id join [right, left]) := by
  have writes : (plan.setKind id (.join join.reverse)).modify id
      (fun node => { node with children := [right, left] }) =
        plan.reordered id join [right, left] := by
    rw [setKind, modify_modify, JoinNode.reverse_eq_mirrored]
    rfl
  rw [← writes]
  simp only [Plan.swapJoinChildren, PlanStep.get_bind, inputs, found]
  rfl

/-- Whatever is wrong is found before anything is written. -/
theorem swapJoinChildren_eq_error {plan : Plan} {id : NodeId}
    (refused : ¬ ((plan.join? id).isSome = true ∧ ∃ left right, plan.children id = [left, right])) :
    ∃ error, Plan.swapJoinChildren id plan = .error error plan := by
  simp only [Plan.swapJoinChildren, PlanStep.get_bind]
  rcases inputs : plan.children id with _ | ⟨left, _ | ⟨right, _ | ⟨third, rest⟩⟩⟩
  · exact ⟨_, rfl⟩
  · exact ⟨_, rfl⟩
  · cases found : plan.join? id with
    | none => exact ⟨_, rfl⟩
    | some join => exact (refused ⟨by rw [found]; rfl, left, right, inputs⟩).elim
  · exact ⟨_, rfl⟩

theorem Holds.swapJoinChildren {plan : Plan} {id : NodeId} {payload : JoinNode}
    {left right : PlanTree} {frames : List Frame}
    (holds : plan.Holds ((PlanTree.node id (.join payload) [left, right]).within frames)) :
    ∃ swapped, Plan.swapJoinChildren id plan = .ok () swapped ∧ swapped.size = plan.size ∧
      swapped.Holds ((PlanTree.node id (.join payload.mirrored) [right, left]).within frames) := by
  obtain ⟨here, -⟩ := holds.hole
  have inputs : plan.children id = [left.id, right.id] := by simp [Plan.children, here]
  have found : plan.join? id = some payload := by simp [join?, kind?, here, NodeKind.join?]
  exact ⟨_, swapJoinChildren_eq inputs found, size_modify _ _ _,
    holds.modify (.swap _ _ _) fun _ => rfl⟩

theorem Holds.addChild {plan : Plan} {id : NodeId} {kind : NodeKind} {children : List PlanTree}
    {frames : List Frame} (holds : plan.Holds ((PlanTree.node id kind children).within frames))
    (added : NodeKind) :
    (plan.addChild id added).1.Holds
      ((PlanTree.node id kind (children ++ [.node plan.size added []])).within frames) := by
  obtain ⟨here, below, inner, outer⟩ := holds.hole
  have unique := PlanTree.nodup_ids_within.mp holds.nodup
  have fresh {other : NodeId}
      (member : other ∈ ((PlanTree.node id kind children).within frames).ids) :
      other ≠ plan.size := Nat.ne_of_lt (holds.lt_size member)
  have outside {other : NodeId} (member : other ∈ Frame.outerIds frames) : other ≠ plan.size :=
    fresh (PlanTree.mem_ids_within.mpr (.inl member))
  have inside {other : NodeId} (member : other ∈ (PlanTree.node id kind children).ids) :
      other ≠ plan.size := fresh (PlanTree.mem_ids_within.mpr (.inr member))
  have ne : id ≠ plan.size := inside (by simp)
  have kept {other : NodeId} (ne_id : other ≠ id) (ne_new : other ≠ plan.size) :
      (plan.addChild id added).1.node? other = plan.node? other := by
    rw [Plan.addChild, node?_modify, if_neg ne_id, node?_append, if_neg ne_new]
  have ids : (PlanTree.node id kind (children ++ [.node plan.size added []])).ids =
      (PlanTree.node id kind children).ids ++ [plan.size] := by simp
  refine holds.replace rfl (.node ?_ fun child hchild => ?_) (fun other member => ?_) rfl ?_ ?_
  · rw [Plan.addChild, node?_modify, if_pos rfl, node?_append, if_neg ne, here]
    simp
  · rcases List.mem_append.mp hchild with hchild | hchild
    · refine (below child hchild).congr fun other member => kept ?_ ?_
      · rintro rfl
        exact inner child hchild member
      · exact inside (PlanTree.mem_ids_of_child hchild member)
    · rw [List.mem_singleton.mp hchild]
      refine .node ?_ (by simp)
      rw [Plan.addChild, node?_modify, if_neg ne.symm, node?_append, if_pos rfl]
      rfl
  · exact kept (fun same => outer (same ▸ member)) (outside member)
  · rw [ids, List.nodup_append']
    exact ⟨unique.2.1, List.nodup_singleton _, by simpa using fun member => inside member rfl⟩
  · rw [ids]
    intro other houter hnew
    rcases List.mem_append.mp hnew with hnew | hnew
    · exact unique.2.2 houter hnew
    · exact outside houter (List.mem_singleton.mp hnew)

theorem node?_addAsParent {plan : Plan} {child other : NodeId} (kind : NodeKind)
    (ne_child : other ≠ child) (ne_new : other ≠ plan.size) :
    (plan.addAsParent child kind).1.node? other =
      if some other = plan.parent? child then
        (plan.node? other).map (PlanNode.relinked child plan.size)
      else plan.node? other := by
  simp only [addAsParent, node?_modify, node?_relink, node?_append, if_neg ne_child, if_neg ne_new]

theorem node?_addAsParent_new {plan : Plan} {child : NodeId} (kind : NodeKind)
    (ne_child : plan.size ≠ child) (ne_parent : some plan.size ≠ plan.parent? child) :
    (plan.addAsParent child kind).1.node? plan.size =
      some ⟨kind, plan.parent? child, [child]⟩ := by
  simp [addAsParent, node?_modify, node?_relink, node?_append, ne_child, ne_parent]

theorem node?_addAsParent_child {plan : Plan} {child : NodeId} (kind : NodeKind)
    (ne_new : child ≠ plan.size) (ne_parent : some child ≠ plan.parent? child) :
    (plan.addAsParent child kind).1.node? child =
      (plan.node? child).map fun node => { node with parent := some plan.size } := by
  simp [addAsParent, node?_modify, node?_relink, node?_append, ne_new, ne_parent]

@[simp] theorem size_addAsParent (plan : Plan) (child : NodeId) (kind : NodeKind) :
    (plan.addAsParent child kind).1.size = plan.size + 1 := by simp [addAsParent]

theorem root_addAsParent (plan : Plan) (child : NodeId) (kind : NodeKind) :
    (plan.addAsParent child kind).1.root =
      if plan.parent? child = none then plan.size else plan.root := by
  simp [addAsParent, root_relink]

private theorem mem_outerIds_of_parent {frames : List Frame} {id : NodeId}
    (parent : some id = Frame.parent? frames) : id ∈ Frame.outerIds frames := by
  cases frames with
  | nil => simp at parent
  | cons frame rest =>
      rw [Frame.parent?_cons, Option.some.injEq] at parent
      exact parent ▸ Frame.id_mem_outerIds List.mem_cons_self

theorem Keeps.reparent {plan other : Plan} {above below : Option NodeId} {tree : PlanTree}
    (keeps : plan.Keeps above tree) (nodup : tree.ids.Nodup)
    (root : other.node? tree.id =
      (plan.node? tree.id).map fun node => { node with parent := below })
    (rest : ∀ id ∈ tree.ids, id ≠ tree.id → other.node? id = plan.node? id) :
    other.Keeps below tree := by
  cases keeps with
  | @node _ id kind children here below' =>
      rw [PlanTree.ids_node, List.nodup_cons] at nodup
      refine .node (by simpa [here] using root) fun child hchild => ?_
      refine (below' child hchild).congr fun position hposition => ?_
      have member : position ∈ children.flatMap PlanTree.ids :=
        List.mem_flatMap.mpr ⟨child, hchild, hposition⟩
      apply rest position
      · rw [PlanTree.ids_node]
        exact List.mem_cons_of_mem _ member
      · rintro rfl
        exact nodup.1 member

theorem Holds.addAsParent {plan : Plan} {sub : PlanTree} {frames : List Frame}
    (holds : plan.Holds (sub.within frames)) (kind : NodeKind) :
    (plan.addAsParent sub.id kind).1.Holds
      ((PlanTree.node plan.size kind [sub]).within frames) := by
  have unique := PlanTree.nodup_ids_within.mp holds.nodup
  have kept := (keeps_within_iff.mp holds.keeps).2
  have inside_lt {id : NodeId} (member : id ∈ sub.ids) : id ≠ plan.size :=
    Nat.ne_of_lt (holds.lt_size (PlanTree.mem_ids_within.mpr (.inr member)))
  have outside_lt {id : NodeId} (member : id ∈ Frame.outerIds frames) : id ≠ plan.size :=
    Nat.ne_of_lt (holds.lt_size (PlanTree.mem_ids_within.mpr (.inl member)))
  have parent_eq : plan.parent? sub.id = Frame.parent? frames := by simp [parent?, kept.node?_id]
  have not_parent {id : NodeId} (member : id ∉ Frame.outerIds frames) :
      some id ≠ plan.parent? sub.id := by
    intro h
    exact member (mem_outerIds_of_parent (parent_eq ▸ h))
  have sub_outside {id : NodeId} (member : id ∈ sub.ids) : id ∉ Frame.outerIds frames :=
    fun houter => unique.2.2 houter member
  have new_outside : plan.size ∉ Frame.outerIds frames := fun member => outside_lt member rfl
  have new_inside : plan.size ∉ sub.ids := fun member => inside_lt member rfl
  have inside : (plan.addAsParent sub.id kind).1.Keeps (some plan.size) sub := by
    refine kept.reparent unique.2.1 ?_ fun id member ne => ?_
    · exact node?_addAsParent_child kind (inside_lt sub.id_mem_ids)
        (not_parent (sub_outside sub.id_mem_ids))
    · rw [node?_addAsParent kind ne (inside_lt member),
        if_neg (not_parent (sub_outside member))]
  refine holds.exchange (.node ?_ fun child hchild => ?_) (fun id member => ?_) ?_ ?_ ?_
  · rw [node?_addAsParent_new kind (inside_lt sub.id_mem_ids).symm (not_parent new_outside),
      parent_eq]
    rfl
  · rw [List.mem_singleton.mp hchild]
    exact inside
  · have ne_sub : id ≠ sub.id := fun h => sub_outside (h ▸ sub.id_mem_ids) member
    rw [node?_addAsParent kind ne_sub (outside_lt member), parent_eq]
    rfl
  · rw [root_addAsParent, parent_eq]
    rfl
  · simpa using ⟨new_inside, unique.2.1⟩
  · intro id houter hnew
    simp only [PlanTree.ids_node, List.flatMap_cons, List.flatMap_nil, List.append_nil,
      List.mem_cons] at hnew
    rcases hnew with rfl | hnew
    · exact new_outside houter
    · exact sub_outside hnew houter

theorem kind?_modify (plan : Plan) (id : NodeId) {change : PlanNode → PlanNode} (other : NodeId)
    (same : ∀ node, (change node).kind = node.kind) :
    (plan.modify id change).kind? other = plan.kind? other := by
  rw [kind?, node?_modify]
  by_cases h : other = id
  · rw [if_pos h, Option.map_map]
    exact congrArg (Option.map · _) (funext same)
  · rw [if_neg h, kind?]

theorem kind?_relink (plan : Plan) (parent : Option NodeId) (old new other : NodeId) :
    (plan.relink parent old new).kind? other = plan.kind? other := by
  cases parent with
  | none => rfl
  | some above =>
      rw [relink, kind?_modify]
      exact fun _ => rfl

theorem kind?_addChild (plan : Plan) (parent : NodeId) (added : NodeKind) (other : NodeId) :
    (plan.addChild parent added).1.kind? other =
      if other = plan.size then some added else plan.kind? other := by
  rw [addChild, kind?_modify, kind?, node?_append, apply_ite (Option.map _), kind?]
  · rfl
  · exact fun _ => rfl

theorem kind?_addAsParent (plan : Plan) (child : NodeId) (added : NodeKind) (other : NodeId) :
    (plan.addAsParent child added).1.kind? other =
      if other = plan.size then some added else plan.kind? other := by
  rw [addAsParent, kind?_modify, kind?_modify, kind?_relink, kind?, node?_append,
    apply_ite (Option.map _), kind?]
  · rfl
  · exact fun _ => rfl
  · exact fun _ => rfl

def spliced (plan : Plan) (id child : NodeId) : Plan :=
  let promoted := (plan.relink (plan.parent? id) id child).modify child fun node =>
    { node with parent := plan.parent? id }
  promoted.modify id fun node => { node with parent := none, children := [] }

theorem spliceOut_eq {plan : Plan} {id child : NodeId} (only : plan.children id = [child]) :
    Plan.spliceOut id plan = .ok child (plan.spliced id child) := by
  simp only [Plan.spliceOut, PlanStep.get_bind, only]
  rfl

theorem spliceOut_eq_error {plan : Plan} {id : NodeId}
    (refused : ¬ ∃ child, plan.children id = [child]) :
    ∃ error, Plan.spliceOut id plan = .error error plan := by
  simp only [Plan.spliceOut, PlanStep.get_bind]
  rcases only : plan.children id with _ | ⟨child, _ | ⟨second, rest⟩⟩
  · exact ⟨_, rfl⟩
  · exact (refused ⟨child, only⟩).elim
  · exact ⟨_, rfl⟩

theorem kind?_spliced (plan : Plan) (id child other : NodeId) :
    (plan.spliced id child).kind? other = plan.kind? other := by
  rw [spliced, kind?_modify, kind?_modify, kind?_relink]
  · exact fun _ => rfl
  · exact fun _ => rfl

theorem root_spliced (plan : Plan) (id child : NodeId) :
    (plan.spliced id child).root = if plan.parent? id = none then child else plan.root := by
  simp [spliced, root_relink]

theorem node?_spliced {plan : Plan} {id child other : NodeId} (ne_id : other ≠ id)
    (ne_child : other ≠ child) :
    (plan.spliced id child).node? other =
      if some other = plan.parent? id then
        (plan.node? other).map (PlanNode.relinked id child)
      else plan.node? other := by
  simp only [spliced, node?_modify, node?_relink, if_neg ne_id, if_neg ne_child]

theorem node?_spliced_child {plan : Plan} {id child : NodeId} (ne_id : child ≠ id)
    (ne_parent : some child ≠ plan.parent? id) :
    (plan.spliced id child).node? child =
      (plan.node? child).map fun node => { node with parent := plan.parent? id } := by
  simp [spliced, node?_modify, node?_relink, ne_id, ne_parent]

theorem Holds.spliced {plan : Plan} {id : NodeId} {kind : NodeKind} {child : PlanTree}
    {frames : List Frame} (holds : plan.Holds ((PlanTree.node id kind [child]).within frames)) :
    (plan.spliced id child.id).Holds (child.within frames) := by
  obtain ⟨here, below, inner, outer⟩ := holds.hole
  have keeps_child := below child List.mem_cons_self
  have unique := PlanTree.nodup_ids_within.mp holds.nodup
  have parent_eq : plan.parent? id = Frame.parent? frames := by simp [parent?, here]
  have child_unique : child.ids.Nodup := PlanTree.nodup_of_mem_subtrees unique.2.1 (by
    simp [PlanTree.self_mem_subtrees])
  have inside_ids {other : NodeId} (member : other ∈ child.ids) :
      other ∈ (PlanTree.node id kind [child]).ids := by simp [member]
  have ne_id {other : NodeId} (member : other ∈ child.ids) : other ≠ id := fun h =>
    inner child List.mem_cons_self (h ▸ member)
  have child_outside {other : NodeId} (member : other ∈ child.ids) :
      other ∉ Frame.outerIds frames :=
    fun houter => unique.2.2 houter (inside_ids member)
  have not_parent {other : NodeId} (member : other ∈ child.ids) :
      some other ≠ plan.parent? id := by
    intro h
    exact child_outside member (mem_outerIds_of_parent (parent_eq ▸ h))
  refine holds.exchange (keeps_child.reparent child_unique ?_ fun other member ne => ?_)
    (fun other member => ?_) ?_ child_unique fun other houter hnew => ?_
  · rw [← parent_eq]
    exact node?_spliced_child (ne_id child.id_mem_ids) (not_parent child.id_mem_ids)
  · rw [node?_spliced (ne_id member) ne, if_neg (not_parent member)]
  · have other_ne_id : other ≠ id := fun h => outer (h ▸ member)
    have other_ne_child : other ≠ child.id := fun h =>
      child_outside child.id_mem_ids (h ▸ member)
    rw [node?_spliced other_ne_id other_ne_child, parent_eq]
    rfl
  · rw [root_spliced, parent_eq]
  · exact child_outside hnew houter

theorem Holds.spliceOut {plan : Plan} {id : NodeId} {kind : NodeKind} {child : PlanTree}
    {frames : List Frame} (holds : plan.Holds ((PlanTree.node id kind [child]).within frames)) :
    Plan.spliceOut id plan = .ok child.id (plan.spliced id child.id) := by
  obtain ⟨here, -⟩ := holds.hole
  exact spliceOut_eq (by simp [Plan.children, here])

end Plan

end FederatedQuery
