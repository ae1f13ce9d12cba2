import FederatedQuery.Proofs.Plan.Exchange
import FederatedQuery.Proofs.Plan.Touches

/-!
# Removed nodes

A node that is taken out of a plan stays in the arena, without a parent and not as the
root.  No edit changes that but one: a new node that is put above it becomes the root,
as if the removed node had been the root, and what was the plan is reached no more.
This is told of all plans that edits make, at whatever positions, in use or not.
-/

namespace FederatedQuery

namespace Plan

inductive EditedBy (plan : Plan) : List PlanEdit → Plan → Prop
  | start : plan.EditedBy [] plan
  | next {edits : List PlanEdit} {left : Plan} (before : plan.EditedBy edits left)
      (edit : PlanEdit) (inside : edit.target < left.size) :
      plan.EditedBy (edits ++ [edit]) (edit.leaves left)

/-- The node is recorded below none and is not the root. -/
def Detached (plan : Plan) (id : NodeId) : Prop := plan.parent? id = none ∧ id ≠ plan.root

/-- All links of the arena are recorded at both of their ends, whether they are reached or not. -/
structure Coherent (plan : Plan) : Prop where
  inside : plan.root < plan.size
  root : plan.parent? plan.root = none
  recorded : ∀ id, ∀ child ∈ plan.children id, plan.parent? child = some id
  listed : ∀ id above, plan.parent? id = some above → id ∈ plan.children above

/-- One node takes the place of another below the parent of that one, or as the root. -/
structure Inherits (plan new : Plan) (id heir : NodeId) : Prop where
  root : new.root = if plan.parent? id = none then heir else plan.root
  parent : heir ≠ id → new.parent? heir = plan.parent? id
  others : ∀ other, other ≠ id → other ≠ heir → new.parent? other = plan.parent? other

def InheritsAt (plan new : Plan) (id heir above : NodeId) : Prop :=
  new.children above =
    if some above = plan.parent? id then replaceChild id heir (plan.children above)
    else plan.children above

variable {plan : Plan} {id : NodeId} {kind : NodeKind} {change : PlanNode → PlanNode}

/-! ## Links after an edit -/

theorem mem_replaceChild {old new child : NodeId} {children : List NodeId} :
    child ∈ replaceChild old new children ↔
      child = new ∧ old ∈ children ∨ child ≠ old ∧ child ∈ children := by
  simp only [replaceChild, List.mem_map]
  grind

theorem parent?_modify_of_keeps (plan : Plan) (id other : NodeId)
    (keeps : ∀ node, (change node).parent = node.parent) :
    (plan.modify id change).parent? other = plan.parent? other := by
  rw [parent?, node?_modify, parent?]
  by_cases same : other = id
  · cases h : plan.node? id <;> simp [same, h, keeps]
  · rw [if_neg same]

theorem parent?_modify (inside : id < plan.size) (parent : Option NodeId)
    (sets : ∀ node, (change node).parent = parent) (other : NodeId) :
    (plan.modify id change).parent? other = if other = id then parent else plan.parent? other := by
  obtain ⟨node, found⟩ := exists_node?_of_lt inside
  rw [parent?, node?_modify, parent?]
  by_cases same : other = id <;> simp [same, found, sets]

theorem children_modify_of_keeps (plan : Plan) (id other : NodeId)
    (keeps : ∀ node, (change node).children = node.children) :
    (plan.modify id change).children other = plan.children other := by
  rw [Plan.children, node?_modify, Plan.children]
  by_cases same : other = id
  · cases h : plan.node? id <;> simp [same, h, keeps]
  · rw [if_neg same]

theorem children_modify (inside : id < plan.size) (put : List NodeId → List NodeId)
    (puts : ∀ node, (change node).children = put node.children) (other : NodeId) :
    (plan.modify id change).children other =
      if other = id then put (plan.children id) else plan.children other := by
  obtain ⟨node, found⟩ := exists_node?_of_lt inside
  rw [Plan.children, node?_modify, Plan.children, Plan.children]
  by_cases same : other = id <;> simp [same, found, puts]

theorem lt_size_of_mem_children {child : NodeId} (member : child ∈ plan.children id) :
    id < plan.size := by
  by_contra outside
  rw [Plan.children, node?_eq_none (Nat.not_lt.mp outside)] at member
  cases member

theorem parent?_append (plan : Plan) (node : PlanNode) (other : NodeId) :
    (plan.append node).parent? other =
      if other = plan.size then node.parent else plan.parent? other := by
  rw [parent?, node?_append, parent?]
  split <;> rfl

theorem children_append (plan : Plan) (node : PlanNode) (other : NodeId) :
    (plan.append node).children other =
      if other = plan.size then node.children else plan.children other := by
  rw [Plan.children, node?_append, Plan.children]
  by_cases same : other = plan.size <;> simp [same]

theorem parent?_relink (plan : Plan) (parent : Option NodeId) (old new other : NodeId) :
    (plan.relink parent old new).parent? other = plan.parent? other := by
  cases parent with
  | none => rfl
  | some above => exact parent?_modify_of_keeps plan above other fun _ => rfl

theorem children_relink (plan : Plan) (parent : Option NodeId) (old new other : NodeId) :
    (plan.relink parent old new).children other =
      if some other = parent then replaceChild old new (plan.children other)
      else plan.children other := by
  rw [Plan.children, node?_relink, Plan.children]
  by_cases above : some other = parent
  · rw [if_pos above, if_pos above]
    cases plan.node? other <;> rfl
  · rw [if_neg above, if_neg above]

theorem size_addChild (plan : Plan) (id : NodeId) (kind : NodeKind) :
    (plan.addChild id kind).1.size = plan.size + 1 := by
  rw [addChild, size_modify, size_append]

theorem parent?_addChild (id : NodeId) (kind : NodeKind) (other : NodeId) :
    (plan.addChild id kind).1.parent? other =
      if other = plan.size then some id else plan.parent? other := by
  rw [addChild, parent?_modify_of_keeps, parent?_append]
  exact fun _ => rfl

theorem children_addChild (inside : id < plan.size) (kind : NodeKind) (other : NodeId) :
    (plan.addChild id kind).1.children other =
      if other = id then plan.children id ++ [plan.size] else plan.children other := by
  have outside : plan.children plan.size = [] := by rw [Plan.children, node?_eq_none le_rfl]
  have inside' : id < (plan.append ⟨kind, some id, []⟩).size := by
    rw [size_append]
    exact Nat.lt_succ_of_lt inside
  rw [addChild, children_modify inside' (· ++ [plan.size]) fun _ => rfl, children_append,
    children_append, if_neg (Nat.ne_of_lt inside)]
  by_cases new : other = plan.size
  · rw [new, outside]
    simp
  · rw [if_neg new]

theorem parent?_addAsParent (inside : id < plan.size) (kind : NodeKind) (other : NodeId) :
    (plan.addAsParent id kind).1.parent? other =
      if other = id then some plan.size
      else if other = plan.size then plan.parent? id
      else plan.parent? other := by
  rw [addAsParent, parent?_modify _ (some plan.size) fun _ => rfl, parent?_modify_of_keeps,
    parent?_relink, parent?_append]
  · exact fun _ => rfl
  · rw [size_modify, size_relink, size_append]
    exact Nat.lt_succ_of_lt inside

theorem children_addAsParent (id : NodeId) (kind : NodeKind) (other : NodeId) :
    (plan.addAsParent id kind).1.children other =
      if other = plan.size then [id]
      else if some other = plan.parent? id then replaceChild id plan.size (plan.children other)
      else plan.children other := by
  rw [addAsParent, children_modify_of_keeps, children_modify _ (· ++ [id]) fun _ => rfl,
    children_relink, children_relink, children_append, if_pos rfl, children_append]
  · by_cases new : other = plan.size
    · rw [if_pos new, if_pos new]
      split <;> rfl
    · rw [if_neg new, if_neg new]
      simp [new]
  · simp
  · exact fun _ => rfl

theorem parent?_spliced {child : NodeId} (inside : id < plan.size) (inside' : child < plan.size)
    (other : NodeId) :
    (plan.spliced id child).parent? other =
      if other = id then none
      else if other = child then plan.parent? id
      else plan.parent? other := by
  rw [spliced, parent?_modify _ none fun _ => rfl, parent?_modify _ (plan.parent? id) fun _ => rfl,
    parent?_relink]
  · rwa [size_relink]
  · rwa [size_modify, size_relink]

theorem size_spliced (plan : Plan) (id child : NodeId) :
    (plan.spliced id child).size = plan.size := by
  rw [spliced, size_modify, size_modify, size_relink]

theorem children_spliced (inside : id < plan.size) (child other : NodeId) :
    (plan.spliced id child).children other =
      if other = id then []
      else if some other = plan.parent? id then replaceChild id child (plan.children other)
      else plan.children other := by
  rw [spliced, children_modify _ (fun _ => []) fun _ => rfl, children_modify_of_keeps,
    children_relink]
  · exact fun _ => rfl
  · rwa [size_modify, size_relink]

theorem inherits_addAsParent (inside : id < plan.size) (kind : NodeKind) :
    plan.Inherits (plan.addAsParent id kind).1 id plan.size where
  root := root_addAsParent plan id kind
  parent ne := by rw [parent?_addAsParent inside, if_neg ne, if_pos rfl]
  others other ne ne_new := by rw [parent?_addAsParent inside, if_neg ne, if_neg ne_new]

theorem inheritsAt_addAsParent (kind : NodeKind) {above : NodeId} (ne : above ≠ plan.size) :
    plan.InheritsAt (plan.addAsParent id kind).1 id plan.size above := by
  rw [InheritsAt, children_addAsParent, if_neg ne]

theorem inherits_spliced {child : NodeId} (inside : id < plan.size) (inside' : child < plan.size) :
    plan.Inherits (plan.spliced id child) id child where
  root := root_spliced plan id child
  parent ne := by rw [parent?_spliced inside inside', if_neg ne, if_pos rfl]
  others other ne ne_child := by
    rw [parent?_spliced inside inside', if_neg ne, if_neg ne_child]

theorem inheritsAt_spliced (inside : id < plan.size) (child : NodeId) {above : NodeId}
    (ne : above ≠ id) : plan.InheritsAt (plan.spliced id child) id child above := by
  rw [InheritsAt, children_spliced inside, if_neg ne]

theorem Inherits.parent_cases {new : Plan} {heir above child : NodeId}
    (inherits : plan.Inherits new id heir) (ne : child ≠ id)
    (recorded : new.parent? child = some above) :
    child = heir ∧ plan.parent? id = some above ∨
      child ≠ heir ∧ plan.parent? child = some above := by
  by_cases same : child = heir
  · exact .inl ⟨same, (inherits.parent (same ▸ ne)).symm.trans (same ▸ recorded)⟩
  · exact .inr ⟨same, (inherits.others child ne same).symm.trans recorded⟩

theorem parent?_reordered (plan : Plan) (id : NodeId) (join : JoinNode) (inputs : List NodeId)
    (other : NodeId) : (plan.reordered id join inputs).parent? other = plan.parent? other :=
  parent?_modify_of_keeps plan id other fun _ => rfl

end Plan

namespace PlanEdit

open Plan

/-! ## What an edit may leave -/

theorem leaves_spliceOut (plan : Plan) (id : NodeId) :
    (PlanEdit.spliceOut id).leaves plan = plan ∨
      ∃ child, plan.children id = [child] ∧
        (PlanEdit.spliceOut id).leaves plan = plan.spliced id child := by
  by_cases applies : ∃ child, plan.children id = [child]
  · obtain ⟨child, only⟩ := applies
    exact .inr ⟨child, only, by rw [leaves, perform_spliceOut only]⟩
  · obtain ⟨error, failed⟩ := exists_perform_spliceOut_error applies
    exact .inl (by rw [leaves, failed])

theorem leaves_swapJoinChildren (plan : Plan) (id : NodeId) :
    (PlanEdit.swapJoinChildren id).leaves plan = plan ∨
      ∃ left right join, plan.children id = [left, right] ∧
        (PlanEdit.swapJoinChildren id).leaves plan = plan.reordered id join [right, left] := by
  rw [leaves, perform]
  by_cases applies : (PlanEdit.swapJoinChildren id).Applies plan
  · obtain ⟨isJoin, left, right, inputs⟩ := applies
    obtain ⟨join, found⟩ := Option.isSome_iff_exists.mp isJoin
    rw [swapJoinChildren_eq inputs found]
    exact .inr ⟨left, right, join, inputs, rfl⟩
  · obtain ⟨error, failed⟩ := swapJoinChildren_eq_error applies
    rw [failed]
    exact .inl rfl

end PlanEdit

namespace Plan

variable {plan : Plan} {id : NodeId} {kind : NodeKind}

namespace Coherent

/-! ## Links stay coherent -/

variable {new : Plan} {heir above child : NodeId}

theorem child_lt_size (coherent : plan.Coherent)
    (member : child ∈ plan.children id) : child < plan.size :=
  parent?_lt_size (coherent.recorded id child member)

theorem above_lt_size (coherent : plan.Coherent)
    (parent : plan.parent? id = some above) : above < plan.size :=
  lt_size_of_mem_children (coherent.listed id above parent)

theorem ofKind (kind : NodeKind) : (ofKind kind).Coherent := by
  have node (id : NodeId) (node : PlanNode) (found : (Plan.ofKind kind).node? id = some node) :
      node = ⟨kind, none, []⟩ := by
    obtain ⟨inside, found⟩ := List.getElem?_eq_some_iff.mp found
    cases id with
    | zero => exact found.symm
    | succ id => exact absurd inside (by simp [Plan.ofKind])
  refine ⟨Nat.zero_lt_one, rfl, fun id child member => ?_, fun id above parent => ?_⟩
  · rw [Plan.children] at member
    split at member
    next found => simp [node _ _ found] at member
    next => cases member
  · obtain ⟨_, found, parent⟩ := Option.bind_eq_some_iff.mp parent
    rw [node _ _ found] at parent
    cases parent

theorem addChild (coherent : plan.Coherent) (inside : id < plan.size) (kind : NodeKind) :
    (plan.addChild id kind).1.Coherent := by
  have old {child : NodeId} (h : child < plan.size) :
      (plan.addChild id kind).1.parent? child = plan.parent? child := by
    rw [parent?_addChild, if_neg (Nat.ne_of_lt h)]
  refine ⟨?_, (old coherent.inside).trans coherent.root, fun above child member => ?_,
    fun child above parent => ?_⟩
  · rw [size_addChild]
    exact Nat.lt_succ_of_lt coherent.inside
  · rw [children_addChild inside] at member
    by_cases parent : above = id
    · rw [if_pos parent, List.mem_append, List.mem_singleton] at member
      rcases member with member | rfl
      · rw [old (coherent.child_lt_size member), coherent.recorded id child member, parent]
      · rw [parent?_addChild, if_pos rfl, parent]
    · rw [if_neg parent] at member
      rw [old (coherent.child_lt_size member), coherent.recorded above child member]
  · rw [parent?_addChild] at parent
    rw [children_addChild inside]
    by_cases new : child = plan.size
    · rw [if_pos new, Option.some.injEq] at parent
      rw [if_pos parent.symm, new]
      exact List.mem_append_right _ List.mem_cons_self
    · rw [if_neg new] at parent
      have listed := coherent.listed child above parent
      split
      next h => exact List.mem_append_left _ (h ▸ listed)
      next => exact listed

theorem child_ne_of_top (coherent : plan.Coherent) (member : child ∈ plan.children above)
    {top : NodeId} (h : plan.parent? top = none) : child ≠ top := by
  rintro rfl
  rw [coherent.recorded above child member] at h
  cases h

theorem root_inherited (coherent : plan.Coherent) (inherits : plan.Inherits new id heir)
    (ne : heir ≠ plan.root) (ne_top : plan.parent? id = none → heir ≠ id) :
    new.parent? new.root = none := by
  rw [inherits.root]
  by_cases top : plan.parent? id = none
  · rw [if_pos top, inherits.parent (ne_top top), top]
  · rw [if_neg top, inherits.others _ (fun same => top (same ▸ coherent.root)) ne.symm,
      coherent.root]

theorem recorded_inherited (coherent : plan.Coherent) (inherits : plan.Inherits new id heir)
    (slots : plan.InheritsAt new id heir above) (fresh : heir ∉ plan.children above)
    (member : child ∈ new.children above) : new.parent? child = some above := by
  have kept (ne : child ≠ id) (member : child ∈ plan.children above) :
      new.parent? child = some above := by
    have ne_heir : child ≠ heir := fun same => fresh (same ▸ member)
    rw [inherits.others child ne ne_heir, coherent.recorded above child member]
  rw [slots] at member
  by_cases parent : some above = plan.parent? id
  · rw [if_pos parent, mem_replaceChild] at member
    rcases member with ⟨rfl, replaced⟩ | ⟨ne, member⟩
    · rw [inherits.parent fun same => fresh (same ▸ replaced), parent]
    · exact kept ne member
  · rw [if_neg parent] at member
    have recorded := coherent.recorded above child member
    exact kept (fun same => parent (same ▸ recorded).symm) member

theorem listed_inherited (coherent : plan.Coherent) (inherits : plan.Inherits new id heir)
    (slots : plan.InheritsAt new id heir above) (ne : child ≠ id)
    (recorded : new.parent? child = some above) : child ∈ new.children above := by
  rw [slots]
  rcases inherits.parent_cases ne recorded with ⟨rfl, parent⟩ | ⟨-, parent⟩
  · rw [if_pos parent.symm]
    exact mem_replaceChild.mpr (.inl ⟨rfl, coherent.listed id above parent⟩)
  · have listed := coherent.listed child above parent
    split
    · exact mem_replaceChild.mpr (.inr ⟨ne, listed⟩)
    · exact listed

theorem addAsParent (coherent : plan.Coherent) (inside : id < plan.size) (kind : NodeKind) :
    (plan.addAsParent id kind).1.Coherent := by
  have inherits := inherits_addAsParent inside kind
  refine ⟨?_, coherent.root_inherited inherits (Nat.ne_of_gt coherent.inside)
    fun _ => Nat.ne_of_gt inside, fun above child member => ?_, fun child above parent => ?_⟩
  · rw [size_addAsParent, root_addAsParent]
    split
    · exact Nat.lt_succ_self _
    · exact Nat.lt_succ_of_lt coherent.inside
  · by_cases new : above = plan.size
    · rw [children_addAsParent, if_pos new, List.mem_singleton] at member
      rw [parent?_addAsParent inside, if_pos member, new]
    · have fresh : plan.size ∉ plan.children above := fun member =>
        Nat.lt_irrefl _ (coherent.child_lt_size member)
      exact coherent.recorded_inherited inherits (inheritsAt_addAsParent kind new) fresh member
  · by_cases same : child = id
    · rw [same, parent?_addAsParent inside, if_pos rfl, Option.some.injEq] at parent
      rw [children_addAsParent, if_pos parent.symm, same]
      exact List.mem_cons_self
    · have old : above < plan.size := by
        rcases inherits.parent_cases same parent with ⟨-, parent⟩ | ⟨-, parent⟩
        · exact coherent.above_lt_size parent
        · exact coherent.above_lt_size parent
      exact coherent.listed_inherited inherits (inheritsAt_addAsParent kind (Nat.ne_of_lt old))
        same parent

theorem spliced (coherent : plan.Coherent) (only : plan.children id = [child]) :
    (plan.spliced id child).Coherent := by
  have member : child ∈ plan.children id := by simp [only]
  have inside := lt_size_of_mem_children member
  have inside' := coherent.child_lt_size member
  have inherits := inherits_spliced inside inside'
  refine ⟨?_, coherent.root_inherited inherits (coherent.child_ne_of_top member coherent.root)
    (coherent.child_ne_of_top member), fun above other listed => ?_, fun other above parent => ?_⟩
  · rw [root_spliced, size_spliced]
    split
    · exact inside'
    · exact coherent.inside
  · by_cases same : above = id
    · rw [children_spliced inside, if_pos same] at listed
      cases listed
    · have fresh : child ∉ plan.children above := fun again => same (Option.some.inj
        ((coherent.recorded above child again).symm.trans (coherent.recorded id child member)))
      exact coherent.recorded_inherited inherits (inheritsAt_spliced inside child same) fresh listed
  · have ne : other ≠ id := by
      rintro rfl
      rw [parent?_spliced inside inside', if_pos rfl] at parent
      cases parent
    have ne_above : above ≠ id := by
      rintro rfl
      rcases inherits.parent_cases ne parent with ⟨first, parent⟩ | ⟨second, parent⟩
      · have listed := coherent.listed _ _ parent
        rw [only, List.mem_singleton] at listed
        exact ne (first.trans listed.symm)
      · have listed := coherent.listed _ _ parent
        rw [only, List.mem_singleton] at listed
        exact second listed
    exact coherent.listed_inherited inherits (inheritsAt_spliced inside child ne_above) ne parent

theorem reordered (coherent : plan.Coherent) {left right : NodeId} {join : JoinNode}
    (inputs : plan.children id = [left, right]) :
    (plan.reordered id join [right, left]).Coherent := by
  have inside : id < plan.size :=
    lt_size_of_mem_children (show left ∈ plan.children id by simp [inputs])
  have parent := parent?_reordered plan id join [right, left]
  have same (above other : NodeId) :
      other ∈ (plan.reordered id join [right, left]).children above ↔
        other ∈ plan.children above := by
    rw [Plan.reordered, children_modify inside (fun _ => [right, left]) fun _ => rfl]
    by_cases here : above = id
    · rw [if_pos here, here, inputs]
      simp [or_comm]
    · rw [if_neg here]
  refine ⟨?_, (parent _).trans coherent.root, fun above child member => ?_,
    fun child above h => ?_⟩
  · rw [Plan.reordered, size_modify]
    exact coherent.inside
  · rw [parent, coherent.recorded above child ((same above child).mp member)]
  · rw [parent] at h
    exact (same above child).mpr (coherent.listed child above h)

theorem leaves (coherent : plan.Coherent) (edit : PlanEdit) (inside : edit.target < plan.size) :
    (edit.leaves plan).Coherent := by
  cases edit with
  | addChild parent kind => exact coherent.addChild inside kind
  | addAsParent child kind => exact coherent.addAsParent inside kind
  | spliceOut id =>
      rcases PlanEdit.leaves_spliceOut plan id with h | ⟨child, only, h⟩ <;> rw [h]
      · exact coherent
      · exact coherent.spliced only
  | swapJoinChildren id =>
      rcases PlanEdit.leaves_swapJoinChildren plan id with h | ⟨left, right, join, inputs, h⟩ <;>
        rw [h]
      · exact coherent
      · exact coherent.reordered inputs

theorem editedBy (coherent : plan.Coherent) {edits : List PlanEdit} {later : Plan}
    (edited : plan.EditedBy edits later) : later.Coherent := by
  induction edited with
  | start => exact coherent
  | next _ edit inside ih => exact ih.leaves edit inside

/-! ## What is reached -/

theorem eq_root_or_below (coherent : plan.Coherent) (reached : plan.Reached id) :
    id = plan.root ∨ ∃ above, plan.parent? id = some above := by
  cases reached with
  | root => exact .inl rfl
  | child _ member => exact .inr ⟨_, coherent.recorded _ _ member⟩

theorem not_reached (coherent : plan.Coherent) (detached : plan.Detached id) :
    ¬ plan.Reached id := by
  intro reached
  rcases coherent.eq_root_or_below reached with top | ⟨above, parent⟩
  · exact detached.2 top
  · rw [detached.1] at parent
    cases parent

end Coherent

theorem reached_addChild (inside : id < plan.size) (kind : NodeKind) {other : NodeId}
    (reached : plan.Reached other) : (plan.addChild id kind).1.Reached other := by
  induction reached with
  | root => exact .root
  | @child above child _ member ih =>
      refine .child ih ?_
      rw [children_addChild inside]
      split
      next h => exact List.mem_append_left _ (h ▸ member)
      next => exact member

theorem Coherent.reached_addAsParent (coherent : plan.Coherent) (attached : ¬ plan.Detached id)
    (kind : NodeKind) {other : NodeId} (reached : plan.Reached other) :
    (plan.addAsParent id kind).1.Reached other := by
  have below (h : (plan.addAsParent id kind).1.Reached plan.size) :
      (plan.addAsParent id kind).1.Reached id :=
    .child h (by rw [children_addAsParent, if_pos rfl]; exact List.mem_cons_self)
  induction reached with
  | root =>
      by_cases top : plan.parent? id = none
      · have root : (plan.addAsParent id kind).1.root = plan.size := by
          rw [root_addAsParent, if_pos top]
        have same : id = plan.root := not_not.mp fun ne => attached ⟨top, ne⟩
        exact same ▸ below (root ▸ .root)
      · have root : (plan.addAsParent id kind).1.root = plan.root := by
          rw [root_addAsParent, if_neg top]
        exact root ▸ .root
  | @child above child _ member ih =>
      have ne : above ≠ plan.size := Nat.ne_of_lt (lt_size_of_mem_children member)
      have children : (plan.addAsParent id kind).1.children above =
          if some above = plan.parent? id then replaceChild id plan.size (plan.children above)
          else plan.children above := by
        rw [children_addAsParent, if_neg ne]
      by_cases same : child = id
      · have parent : some above = plan.parent? id :=
          (same ▸ coherent.recorded above child member).symm
        refine same ▸ below (.child ih ?_)
        rw [children, if_pos parent, mem_replaceChild]
        exact .inl ⟨rfl, same ▸ member⟩
      · refine .child ih ?_
        rw [children]
        split
        · exact mem_replaceChild.mpr (.inr ⟨same, member⟩)
        · exact member

theorem Coherent.root_addAsParent_eq_iff (coherent : plan.Coherent) :
    (plan.addAsParent id kind).1.root = plan.root ↔ plan.parent? id ≠ none := by
  rw [root_addAsParent]
  by_cases top : plan.parent? id = none
  · rw [if_pos top]
    exact iff_of_false (Nat.ne_of_gt coherent.inside) (not_not.mpr top)
  · rw [if_neg top]
    exact iff_of_true rfl top

theorem Detached.reached_addAsParent (detached : plan.Detached id) (kind : NodeKind) :
    (plan.addAsParent id kind).1.Reached id := by
  have root : (plan.addAsParent id kind).1.root = plan.size := by
    rw [root_addAsParent, if_pos detached.1]
  have top : (plan.addAsParent id kind).1.Reached plan.size := root ▸ .root
  refine .child top ?_
  rw [children_addAsParent, if_pos rfl]
  exact List.mem_cons_self

/-- The old root is lost to a node that is put above a detached one. -/
theorem Coherent.not_reached_root (coherent : plan.Coherent) (inside : id < plan.size)
    (detached : plan.Detached id) (kind : NodeKind) :
    ¬ (plan.addAsParent id kind).1.Reached plan.root := by
  refine (coherent.addAsParent inside kind).not_reached ⟨?_, ?_⟩
  · rw [parent?_addAsParent inside, if_neg detached.2.symm,
      if_neg (Nat.ne_of_lt coherent.inside), coherent.root]
  · rw [root_addAsParent, if_pos detached.1]
    exact Nat.ne_of_lt coherent.inside

/-! ## Nodes that are taken out -/

theorem Coherent.detached_spliced (coherent : plan.Coherent) {child : NodeId}
    (only : plan.children id = [child]) : (plan.spliced id child).Detached id := by
  have member : child ∈ plan.children id := by simp [only]
  constructor
  · rw [parent?_spliced (lt_size_of_mem_children member) (coherent.child_lt_size member),
      if_pos rfl]
  · rw [root_spliced]
    by_cases top : plan.parent? id = none
    · rw [if_pos top]
      exact (coherent.child_ne_of_top member top).symm
    · rw [if_neg top]
      rintro rfl
      exact top coherent.root

theorem spliceOut_eq_ok {new : Plan} {child : NodeId}
    (taken : spliceOut id plan = .ok child new) :
    plan.children id = [child] ∧ new = plan.spliced id child := by
  by_cases applies : ∃ child, plan.children id = [child]
  · obtain ⟨only, listed⟩ := applies
    cases (spliceOut_eq listed).symm.trans taken
    exact ⟨listed, rfl⟩
  · obtain ⟨error, failed⟩ := spliceOut_eq_error applies
    cases failed.symm.trans taken

theorem size_le_leaves (edit : PlanEdit) (plan : Plan) : plan.size ≤ (edit.leaves plan).size := by
  cases edit with
  | addChild parent kind => exact size_addChild plan parent kind ▸ Nat.le_succ _
  | addAsParent child kind => exact size_addAsParent plan child kind ▸ Nat.le_succ _
  | spliceOut id =>
      rcases PlanEdit.leaves_spliceOut plan id with h | ⟨child, -, h⟩ <;> rw [h]
      rw [size_spliced]
  | swapJoinChildren id =>
      rcases PlanEdit.leaves_swapJoinChildren plan id with h | ⟨left, right, join, -, h⟩ <;> rw [h]
      rw [reordered, size_modify]

/-- Only a new node above it gives a detached node a parent again. -/
theorem Detached.leaves (detached : plan.Detached id) (coherent : plan.Coherent)
    (inside : id < plan.size) {edit : PlanEdit} (inside' : edit.target < plan.size)
    (elsewhere : ∀ kind, edit ≠ .addAsParent id kind) : (edit.leaves plan).Detached id := by
  have ne_new : id ≠ plan.size := Nat.ne_of_lt inside
  cases edit with
  | addChild parent kind =>
      refine ⟨?_, detached.2⟩
      exact (parent?_addChild parent kind id).trans ((if_neg ne_new).trans detached.1)
  | addAsParent child kind =>
      have ne : id ≠ child := fun same => elsewhere kind (same ▸ rfl)
      constructor
      · exact (parent?_addAsParent inside' kind id).trans
          ((if_neg ne).trans ((if_neg ne_new).trans detached.1))
      · change id ≠ (plan.addAsParent child kind).1.root
        rw [root_addAsParent]
        split
        · exact ne_new
        · exact detached.2
  | spliceOut out =>
      rcases PlanEdit.leaves_spliceOut plan out with h | ⟨child, only, h⟩ <;> rw [h]
      · exact detached
      · have member : child ∈ plan.children out := by simp [only]
        have ne_child := (coherent.child_ne_of_top member detached.1).symm
        constructor
        · rw [parent?_spliced (lt_size_of_mem_children member) (coherent.child_lt_size member),
            if_neg ne_child, detached.1]
          exact ite_self _
        · rw [root_spliced]
          split
          · exact ne_child
          · exact detached.2
  | swapJoinChildren join =>
      rcases PlanEdit.leaves_swapJoinChildren plan join with h | ⟨left, right, payload, -, h⟩ <;>
        rw [h]
      · exact detached
      · exact ⟨(parent?_reordered plan join payload _ id).trans detached.1, detached.2⟩

theorem Detached.editedBy (detached : plan.Detached id) (coherent : plan.Coherent)
    (inside : id < plan.size) {edits : List PlanEdit} {later : Plan}
    (edited : plan.EditedBy edits later) (elsewhere : ∀ kind, .addAsParent id kind ∉ edits) :
    later.Detached id := by
  suffices later.Detached id ∧ id < later.size from this.1
  induction edited with
  | start => exact ⟨detached, inside⟩
  | @next edits left before edit inside' ih =>
      obtain ⟨still, within⟩ := ih fun kind member => elsewhere kind (List.mem_append_left _ member)
      refine ⟨still.leaves (coherent.editedBy before) within inside' fun kind same => ?_,
        Nat.lt_of_lt_of_le within (size_le_leaves edit left)⟩
      exact elsewhere kind (List.mem_append_right _ (same ▸ List.mem_cons_self))

/-- A node that has been taken out is not reached until a new node is put above it, and then it
is. Adding a child loses nothing, and adding a parent loses nothing and leaves the root exactly
unless the node is detached. -/
theorem removed_until_given_parent {edits : List PlanEdit}
    (built : (ofKind kind).EditedBy edits plan) :
    (∀ id child removed, spliceOut id plan = .ok child removed →
      ∀ more later, removed.EditedBy more later → (∀ kind, .addAsParent id kind ∉ more) →
        later.Detached id ∧ ¬ later.Reached id ∧
          ∀ kind, (later.addAsParent id kind).1.Reached id) ∧
    ∀ id < plan.size, ∀ kind,
      (plan.addChild id kind).1.root = plan.root ∧
      (∀ other, plan.Reached other → (plan.addChild id kind).1.Reached other) ∧
      ((∀ other, plan.Reached other → (plan.addAsParent id kind).1.Reached other) ↔
        ¬ plan.Detached id) ∧
      ((plan.addAsParent id kind).1.root ≠ plan.root ↔ id = plan.root ∨ plan.Detached id) := by
  have coherent : plan.Coherent := (Coherent.ofKind kind).editedBy built
  constructor
  · intro id child removed taken more later edited elsewhere
    obtain ⟨only, rfl⟩ := spliceOut_eq_ok taken
    have member : child ∈ plan.children id := by simp [only]
    have inside := lt_size_of_mem_children member
    have removed := coherent.spliced only
    have detached : later.Detached id := (coherent.detached_spliced only).editedBy removed
      (by rwa [size_spliced]) edited elsewhere
    exact ⟨detached, (removed.editedBy edited).not_reached detached, detached.reached_addAsParent⟩
  · intro id inside kind
    refine ⟨rfl, fun _ => reached_addChild inside kind, ⟨fun keeps detached => ?_,
      fun attached _ => coherent.reached_addAsParent attached kind⟩, ?_⟩
    · exact coherent.not_reached_root inside detached kind (keeps _ .root)
    · rw [ne_eq, coherent.root_addAsParent_eq_iff, Detached]
      have top : id = plan.root → plan.parent? id = none := fun same => same ▸ coherent.root
      tauto

def filtered : Plan :=
  ((ofKind (.access { group := .named "pm1.g1" })).addAsParent 0
    (.select ⟨.isNull (.literal .null) false, false⟩)).1

def unfiltered : Plan := filtered.spliced 1 0

theorem editedBy_filtered :
    (ofKind (.access { group := .named "pm1.g1" })).EditedBy
      [.addAsParent 0 (.select ⟨.isNull (.literal .null) false, false⟩)] filtered :=
  .next .start _ Nat.zero_lt_one

theorem coherent_unfiltered : unfiltered.Coherent :=
  ((Coherent.ofKind _).editedBy editedBy_filtered).spliced rfl

theorem unfiltered_filter_unreached :
    spliceOut 1 filtered = .ok 0 unfiltered ∧
      ¬ (unfiltered.addChild 1 .null).1.Reached 1 ∧
      ∀ other, unfiltered.Reached other →
        (unfiltered.addAsParent 0 .dupRemove).1.Reached other := by
  have removal := removed_until_given_parent editedBy_filtered
  have added : unfiltered.EditedBy [.addChild 1 .null] (unfiltered.addChild 1 .null).1 :=
    .next .start _ (by decide)
  refine ⟨rfl, (removal.1 1 0 unfiltered rfl _ _ added (by simp)).2.1, ?_⟩
  have attached : ¬ unfiltered.Detached 0 := fun detached => detached.2 rfl
  have later := removed_until_given_parent
    (.next editedBy_filtered (.spliceOut 1) (by decide) : EditedBy _ _ unfiltered)
  exact (later.2 0 (by decide) .dupRemove).2.2.1.mpr attached

theorem unfiltered_filter_reached_again :
    (∃ kind edits, (ofKind kind).EditedBy edits filtered) ∧
      spliceOut 1 filtered = .ok 0 unfiltered ∧ ¬ unfiltered.Reached 1 ∧ unfiltered.Reached 0 ∧
      unfiltered.EditedBy [.addAsParent 1 .dupRemove] (unfiltered.addAsParent 1 .dupRemove).1 ∧
      (unfiltered.addAsParent 1 .dupRemove).1.Reached 1 ∧
      ¬ (unfiltered.addAsParent 1 .dupRemove).1.Reached 0 ∧
      (unfiltered.addAsParent 1 .dupRemove).1.root ≠ unfiltered.root := by
  have detached : unfiltered.Detached 1 := ⟨rfl, by decide⟩
  refine ⟨⟨_, _, editedBy_filtered⟩, rfl, coherent_unfiltered.not_reached detached, .root,
    .next .start _ (by decide), detached.reached_addAsParent _, ?_, by decide⟩
  exact coherent_unfiltered.not_reached_root (by decide) detached _

end Plan

end FederatedQuery
