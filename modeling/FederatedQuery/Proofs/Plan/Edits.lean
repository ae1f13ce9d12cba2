import FederatedQuery.Proofs.Plan.Linked
import FederatedQuery.Proofs.Plan.Surgery

/-!
# Edits of linked arenas

Every edit at a node that is reached leaves a linked arena.  In preorder, where each
subtree is one block, an edit inserts or removes one position or exchanges two blocks,
and an edit that fails leaves the plan as it was.
-/

namespace FederatedQuery

inductive PlanEdit where
  | addChild (parent : NodeId) (kind : NodeKind)
  | addAsParent (child : NodeId) (kind : NodeKind)
  | spliceOut (id : NodeId)
  | swapJoinChildren (join : NodeId)

namespace PlanEdit

def target : PlanEdit → NodeId
  | .addChild parent _ => parent
  | .addAsParent child _ => child
  | .spliceOut id => id
  | .swapJoinChildren join => join

def perform : PlanEdit → PlanStep Unit
  | .addChild parent kind => modify fun plan => (plan.addChild parent kind).1
  | .addAsParent child kind => modify fun plan => (plan.addAsParent child kind).1
  | .spliceOut id => discard (Plan.spliceOut id)
  | .swapJoinChildren join => Plan.swapJoinChildren join

def leaves (edit : PlanEdit) (plan : Plan) : Plan :=
  match edit.perform plan with
  | .ok _ left => left
  | .error _ left => left

def Applies (plan : Plan) : PlanEdit → Prop
  | .addChild _ _ | .addAsParent _ _ => True
  | .spliceOut id => ∃ child, plan.children id = [child]
  | .swapJoinChildren join =>
      (plan.join? join).isSome = true ∧ ∃ left right, plan.children join = [left, right]

/-- What the edit makes of the positions that are reached, in preorder. -/
def Rearranges (plan new : Plan) : PlanEdit → Prop
  | .addChild parent _ => ∃ before after,
      plan.preorder plan.root = before ++ plan.preorder parent ++ after ∧
        new.preorder new.root = before ++ plan.preorder parent ++ plan.size :: after
  | .addAsParent child _ => ∃ before after,
      plan.preorder plan.root = before ++ child :: after ∧
        new.preorder new.root = before ++ plan.size :: child :: after
  | .spliceOut id => ∃ before after,
      plan.preorder plan.root = before ++ id :: after ∧ new.preorder new.root = before ++ after
  | .swapJoinChildren join => ∃ before left right after,
      plan.children join = [left, right] ∧
        plan.preorder plan.root =
          before ++ join :: (plan.preorder left ++ plan.preorder right) ++ after ∧
        new.preorder new.root =
          before ++ join :: (plan.preorder right ++ plan.preorder left) ++ after

def kindAfter (plan : Plan) (edit : PlanEdit) (other : NodeId) : Option NodeKind :=
  match edit with
  | .addChild _ kind | .addAsParent _ kind =>
      if other = plan.size then some kind else plan.kind? other
  | .spliceOut _ => plan.kind? other
  | .swapJoinChildren join =>
      if other = join then (plan.join? join).map (.join ·.mirrored) else plan.kind? other

/-- What an edit does to a plan, and when. -/
structure Edits (edit : PlanEdit) (plan : Plan) : Prop where
  applies : (∃ new, edit.perform plan = .ok () new) ↔ edit.Applies plan
  unchanged : ∀ error left, edit.perform plan = .error error left → left = plan
  keepsLinked : ∀ new, edit.perform plan = .ok () new → new.Linked
  rearranges : ∀ new, edit.perform plan = .ok () new → edit.Rearranges plan new
  kinds : ∀ new, edit.perform plan = .ok () new → ∀ other,
    new.kind? other = edit.kindAfter plan other

end PlanEdit

/-- The plans that edits at reached nodes make of a single node. -/
inductive Plan.Built : Plan → Prop
  | single (kind : NodeKind) : Built (.ofKind kind)
  | edit {plan : Plan} (built : plan.Built) (edit : PlanEdit) (reached : plan.Reached edit.target) :
      Built (edit.leaves plan)

/-! ## The edits -/

namespace Plan

variable {plan : Plan} {tree : PlanTree} {id : NodeId}

theorem Linked.exists_within (linked : plan.Linked) (reached : plan.Reached id) :
    ∃ kind children frames, plan.Holds ((PlanTree.node id kind children).within frames) := by
  have holds := linked.holds
  obtain ⟨sub, member, rfl, -⟩ := holds.exists_of_reached reached
  obtain ⟨frames, hframes⟩ := PlanTree.exists_within_of_mem member
  refine ⟨sub.kind, sub.children, frames, ?_⟩
  rw [sub.eta, ← hframes]
  exact holds

theorem Holds.isLinked (holds : plan.Holds tree) : plan.Linked := linked_iff.mpr ⟨tree, holds⟩

end Plan

namespace PlanEdit

open Plan

variable {plan new : Plan} {edit : PlanEdit} {tree : PlanTree} {id : NodeId} {kind : NodeKind}

theorem Edits.of_ok (performed : edit.perform plan = .ok () new) (applies : edit.Applies plan)
    (holds : new.Holds tree) (rearranges : edit.Rearranges plan new)
    (kinds : ∀ other, new.kind? other = edit.kindAfter plan other) : edit.Edits plan := by
  have only {other : Plan} (h : edit.perform plan = .ok () other) : new = other := by
    rw [performed] at h
    cases h
    rfl
  refine ⟨⟨fun _ => applies, fun _ => ⟨new, performed⟩⟩, fun error left h => ?_,
    fun other h => only h ▸ holds.isLinked, fun other h => only h ▸ rearranges,
    fun other h => only h ▸ kinds⟩
  rw [performed] at h
  cases h

theorem Edits.of_error {error : PlanError} (failed : edit.perform plan = .error error plan)
    (refused : ¬ edit.Applies plan) : edit.Edits plan := by
  have never {other : Plan} (h : edit.perform plan = .ok () other) : False := by
    rw [failed] at h
    cases h
  refine ⟨⟨fun ⟨_, h⟩ => (never h).elim, fun h => (refused h).elim⟩, fun _ left h => ?_,
    fun _ h => (never h).elim, fun _ h => (never h).elim, fun _ h => (never h).elim⟩
  rw [failed] at h
  cases h
  rfl

theorem perform_spliceOut {child : NodeId} (only : plan.children id = [child]) :
    (PlanEdit.spliceOut id).perform plan = .ok () (plan.spliced id child) := by
  simp only [perform, discard, Functor.discard, Functor.mapConst, Function.comp_apply, EStateM.map,
    spliceOut_eq only]

theorem exists_perform_spliceOut_error (refused : ¬ (PlanEdit.spliceOut id).Applies plan) :
    ∃ error, (PlanEdit.spliceOut id).perform plan = .error error plan := by
  obtain ⟨error, failed⟩ := spliceOut_eq_error refused
  exact ⟨error, by simp only [perform, discard, Functor.discard, Functor.mapConst,
    Function.comp_apply, EStateM.map, failed]⟩

theorem edits_addChild (linked : plan.Linked) (reached : plan.Reached id) :
    (PlanEdit.addChild id kind).Edits plan := by
  obtain ⟨old, children, frames, holds⟩ := linked.exists_within reached
  obtain ⟨before, after, ids⟩ := PlanTree.exists_ids_within frames
  have performed : (PlanEdit.addChild id kind).perform plan = .ok () (plan.addChild id kind).1 :=
    rfl
  have added := holds.addChild kind
  have block : plan.preorder id = (PlanTree.node id old children).ids :=
    holds.preorder_eq (PlanTree.mem_subtrees_within_self (.node id old children) frames)
  refine .of_ok performed trivial added ⟨before, after, ?_, ?_⟩ (kind?_addChild plan id kind)
  · rw [holds.preorder_root, ids, block]
  · rw [added.preorder_root, ids, block]
    simp

theorem edits_addAsParent (linked : plan.Linked) (reached : plan.Reached id) :
    (PlanEdit.addAsParent id kind).Edits plan := by
  obtain ⟨old, children, frames, holds⟩ := linked.exists_within reached
  obtain ⟨before, after, ids⟩ := PlanTree.exists_ids_within frames
  have performed : (PlanEdit.addAsParent id kind).perform plan =
    .ok () (plan.addAsParent id kind).1 := rfl
  have added : (plan.addAsParent id kind).1.Holds _ := holds.addAsParent kind
  refine .of_ok performed trivial added
    ⟨before, children.flatMap PlanTree.ids ++ after, ?_, ?_⟩ (kind?_addAsParent plan id kind)
  · rw [holds.preorder_root, ids]
    simp
  · rw [added.preorder_root, ids]
    simp

theorem edits_spliceOut (linked : plan.Linked) (reached : plan.Reached id) :
    (PlanEdit.spliceOut id).Edits plan := by
  obtain ⟨old, children, frames, holds⟩ := linked.exists_within reached
  by_cases applies : ∃ child, plan.children id = [child]
  · obtain ⟨child, only⟩ := applies
    obtain ⟨below, rfl, rfl⟩ : ∃ below, children = [below] ∧ below.id = child := by
      have inputs : plan.children id = children.map PlanTree.id :=
        holds.children_eq (PlanTree.mem_subtrees_within_self (.node id old children) frames)
      obtain ⟨below, hbelow, hid⟩ := List.map_eq_singleton_iff.mp (inputs.symm.trans only)
      exact ⟨below, hbelow, hid⟩
    obtain ⟨before, after, ids⟩ := PlanTree.exists_ids_within frames
    refine .of_ok (perform_spliceOut only) ⟨below.id, only⟩ holds.spliced
      ⟨before, below.ids ++ after, ?_, ?_⟩ (kind?_spliced plan id below.id)
    · rw [holds.preorder_root, ids]
      simp
    · rw [holds.spliced.preorder_root, ids, List.append_assoc]
  · obtain ⟨error, failed⟩ := exists_perform_spliceOut_error applies
    exact .of_error failed applies

theorem kind?_swapped {join : JoinNode} (children : List NodeId)
    (found : plan.join? id = some join) (other : NodeId) :
    (plan.modify id fun node =>
      { node with kind := .join join.mirrored, children := children }).kind? other =
      if other = id then (plan.join? id).map (.join ·.mirrored) else plan.kind? other := by
  rw [kind?, node?_modify, found]
  by_cases same : other = id
  · obtain ⟨_, hkind, -⟩ := Option.bind_eq_some_iff.mp found
    obtain ⟨node, hnode, -⟩ := Option.map_eq_some_iff.mp hkind
    rw [if_pos same, if_pos same, same, hnode]
    rfl
  · rw [if_neg same, if_neg same, kind?]

theorem edits_swapJoinChildren (linked : plan.Linked) (reached : plan.Reached id) :
    (PlanEdit.swapJoinChildren id).Edits plan := by
  by_cases applies : (PlanEdit.swapJoinChildren id).Applies plan
  · obtain ⟨old, children, frames, holds⟩ := linked.exists_within reached
    have member := PlanTree.mem_subtrees_within_self (.node id old children) frames
    obtain ⟨isJoin, first, second, both⟩ := applies
    obtain ⟨join, found⟩ := Option.isSome_iff_exists.mp isJoin
    obtain ⟨left, right, rfl, rfl, rfl⟩ : ∃ left right,
        children = [left, right] ∧ left.id = first ∧ right.id = second := by
      have inputs : plan.children id = children.map PlanTree.id := holds.children_eq member
      simpa [List.map_eq_cons_iff, and_assoc] using inputs.symm.trans both
    obtain rfl : old = .join join := by
      have payload : plan.join? id = old.join? := holds.join?_eq member
      rw [found] at payload
      cases old <;> cases payload
      rfl
    obtain ⟨before, after, ids⟩ := PlanTree.exists_ids_within frames
    obtain ⟨_, performed, -, exchanged⟩ := holds.swapJoinChildren
    cases performed.symm.trans (swapJoinChildren_eq both found)
    have block {input : PlanTree} (hinput : input ∈ [left, right]) :
        plan.preorder input.id = input.ids :=
      holds.preorder_eq (PlanTree.child_mem_subtrees member hinput)
    refine .of_ok performed ⟨isJoin, left.id, right.id, both⟩ exchanged
      ⟨before, left.id, right.id, after, both, ?_, ?_⟩ (kind?_swapped _ found)
    · rw [holds.preorder_root, ids, block (by simp), block (by simp)]
      simp
    · rw [exchanged.preorder_root, ids, block (by simp), block (by simp)]
      simp
  · obtain ⟨error, failed⟩ := swapJoinChildren_eq_error applies
    exact .of_error failed applies

theorem edits (linked : plan.Linked) (edit : PlanEdit) (reached : plan.Reached edit.target) :
    edit.Edits plan := by
  cases edit with
  | addChild parent kind => exact edits_addChild linked reached
  | addAsParent child kind => exact edits_addAsParent linked reached
  | spliceOut id => exact edits_spliceOut linked reached
  | swapJoinChildren join => exact edits_swapJoinChildren linked reached

theorem Edits.linked_leaves (edits : edit.Edits plan) (linked : plan.Linked) :
    (edit.leaves plan).Linked := by
  rw [leaves]
  cases h : edit.perform plan with
  | ok answer left => exact edits.keepsLinked left h
  | error error left => exact edits.unchanged error left h ▸ linked

end PlanEdit

namespace Plan

theorem linked_ofKind (kind : NodeKind) : (ofKind kind).Linked := by
  have holds : (ofKind kind).Holds (.node 0 kind []) :=
    ⟨.node rfl (by simp), rfl, by simp⟩
  exact holds.isLinked

theorem Built.isLinked {plan : Plan} (built : plan.Built) : plan.Linked := by
  induction built with
  | single kind => exact linked_ofKind kind
  | edit _ edit reached ih => exact (PlanEdit.edits ih edit reached).linked_leaves ih

theorem Linked.spliceOut_addAsParent {plan : Plan} {child : NodeId} (linked : plan.Linked)
    (reached : plan.Reached child) (kind : NodeKind) :
    ∃ restored, spliceOut (plan.addAsParent child kind).2 (plan.addAsParent child kind).1 =
      .ok child restored ∧ restored.tree = plan.tree := by
  obtain ⟨old, children, frames, holds⟩ := linked.exists_within reached
  have added := holds.addAsParent kind
  refine ⟨_, added.spliceOut, ?_⟩
  rw [added.spliced.tree_eq, holds.tree_eq]

/-- Edits at reached nodes keep a plan linked: each does what it says to the preorder and to
kinds or leaves the plan as it was, and whatever is built by them is linked. -/
theorem edits_keep_linked :
    (∀ plan : Plan, plan.Linked → ∀ edit : PlanEdit, plan.Reached edit.target →
      edit.Edits plan ∧
        ∀ kind, ∃ restored, spliceOut (plan.addAsParent edit.target kind).2
            (plan.addAsParent edit.target kind).1 = .ok edit.target restored ∧
          restored.tree = plan.tree) ∧
      ∀ plan : Plan, plan.Built → plan.Linked :=
  ⟨fun _ linked edit reached =>
    ⟨PlanEdit.edits linked edit reached, linked.spliceOut_addAsParent reached⟩,
    fun _ built => built.isLinked⟩

def filteredJoin : Plan :=
  let join := ofKind (.join { joinType := .leftOuter })
  let left := (join.addChild 0 (.access { group := .named "pm1.g1" })).1
  let right := (left.addChild 0 (.access { group := .named "pm2.g1" })).1
  (right.addAsParent 0 (.select ⟨.isNull (.literal .null) false, false⟩)).1

theorem built_filteredJoin : filteredJoin.Built := by
  have join : (ofKind (.join { joinType := .leftOuter })).Built := .single _
  have left := join.edit (.addChild 0 (.access { group := .named "pm1.g1" })) .root
  have right := left.edit (.addChild 0 (.access { group := .named "pm2.g1" })) .root
  exact right.edit (.addAsParent 0 (.select ⟨.isNull (.literal .null) false, false⟩)) .root

theorem filteredJoin_swapped :
    ∃ new, (PlanEdit.swapJoinChildren 0).perform filteredJoin = .ok () new ∧
      filteredJoin.preorder filteredJoin.root = [3, 0, 1, 2] ∧
      new.preorder new.root = [3, 0, 2, 1] ∧ new.Linked := by
  have linked := edits_keep_linked.2 filteredJoin built_filteredJoin
  have reached : filteredJoin.Reached 0 := .child .root (by decide)
  have edits := (edits_keep_linked.1 filteredJoin linked (.swapJoinChildren 0) reached).1
  obtain ⟨new, performed⟩ := edits.applies.mpr ⟨by decide, 1, 2, by decide⟩
  refine ⟨new, performed, by decide, ?_, edits.keepsLinked new performed⟩
  cases performed
  decide

end Plan

end FederatedQuery
