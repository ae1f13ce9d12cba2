import FederatedQuery.Planning.CleanCriteria
import FederatedQuery.Planning.PushSelect
import FederatedQuery.Proofs.Plan.Accepted
import FederatedQuery.Proofs.Plan.Surgery
import FederatedQuery.Proofs.Planning.Session
import Mathlib.Logic.Relation

/-!
# What the rules for filters do to a tree

Cleaning takes out filters that are applied again below, and pushing moves filters
past other filters into an access.  Both rules are sequences of such moves, and every
move leads from one well-shaped tree to another.
-/

namespace FederatedQuery

open Relation

def Frame.IsFilter (frame : Frame) : Prop := frame.kind.isSelect = true ∧ frame.sides = []

/-- The criteria are applied by the node below, or by the access below it and other filters. -/
inductive SelectNode.RedundantAbove (select : SelectNode) : PlanTree → Prop
  | repeated {id : NodeId} {other : SelectNode} {inner : PlanTree}
      (same : (other.criteria == select.criteria) = true) :
      select.RedundantAbove (.node id (.select other) [inner])
  | pushed {source : NodeId} {access : AccessNode} {children : List PlanTree}
      {filters : List Frame} (passed : ∀ frame ∈ filters, frame.IsFilter)
      (contained : access.pushedCriteria.contains select.criteria = true) :
      select.RedundantAbove ((PlanTree.node source (.access access) children).within filters)

inductive FilterMove : PlanTree → PlanTree → Prop
  | drop (frames : List Frame) (id : NodeId) {select : SelectNode} {below : PlanTree}
      (redundant : select.RedundantAbove below) :
      FilterMove ((PlanTree.node id (.select select) [below]).within frames) (below.within frames)
  | push (frames : List Frame) (id : NodeId) (select : SelectNode) {filters : List Frame}
      (passed : ∀ frame ∈ filters, frame.IsFilter) (source : NodeId) (access : AccessNode)
      (children : List PlanTree) :
      FilterMove
        ((PlanTree.node id (.select select)
          [(PlanTree.node source (.access access) children).within filters]).within frames)
        (((PlanTree.node source (.access (access.push select.criteria)) children).within
          filters).within frames)

theorem FilterMove.length_lt {tree new : PlanTree} (move : FilterMove tree new) :
    new.ids.length < tree.ids.length := by
  cases move with
  | drop frames id redundant =>
      rw [(PlanTree.ids_within_perm _ _).length_eq, (PlanTree.ids_within_perm _ _).length_eq]
      simp
  | push frames id select passed source access children =>
      rw [(PlanTree.ids_within_perm _ _).length_eq, (PlanTree.ids_within_perm _ _).length_eq,
        PlanTree.ids_node, List.flatMap_singleton, List.length_append, List.length_append,
        List.length_cons, (PlanTree.ids_within_perm _ _).length_eq,
        (PlanTree.ids_within_perm _ _).length_eq]
      simp

/-- What a step on filters has done: they moved, or the plan is the same, as the flag says. -/
structure FilterMove.Effect (moved : Bool) (start final : Plan) (tree new : PlanTree) : Prop where
  moves : moved = true → TransGen FilterMove tree new
  still : moved = false → final = start
  joins : ∀ id, final.join? id = start.join? id

theorem FilterMove.Effect.unmoved (plan : Plan) (tree : PlanTree) :
    Effect false plan plan tree tree := ⟨nofun, fun _ => rfl, fun _ => rfl⟩

theorem FilterMove.Effect.trans {moved others : Bool} {start between final : Plan}
    {tree middle new : PlanTree} (first : Effect moved start between tree middle)
    (second : Effect others between final middle new)
    (before : ReflTransGen FilterMove tree middle) (after : ReflTransGen FilterMove middle new) :
    Effect (moved || others) start final tree new := by
  refine ⟨fun h => ?_, fun h => ?_, fun id => (second.joins id).trans (first.joins id)⟩
  · rcases Bool.or_eq_true_iff.mp h with h | h
    · exact (first.moves h).trans_left after
    · exact .trans_right before (second.moves h)
  · obtain ⟨h, h'⟩ := Bool.or_eq_false_iff.mp h
    exact (second.still h').trans (first.still h)

def Planning.Transforms {α : Type} (step : Planning α) (related : PlanTree → PlanTree → Prop) :
    Prop :=
  ∀ {start final : Session} {value : α} {tree : PlanTree}, start.plan.Holds tree →
    tree.WellShaped → step start = .ok value final →
      ∃ new, final.plan.Holds new ∧ new.WellShaped ∧ related tree new

namespace PlanTree

theorem WellShaped.only_child {id : NodeId} {select : SelectNode} {children : List PlanTree}
    (shaped : (PlanTree.node id (.select select) children).WellShaped) :
    ∃ below, children = [below] :=
  List.length_eq_one_iff.mp ((wellShaped_node.mp shaped).1.arity 1 rfl)

theorem exists_filters {tree : PlanTree} (shaped : tree.WellShaped) :
    ∃ filters, tree = tree.beneath.within filters ∧ ∀ frame ∈ filters, frame.IsFilter := by
  induction tree with
  | node id kind children ih =>
      cases hselect : kind.isSelect with
      | false =>
          refine ⟨[], ?_, by simp⟩
          cases children <;> simp [beneath, descend, hselect]
      | true =>
          obtain ⟨select, rfl⟩ := NodeKind.exists_eq_select hselect
          obtain ⟨below, rfl⟩ := shaped.only_child
          have hbelow := (wellShaped_node.mp shaped).2 below List.mem_cons_self
          obtain ⟨filters, hfilters, hall⟩ := ih below List.mem_cons_self hbelow
          have hbeneath : (PlanTree.node id (.select select) [below]).beneath = below.beneath := by
            simp [beneath, descend, hselect]
          refine ⟨filters ++ [⟨id, .select select, [], []⟩], ?_, fun frame hframe => ?_⟩
          · rw [hbeneath, within_append, ← hfilters]
            rfl
          · rcases List.mem_append.mp hframe with hframe | hframe
            · exact hall frame hframe
            · rw [List.mem_singleton.mp hframe]
              exact ⟨rfl, rfl⟩

theorem kind_eq_access {tree : PlanTree} {access : AccessNode}
    (h : tree.kind.access? = some access) : tree.kind = .access access := by
  cases hkind : tree.kind <;> simp_all [NodeKind.access?]

theorem kind_eq_select {tree : PlanTree} {select : SelectNode}
    (h : tree.kind.select? = some select) : tree.kind = .select select := by
  cases hkind : tree.kind <;> simp_all [NodeKind.select?]

end PlanTree

namespace Plan.Holds

variable {plan : Plan} {tree : PlanTree}

theorem exists_filter (holds : plan.Holds tree) (shaped : tree.WellShaped) {id : NodeId}
    (member : id ∈ tree.ids) {select : SelectNode} (found : plan.select? id = some select) :
    ∃ frames below, tree = (PlanTree.node id (.select select) [below]).within frames := by
  obtain ⟨sub, hsub, rfl⟩ := List.mem_map.mp member
  rw [holds.select?_eq hsub] at found
  obtain ⟨frames, rfl⟩ := PlanTree.exists_within_of_mem hsub
  have hshaped := shaped.of_mem hsub
  rw [← sub.eta, PlanTree.kind_eq_select found] at hshaped
  obtain ⟨below, hchildren⟩ := hshaped.only_child
  refine ⟨frames, below, ?_⟩
  rw [← PlanTree.kind_eq_select found, ← hchildren, PlanTree.eta]

theorem findAll_subset_ids (holds : plan.Holds tree) (types stop : List NodeType) :
    plan.findAll plan.root types stop ⊆ tree.ids := by
  rw [holds.findAll_root_eq]
  intro id member
  obtain ⟨sub, hsub, rfl⟩ := List.mem_map.mp member
  exact List.mem_map_of_mem
    (PlanTree.visit_subset_subtrees _ _ (List.mem_filter.mp hsub).1)

end Plan.Holds

/-! ## Cleaning -/

namespace CleanCriteria

theorem redundantAbove_of_isRedundant {plan : Plan} {id : NodeId} {select : SelectNode}
    {below : PlanTree} {frames : List Frame}
    (holds : plan.Holds ((PlanTree.node id (.select select) [below]).within frames))
    (shaped : below.WellShaped) (redundant : isRedundant plan id = true) :
    select.RedundantAbove below := by
  have hnode := PlanTree.mem_subtrees_within_self (.node id (.select select) [below]) frames
  have hbelow : below ∈ ((PlanTree.node id (.select select) [below]).within frames).subtrees :=
    PlanTree.subtrees_subset_of_mem hnode (by simp [PlanTree.self_mem_subtrees])
  have hselect : plan.select? id = some select := holds.select?_eq hnode
  have hfirst : plan.firstChild? id = some below.id := holds.firstChild?_eq hnode
  simp only [isRedundant, hselect, hfirst, Bool.or_eq_true] at redundant
  rcases redundant with repeated | pushed
  · rw [isRepeatedBelow, holds.select?_eq hbelow, Option.any_eq_true] at repeated
    obtain ⟨other, hother, hsame⟩ := repeated
    rw [← below.eta, PlanTree.kind_eq_select hother] at shaped ⊢
    obtain ⟨inner, hinner⟩ := shaped.only_child
    rw [hinner]
    exact .repeated hsame
  · rw [isPushedBelow, Bool.and_eq_true, Option.any_eq_true] at pushed
    obtain ⟨-, access, hpushed, hcontains⟩ := pushed
    rw [holds.accessBelow?_eq hnode, Option.bind_eq_some_iff] at hpushed
    obtain ⟨source, hsource, haccess⟩ := hpushed
    have hbeneath : below.beneath ∈ below.subtrees := PlanTree.descend_mem_subtrees _ _
    have hid : below.beneath.id = source := by
      split at hsource
      · exact Option.some.inj hsource
      · cases hsource
    rw [← hid, holds.access?_eq (PlanTree.subtrees_subset_of_mem hbelow hbeneath)] at haccess
    obtain ⟨filters, hfilters, passed⟩ := PlanTree.exists_filters shaped
    rw [hfilters, ← below.beneath.eta, PlanTree.kind_eq_access haccess]
    exact .pushed passed hcontains

theorem exists_drop {plan : Plan} {tree : PlanTree} {id : NodeId} (holds : plan.Holds tree)
    (shaped : tree.WellShaped) (found : findRedundant? plan = some id) :
    ∃ rest top new, Plan.spliceOut id plan = .ok top rest ∧ rest.Holds new ∧ new.WellShaped ∧
      FilterMove tree new ∧ ∀ other, rest.join? other = plan.join? other := by
  have member := holds.findAll_subset_ids _ _ (List.mem_of_find?_eq_some found)
  have redundant := List.find?_some found
  obtain ⟨select, hselect⟩ : ∃ select, plan.select? id = some select := by
    cases h : plan.select? id with
    | none => simp [isRedundant, h] at redundant
    | some select => exact ⟨select, rfl⟩
  obtain ⟨frames, below, rfl⟩ := holds.exists_filter shaped member hselect
  have hnode := shaped.of_mem (PlanTree.mem_subtrees_within_self _ frames)
  have hbelow := (PlanTree.wellShaped_node.mp hnode).2 below List.mem_cons_self
  refine ⟨plan.spliced id below.id, below.id, below.within frames, holds.spliceOut, holds.spliced,
    shaped.replace hbelow,
    .drop frames id (redundantAbove_of_isRedundant holds hbelow redundant), fun other => ?_⟩
  rw [Plan.join?, Plan.kind?_spliced, Plan.join?]

theorem removeWithin_of_clean {start : Session} (clean : findRedundant? start.plan = none)
    (fuel : Nat) : removeWithin fuel start = .ok false start := by
  cases fuel with
  | zero => rfl
  | succ fuel =>
      rw [removeWithin]
      refine bind_eq_ok_iff.mpr ⟨start.plan, start, rfl, ?_⟩
      simp only [clean]
      rfl

theorem removeWithin_succ_eq_ok_iff {start : Session} {id top : NodeId} {rest : Plan}
    (found : findRedundant? start.plan = some id)
    (removed : Plan.spliceOut id start.plan = .ok top rest) (fuel : Nat) :
    ∃ report, ∀ {value : Bool} {final : Session},
      removeWithin (fuel + 1) start = .ok value final ↔
        value = true ∧
          ∃ others, removeWithin fuel { start with report, plan := rest } = .ok others final := by
  obtain ⟨events, hreport⟩ := Planning.inquire_eq_ok
    (Inquiry.finds_reportAll (removalEvents start.plan id)) start
  have spliced : Planning.edit (Plan.spliceOut id)
      { start with report := start.report.noteAll events } = .ok top _ :=
    Planning.edit_eq_ok removed
  refine ⟨start.report.noteAll events, fun {value final} => ?_⟩
  rw [removeWithin, bind_eq_ok_iff]
  constructor
  · rintro ⟨_, _, hplan, h⟩
    obtain ⟨rfl, rfl⟩ := Planning.plan_eq_ok_iff.mp hplan
    simp only [found, bind_eq_ok_iff, pure_eq_ok_iff] at h
    obtain ⟨_, _, hreport', _, _, hsplice, others, _, hremove, rfl, rfl⟩ := h
    rw [hreport] at hreport'
    cases hreport'
    rw [spliced] at hsplice
    cases hsplice
    exact ⟨rfl, others, hremove⟩
  · rintro ⟨rfl, others, hremove⟩
    refine ⟨start.plan, start, rfl, ?_⟩
    simp only [found]
    exact bind_eq_ok_iff.mpr ⟨(), _, hreport, bind_eq_ok_iff.mpr ⟨top, _, spliced,
      bind_eq_ok_iff.mpr ⟨others, final, hremove, rfl⟩⟩⟩

theorem exists_removeWithin (fuel : Nat) {start : Session} {tree : PlanTree}
    (holds : start.plan.Holds tree) (shaped : tree.WellShaped) :
    ∃ removed final new, removeWithin fuel start = .ok removed final ∧
      final.nextValueSource = start.nextValueSource ∧ final.plan.Holds new ∧ new.WellShaped ∧
      ReflTransGen FilterMove tree new ∧
      FilterMove.Effect removed start.plan final.plan tree new := by
  induction fuel generalizing start tree with
  | zero => exact ⟨false, start, tree, rfl, rfl, holds, shaped, .refl, .unmoved _ _⟩
  | succ fuel ih =>
      cases hfound : findRedundant? start.plan with
      | none =>
          exact ⟨false, start, tree, removeWithin_of_clean hfound _, rfl, holds, shaped, .refl,
            .unmoved _ _⟩
      | some id =>
          obtain ⟨rest, top, new, hrest, hnew, hshaped, move, joins⟩ :=
            exists_drop holds shaped hfound
          obtain ⟨report, rounds⟩ := removeWithin_succ_eq_ok_iff hfound hrest fuel
          have spliced : ({ start with report, plan := rest } : Session).plan.Holds new := hnew
          obtain ⟨removed, final, last, hremove, hnumber, hlast, hlastShaped, moves, effect⟩ :=
            ih spliced hshaped
          have kept (other : NodeId) : final.plan.join? other = start.plan.join? other :=
            (effect.joins other).trans (joins other)
          exact ⟨true, final, last, rounds.mpr ⟨rfl, removed, hremove⟩, hnumber, hlast, hlastShaped,
            .head move moves, fun _ => .head' move moves, nofun, kept⟩

theorem findRedundant?_of_removeWithin {fuel : Nat} {start final : Session} {tree : PlanTree}
    {removed : Bool} (holds : start.plan.Holds tree) (shaped : tree.WellShaped)
    (enough : tree.ids.length ≤ fuel) (h : removeWithin fuel start = .ok removed final) :
    findRedundant? final.plan = none := by
  induction fuel generalizing start tree removed with
  | zero => exact absurd (List.length_pos_of_mem tree.id_mem_ids) (Nat.not_lt.mpr enough)
  | succ fuel ih =>
      cases hfound : findRedundant? start.plan with
      | none =>
          rw [removeWithin_of_clean hfound] at h
          cases h
          exact hfound
      | some id =>
          obtain ⟨rest, top, new, hrest, hnew, hshaped, move, -⟩ :=
            exists_drop holds shaped hfound
          obtain ⟨report, rounds⟩ := removeWithin_succ_eq_ok_iff hfound hrest fuel
          obtain ⟨-, others, hremove⟩ := rounds.mp h
          have shorter := move.length_lt
          exact ih (by exact hnew) hshaped (by omega) hremove

theorem findRedundant?_of_execute {context : PlanningContext} {start final : Session}
    {tree : PlanTree} {changed : Bool} (holds : start.plan.Holds tree) (shaped : tree.WellShaped)
    (h : execute context start = .ok changed final) : findRedundant? final.plan = none := by
  rw [execute, bind_eq_ok_iff] at h
  obtain ⟨_, _, hplan, h⟩ := h
  obtain ⟨rfl, rfl⟩ := Planning.plan_eq_ok_iff.mp hplan
  exact findRedundant?_of_removeWithin holds shaped (holds.keeps.length_ids_le_size holds.nodup) h

theorem exists_execute (context : PlanningContext) {start : Session} {tree : PlanTree}
    (holds : start.plan.Holds tree) (shaped : tree.WellShaped) :
    ∃ changed final new, execute context start = .ok changed final ∧
      final.nextValueSource = start.nextValueSource ∧ final.plan.Holds new ∧ new.WellShaped ∧
      ReflTransGen FilterMove tree new ∧
      FilterMove.Effect changed start.plan final.plan tree new :=
  exists_removeWithin start.plan.size holds shaped

theorem execute_transforms (context : PlanningContext) :
    (execute context).Transforms (ReflTransGen FilterMove) := by
  intro start final value tree holds shaped h
  obtain ⟨_, _, new, succeeds, -, hnew, hshaped, moves, -⟩ := exists_execute context holds shaped
  rw [succeeds] at h
  cases h
  exact ⟨new, hnew, hshaped, moves⟩

end CleanCriteria

/-! ## Pushing -/

def Federation.CheckFails (federation : Federation) (error : PlanError) : Prop :=
  ∃ criteria model, federation.validate (.criteria criteria) (some model) = .error error

namespace PushSelect

theorem join?_pushInto (plan : Plan) (access : NodeId) (criteria : Criteria) (id : NodeId) :
    (pushInto plan access criteria).join? id = plan.join? id := by
  unfold pushInto
  cases haccess : plan.access? access with
  | none => rfl
  | some payload =>
      simp only
      rw [Plan.join?, Plan.kind?, Plan.setKind, Plan.node?_modify]
      by_cases h : id = access
      · obtain ⟨kind, hkind, hpayload⟩ := Option.bind_eq_some_iff.mp haccess
        obtain ⟨node, hnode, rfl⟩ := Option.map_eq_some_iff.mp hkind
        rw [if_pos h, h, Plan.join?, Plan.kind?, hnode]
        cases hnodeKind : node.kind <;> rw [hnodeKind] at hpayload <;>
          simp [NodeKind.access?, NodeKind.join?, hnodeKind] at hpayload ⊢
      · rw [if_neg h, Plan.join?, Plan.kind?]

theorem exists_push {plan : Plan} {tree : PlanTree} {id source : NodeId} {select : SelectNode}
    (holds : plan.Holds tree) (shaped : tree.WellShaped) (member : id ∈ tree.ids)
    (hselect : plan.select? id = some select) (hsource : plan.accessBelow? id = some source) :
    ∃ rest top new, Plan.spliceOut id plan = .ok top rest ∧
      (pushInto rest source select.criteria).Holds new ∧ new.WellShaped ∧
      FilterMove tree new ∧ (∀ other ∈ tree.ids, other ≠ id → other ∈ new.ids) ∧
      ∀ other, (pushInto rest source select.criteria).join? other = plan.join? other := by
  obtain ⟨frames, below, rfl⟩ := holds.exists_filter shaped member hselect
  have hnode := PlanTree.mem_subtrees_within_self (.node id (.select select) [below]) frames
  have hbelow := (PlanTree.wellShaped_node.mp (shaped.of_mem hnode)).2 below List.mem_cons_self
  obtain ⟨filters, hfilters, passed⟩ := PlanTree.exists_filters hbelow
  rw [holds.accessBelow?_eq hnode] at hsource
  obtain ⟨access, haccess⟩ : ∃ access, below.beneath.kind.access? = some access := by
    cases h : below.beneath.kind.access? with
    | none => simp [h] at hsource
    | some access => exact ⟨access, rfl⟩
  have hid : below.beneath.id = source := by simpa [haccess] using hsource
  have hkind := PlanTree.kind_eq_access haccess
  have heta : below.beneath = .node source (.access access) below.beneath.children := by
    rw [← hid, ← hkind, PlanTree.eta]
  generalize below.beneath.children = children at heta
  rw [heta] at hfilters
  have hrest : (plan.spliced id below.id).Holds
      ((PlanTree.node source (.access access) children).within (filters ++ frames)) := by
    rw [PlanTree.within_append, ← hfilters]
    exact holds.spliced
  have hinside := PlanTree.mem_subtrees_within_self (.node source (.access access) children)
    (filters ++ frames)
  have hpush : pushInto (plan.spliced id below.id) source select.criteria =
      (plan.spliced id below.id).setKind source (.access (access.push select.criteria)) := by
    have hfound : (plan.spliced id below.id).access? source = some access :=
      hrest.access?_eq hinside
    simp only [pushInto, hfound]
  refine ⟨plan.spliced id below.id, below.id,
    ((PlanTree.node source (.access (access.push select.criteria)) children).within
      filters).within frames, holds.spliceOut, ?_, ?_, ?_, fun other hother hne => ?_,
    fun other => ?_⟩
  · rw [hpush, ← PlanTree.within_append]
    exact hrest.setKind _
  · have hbelow' := hbelow
    rw [hfilters] at hbelow'
    refine shaped.replace (hbelow'.replace ?_)
    have haccess := hbelow'.of_mem (PlanTree.mem_subtrees_within_self _ filters)
    rw [PlanTree.wellShaped_node] at haccess ⊢
    exact ⟨NodeKind.fits_access _ _, haccess.2⟩
  · rw [hfilters]
    exact .push frames id select passed source access children
  · rw [hfilters] at hother
    simp only [PlanTree.mem_ids_within, PlanTree.ids_node, List.flatMap_cons, List.flatMap_nil,
      List.append_nil, List.mem_cons] at hother ⊢
    tauto
  · rw [join?_pushInto, Plan.join?, Plan.kind?_spliced, Plan.join?]

/-- What pushing filters has made of a tree, however it ended. -/
structure Pushes (context : PlanningContext) (start : Session) (result : Except PlanError Bool)
    (final : Session) (tree new : PlanTree) : Prop where
  holds : final.plan.Holds new
  shaped : new.WellShaped
  moves : ReflTransGen FilterMove tree new
  number : final.nextValueSource = start.nextValueSource
  fails : ∀ error, result = .error error → context.federation.CheckFails error
  effect : ∀ moved, result = .ok moved → FilterMove.Effect moved start.plan final.plan tree new

namespace Pushes

variable {context : PlanningContext} {start middle final : Session}
  {result : Except PlanError Bool} {tree between new : PlanTree}

theorem of_plan_eq (holds : start.plan.Holds tree) (shaped : tree.WellShaped)
    (same : final.plan = start.plan) (number : final.nextValueSource = start.nextValueSource)
    (fails : ∀ error, result = .error error → context.federation.CheckFails error)
    (silent : ∀ moved, result = .ok moved → moved = false) :
    Pushes context start result final tree tree := by
  refine ⟨same ▸ holds, shaped, .refl, number, fails, fun moved h => ?_⟩
  rw [silent moved h, same]
  exact .unmoved _ _

theorem trans {moved : Bool} (first : Pushes context start (.ok moved) middle tree between)
    (second : Pushes context middle result final between new) :
    Pushes context start (result.map (moved || ·)) final tree new := by
  refine ⟨second.holds, second.shaped, first.moves.trans second.moves,
    second.number.trans first.number, fun error h => ?_, fun both h => ?_⟩
  · cases result with
    | error failure =>
        cases h
        exact second.fails _ rfl
    | ok others => cases h
  · cases result with
    | error failure => cases h
    | ok others =>
        cases h
        exact (first.effect moved rfl).trans (second.effect others rfl) first.moves second.moves

end Pushes

structure Offer (plan : Plan) (id source : NodeId) (select : SelectNode) (model : ModelId) :
    Prop where
  leads : plan.accessBelow? id = some source
  found : plan.select? id = some select
  owned : (plan.access? source).bind (·.model) = some model

/-- What may come of pushing one filter, and the plan that it leaves. -/
inductive Answer (federation : Federation) (plan : Plan) (id : NodeId) :
    Except PlanError Bool → Plan → Prop
  | skipped (nowhere : ∀ source select model, ¬ Offer plan id source select model) :
      Answer federation plan id (.ok false) plan
  | failed {source : NodeId} {select : SelectNode} {model : ModelId} {error : PlanError}
      (offer : Offer plan id source select model)
      (verdict : federation.validate (.criteria select.criteria) (some model) = .error error) :
      Answer federation plan id (.error error) plan
  | rejected {source : NodeId} {select : SelectNode} {model : ModelId} {cause : Rejection}
      (offer : Offer plan id source select model)
      (verdict : federation.validate (.criteria select.criteria) (some model) =
        .ok (.rejected cause)) :
      Answer federation plan id (.ok false) plan
  | stuck {source : NodeId} {select : SelectNode} {model : ModelId} {error : PlanError}
      {left : Plan} (offer : Offer plan id source select model)
      (splice : Plan.spliceOut id plan = .error error left) :
      Answer federation plan id (.error error) left
  | pushed {source top : NodeId} {select : SelectNode} {model : ModelId} {rest : Plan}
      (offer : Offer plan id source select model)
      (verdict : federation.validate (.criteria select.criteria) (some model) = .ok .accepted)
      (splice : Plan.spliceOut id plan = .ok top rest) :
      Answer federation plan id (.ok true) (pushInto rest source select.criteria)

theorem pushFilter_answers {context : PlanningContext} {id : NodeId} {start final : Session}
    {result : Except PlanError Bool} (h : (pushFilter context id).EndsWith start result final) :
    Answer context.federation start.plan id result final.plan ∧
      final.nextValueSource = start.nextValueSource := by
  rw [pushFilter] at h
  replace h := h.of_bind (show Planning.plan start = .ok start.plan start from rfl)
  rcases hsource : start.plan.accessBelow? id with _ | source
  · simp only [hsource, Planning.endsWith_pure_iff] at h
    obtain ⟨rfl, rfl⟩ := h
    exact ⟨.skipped fun _ _ _ offer => absurd (hsource.symm.trans offer.leads) (by simp), rfl⟩
  rcases hselect : start.plan.select? id with _ | select
  · simp only [hsource, hselect, Planning.endsWith_pure_iff] at h
    obtain ⟨rfl, rfl⟩ := h
    exact ⟨.skipped fun _ _ _ offer => absurd (hselect.symm.trans offer.found) (by simp), rfl⟩
  rcases hmodel : (start.plan.access? source).bind (·.model) with _ | model
  · simp only [hsource, hselect, hmodel, Planning.endsWith_pure_iff] at h
    obtain ⟨rfl, rfl⟩ := h
    refine ⟨.skipped fun other _ _ offer => ?_, rfl⟩
    obtain rfl : source = other := Option.some.inj (hsource.symm.trans offer.leads)
    exact absurd (hmodel.symm.trans offer.owned) (by simp)
  have offer : Offer start.plan id source select model := ⟨hsource, hselect, hmodel⟩
  simp only [hsource, hselect, hmodel] at h
  obtain ⟨events, ⟨error, failed, rfl, rfl⟩ | ⟨verdict, found, h⟩⟩ :=
    h.of_inquire_bind (Inquiry.finds_ofExcept _)
  · exact ⟨.failed offer failed, rfl⟩
  cases verdict with
  | rejected cause =>
      obtain ⟨events', ⟨_, ⟨⟩, -⟩ | ⟨_, -, h⟩⟩ := h.of_inquire_bind (Inquiry.finds_reportAll _)
      obtain ⟨rfl, rfl⟩ := Planning.endsWith_pure_iff.mp h
      exact ⟨.rejected offer found, rfl⟩
  | accepted =>
      obtain ⟨error, left, splice, rfl, rfl⟩ | ⟨top, rest, splice, h⟩ := h.of_edit_bind
      · exact ⟨.stuck offer splice, rfl⟩
      replace h := h.of_bind (show Planning.plan _ = .ok _ _ from rfl)
      replace h := h.of_bind (show Planning.setPlan _ _ = .ok () _ from rfl)
      obtain ⟨events', ⟨_, ⟨⟩, -⟩ | ⟨_, -, h⟩⟩ := h.of_inquire_bind (Inquiry.finds_report _)
      obtain ⟨rfl, rfl⟩ := Planning.endsWith_pure_iff.mp h
      exact ⟨.pushed offer found splice, rfl⟩

theorem pushFilter_pushes {context : PlanningContext} {id : NodeId} {start final : Session}
    {result : Except PlanError Bool} {tree : PlanTree} (holds : start.plan.Holds tree)
    (shaped : tree.WellShaped) (member : id ∈ tree.ids)
    (h : (pushFilter context id).EndsWith start result final) :
    ∃ new, Pushes context start result final tree new ∧
      ∀ other ∈ tree.ids, other ≠ id → other ∈ new.ids := by
  have unmoved (same : final.plan = start.plan)
      (number : final.nextValueSource = start.nextValueSource)
      (fails : ∀ error, result = .error error → context.federation.CheckFails error)
      (silent : ∀ moved, result = .ok moved → moved = false) :
      ∃ new, Pushes context start result final tree new ∧
        ∀ other ∈ tree.ids, other ≠ id → other ∈ new.ids :=
    ⟨tree, .of_plan_eq holds shaped same number fails silent, fun _ h _ => h⟩
  obtain ⟨answer, number⟩ := pushFilter_answers h
  generalize hleft : final.plan = left at answer
  cases answer with
  | skipped => exact unmoved hleft number (by simp) (by simp)
  | rejected => exact unmoved hleft number (by simp) (by simp)
  | failed offer verdict =>
      refine unmoved hleft number ?_ (by simp)
      rintro _ ⟨⟩
      exact ⟨_, _, verdict⟩
  | stuck offer splice =>
      obtain ⟨rest, top, _, succeeds, -⟩ := exists_push holds shaped member offer.found offer.leads
      rw [succeeds] at splice
      cases splice
  | pushed offer verdict splice =>
      obtain ⟨rest, top, new, succeeds, hnew, hshaped, move, others, joins⟩ :=
        exists_push holds shaped member offer.found offer.leads
      rw [succeeds] at splice
      cases splice
      refine ⟨new, ⟨hleft ▸ hnew, hshaped, .single move, number, by simp, ?_⟩, others⟩
      rintro _ ⟨⟩
      exact ⟨fun _ => .single move, by simp, hleft ▸ joins⟩

/-- A filter that waits to be pushed is still in the tree, whatever moved before it. -/
theorem pushFilters_pushes (context : PlanningContext) {waiting : List NodeId}
    {start final : Session} {result : Except PlanError Bool} {tree : PlanTree}
    (holds : start.plan.Holds tree) (shaped : tree.WellShaped) (nodup : waiting.Nodup)
    (inside : waiting ⊆ tree.ids)
    (h : (pushFilters context waiting).EndsWith start result final) :
    ∃ new, Pushes context start result final tree new := by
  induction waiting generalizing start result tree with
  | nil =>
      obtain ⟨rfl, rfl⟩ := Planning.endsWith_pure_iff.mp h
      exact ⟨tree, .of_plan_eq holds shaped rfl rfl (by simp) (by simp)⟩
  | cons id rest ih =>
      rw [List.nodup_cons] at nodup
      rw [List.cons_subset] at inside
      rcases Planning.endsWith_bind_iff.mp h with ⟨error, rfl, hfirst⟩ | ⟨moved, middle, hfirst, h⟩
      · obtain ⟨new, pushes, -⟩ := pushFilter_pushes holds shaped inside.1 hfirst
        exact ⟨new, pushes⟩
      · obtain ⟨new, pushes, stays⟩ := pushFilter_pushes holds shaped inside.1
          (show Planning.EndsWith _ _ (.ok moved) _ from hfirst)
        -- No filter waits twice, so the one that moved is not among the rest.
        have inside' : rest ⊆ new.ids := fun other hother =>
          stays other (inside.2 hother) fun same => nodup.1 (same ▸ hother)
        rcases Planning.endsWith_bind_iff.mp h with ⟨error, rfl, hrest⟩ | ⟨others, last, hrest, h⟩
        · obtain ⟨last, pushes'⟩ := ih pushes.holds pushes.shaped nodup.2 inside' hrest
          exact ⟨last, pushes.trans pushes'⟩
        · obtain ⟨rfl, rfl⟩ := Planning.endsWith_pure_iff.mp h
          obtain ⟨last, pushes'⟩ := ih pushes.holds pushes.shaped nodup.2 inside'
            (show Planning.EndsWith _ _ (.ok others) _ from hrest)
          exact ⟨last, pushes.trans pushes'⟩

theorem filters_nodup {plan : Plan} {tree : PlanTree} (holds : plan.Holds tree) :
    (filters plan).Nodup := by
  rw [filters, List.nodup_reverse, holds.findAll_root_eq]
  refine (List.Nodup.sublist ?_ holds.nodup)
  refine List.Sublist.map _ (List.filter_sublist.trans ?_)
  simp [PlanTree.subtrees]

theorem execute_pushes (context : PlanningContext) {start final : Session}
    {result : Except PlanError Bool} {tree : PlanTree} (holds : start.plan.Holds tree)
    (shaped : tree.WellShaped) (h : (execute context).EndsWith start result final) :
    ∃ new, Pushes context start result final tree new := by
  refine pushFilters_pushes context holds shaped (filters_nodup holds) (fun id member => ?_)
    (h.of_bind (show Planning.plan start = .ok start.plan start from rfl))
  exact holds.findAll_subset_ids _ _ (List.mem_reverse.mp member)

theorem execute_transforms (context : PlanningContext) :
    (execute context).Transforms (ReflTransGen FilterMove) := by
  intro start final value tree holds shaped h
  obtain ⟨new, pushes⟩ :=
    execute_pushes context holds shaped (show Planning.EndsWith _ _ (.ok value) _ from h)
  exact ⟨new, pushes.holds, pushes.shaped, pushes.moves⟩

end PushSelect

end FederatedQuery
