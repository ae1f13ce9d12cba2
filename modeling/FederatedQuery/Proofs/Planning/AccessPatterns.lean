import FederatedQuery.Proofs.Planning.ShapeKept

/-!
# Access patterns through runs of the optimizer

Only pushing a filter touches what an access has to have constrained, and each push
drops the patterns that all pushed criteria together satisfy.  More criteria satisfy
more, so what is left after any number of pushes is what the last of them leaves.
-/

namespace FederatedQuery

open Relation

/-- Some element of the pattern occurs in none of the criteria. -/
def AccessPattern.IsOpen (pattern : AccessPattern) (criteria : List Criteria) : Prop :=
  ∃ element ∈ pattern.elements, ∀ each ∈ criteria, element ∉ each.elements

instance (pattern : AccessPattern) (criteria : List Criteria) :
    Decidable (pattern.IsOpen criteria) :=
  inferInstanceAs (Decidable (∃ _ ∈ _, _))

theorem AccessPattern.isOpen_iff {pattern : AccessPattern} {criteria : List Criteria} :
    pattern.IsOpen criteria ↔
      (!pattern.isSatisfiedBy (criteria.flatMap Criteria.elements)) = true := by
  simp only [IsOpen, isSatisfiedBy, Bool.not_eq_true', List.all_eq_false, List.contains_eq_mem,
    decide_eq_true_eq, List.mem_flatMap, not_exists, not_and]

theorem AccessPattern.IsOpen.of_append {pattern : AccessPattern} {first second : List Criteria}
    (h : pattern.IsOpen (first ++ second)) : pattern.IsOpen first := by
  obtain ⟨element, member, absent⟩ := h
  exact ⟨element, member, fun each hmem => absent each (List.mem_append_left _ hmem)⟩

namespace AccessNode

def pushAll (access : AccessNode) (criteria : List Criteria) : AccessNode :=
  criteria.foldl push access

variable (access : AccessNode)

@[simp] theorem pushAll_nil : access.pushAll [] = access := rfl

theorem pushAll_append (first second : List Criteria) :
    access.pushAll (first ++ second) = (access.pushAll first).pushAll second :=
  List.foldl_append

theorem pushAll_concat (criteria : List Criteria) (last : Criteria) :
    access.pushAll (criteria ++ [last]) = (access.pushAll criteria).push last :=
  access.pushAll_append criteria [last]

@[simp] theorem pushedCriteria_pushAll (criteria : List Criteria) :
    (access.pushAll criteria).pushedCriteria = access.pushedCriteria ++ criteria := by
  induction criteria generalizing access with
  | nil => exact (List.append_nil _).symm
  | cons first rest ih => exact (ih (access.push first)).trans (List.append_assoc _ [first] rest)

theorem patterns_push (criteria : Criteria) :
    (access.push criteria).patterns =
      access.patterns.filter (·.IsOpen (access.pushedCriteria ++ [criteria])) := by
  simp only [push, AccessPattern.isOpen_iff, Bool.decide_eq_true]

/-- Filtering at every push comes to filtering once, after the last one. -/
theorem patterns_pushAll {criteria : List Criteria} (some : criteria ≠ []) :
    (access.pushAll criteria).patterns =
      access.patterns.filter (·.IsOpen (access.pushedCriteria ++ criteria)) := by
  induction criteria using List.reverseRecOn with
  | nil => exact absurd rfl some
  | append_singleton criteria last ih =>
      rw [pushAll_concat, patterns_push, pushedCriteria_pushAll, List.append_assoc]
      rcases eq_or_ne criteria [] with rfl | more
      · rfl
      · rw [ih more, List.filter_filter]
        refine List.filter_congr fun pattern _ => Bool.and_eq_left_iff_imp.mpr fun open' => ?_
        rw [decide_eq_true_eq, ← List.append_assoc] at open'
        exact decide_eq_true open'.of_append

end AccessNode

namespace PlanTree

/-- Accesses stay where they are, none is new, and nothing happens to them but pushes. -/
structure Serves (old new : PlanTree) : Prop where
  pushed : ∀ {sub access}, sub ∈ old.subtrees → sub.kind = .access access →
    ∃ after ∈ new.subtrees, after.id = sub.id ∧
      ∃ criteria, after.kind = .access (access.pushAll criteria)
  origin : ∀ {after access}, after ∈ new.subtrees → after.kind = .access access →
    ∃ sub ∈ old.subtrees, sub.id = after.id ∧ ∃ before, sub.kind = .access before

theorem Serves.refl (tree : PlanTree) : tree.Serves tree :=
  ⟨fun member kind => ⟨_, member, rfl, [], kind⟩, fun member kind => ⟨_, member, rfl, _, kind⟩⟩

theorem Serves.trans {old middle new : PlanTree} (first : old.Serves middle)
    (second : middle.Serves new) : old.Serves new := by
  constructor
  · intro sub access member kind
    obtain ⟨between, hbetween, hid, criteria, hkind⟩ := first.pushed member kind
    obtain ⟨after, hafter, hid', criteria', hkind'⟩ := second.pushed hbetween hkind
    refine ⟨after, hafter, hid'.trans hid, criteria ++ criteria', ?_⟩
    rw [hkind', AccessNode.pushAll_append]
  · intro after access member kind
    obtain ⟨between, hbetween, hid, _, hkind⟩ := second.origin member kind
    obtain ⟨sub, hsub, hid', before, hkind'⟩ := first.origin hbetween hkind
    exact ⟨sub, hsub, hid'.trans hid, before, hkind'⟩

theorem Thinned.serves {tree new : PlanTree} (h : tree.Thinned new) : tree.Serves new := by
  constructor
  · intro sub access member kind
    obtain ⟨after, hafter, thinned, hid⟩ := h.exists_of_mem member (by rw [kind]; rfl)
    refine ⟨after, hafter, hid, ?_⟩
    cases thinned with
    | drop => cases kind
    | node id kind' => exact ⟨[], kind⟩
    | push id payload children criteria =>
        cases kind
        exact ⟨[criteria], rfl⟩
  · intro after access member kind
    obtain ⟨sub, hsub, thinned, standing⟩ := h.exists_origin member (by rw [kind]; rfl)
    refine ⟨sub, hsub, (thinned.id_eq standing).symm, ?_⟩
    cases thinned with
    | drop => cases standing
    | node id kind' => exact ⟨_, kind⟩
    | push id payload children criteria => exact ⟨payload, rfl⟩

theorem serves_rebuild (outcomes : NodeId → Outcome) (tree : PlanTree) :
    tree.Serves (tree.rebuild outcomes) := by
  have access {sub : PlanTree} : (sub.rebuild outcomes).kind.access? = sub.kind.access? :=
    access?_rebuild sub
  constructor
  · intro sub payload member kind
    refine ⟨_, rebuild_mem_subtrees member, id_rebuild sub, [], kind_eq_access ?_⟩
    rw [access, kind]
    rfl
  · intro after payload member kind
    obtain ⟨sub, hsub, rfl⟩ := exists_of_mem_rebuild member (by rw [kind]; rfl)
    refine ⟨sub, hsub, (id_rebuild sub).symm, payload, kind_eq_access ?_⟩
    rw [← access, kind]
    rfl

theorem serves_of_planningMove {tree new : PlanTree × Nat} (move : PlanningMove tree new) :
    tree.1.Serves new.1 := by
  cases move with
  | filter move => exact (thinned_of_move move).serves
  | settle => exact serves_rebuild _ _

theorem serves_of_moves {tree new : PlanTree × Nat} (moves : ReflTransGen PlanningMove tree new) :
    tree.1.Serves new.1 := by
  induction moves with
  | refl => exact .refl tree.1
  | tail _ move ih => exact ih.trans (serves_of_planningMove move)

end PlanTree

/-- What becomes of the accesses of a plan and of their patterns. -/
structure Plan.Discharges (old new : Plan) : Prop where
  pushed : ∀ {id access}, old.Reached id → old.access? id = some access →
    ∃ after, new.Reached id ∧ new.access? id = some after ∧
      access.pushedCriteria <+: after.pushedCriteria ∧
      (after.pushedCriteria = access.pushedCriteria → after.patterns = access.patterns) ∧
      (after.pushedCriteria ≠ access.pushedCriteria →
        after.patterns = access.patterns.filter (·.IsOpen after.pushedCriteria))
  origin : ∀ {id after}, new.Reached id → new.access? id = some after →
    ∃ access, old.Reached id ∧ old.access? id = some access

theorem Plan.Holds.exists_access {plan : Plan} {tree : PlanTree} {id : NodeId} {access : AccessNode}
    (holds : plan.Holds tree) (reached : plan.Reached id) (found : plan.access? id = some access) :
    ∃ sub ∈ tree.subtrees, sub.id = id ∧ sub.kind = .access access := by
  obtain ⟨sub, member, rfl⟩ := List.mem_map.mp (holds.mem_ids_of_reached reached)
  exact ⟨sub, member, rfl, PlanTree.kind_eq_access ((holds.access?_eq member).symm.trans found)⟩

theorem Plan.Holds.discharges {old new : Plan} {tree after : PlanTree} (hold : old.Holds tree)
    (hnew : new.Holds after) (serves : tree.Serves after) : old.Discharges new := by
  constructor
  · intro id access reached found
    obtain ⟨sub, member, rfl, kind⟩ := hold.exists_access reached found
    obtain ⟨last, hlast, hid, criteria, hkind⟩ := serves.pushed member kind
    refine ⟨access.pushAll criteria, hid ▸ hnew.reached hlast, ?_, ?_, fun same => ?_,
      fun grown => ?_⟩
    · rw [← hid, hnew.access?_eq hlast, hkind]
      rfl
    · rw [AccessNode.pushedCriteria_pushAll]
      exact List.prefix_append _ _
    · rw [AccessNode.pushedCriteria_pushAll, List.append_right_eq_self] at same
      rw [same, AccessNode.pushAll_nil]
    · rw [AccessNode.patterns_pushAll, AccessNode.pushedCriteria_pushAll]
      rintro rfl
      exact grown rfl
  · intro id last reached found
    obtain ⟨sub, member, rfl, kind⟩ := hnew.exists_access reached found
    obtain ⟨origin, horigin, hid, access, hkind⟩ := serves.origin member kind
    refine ⟨access, hid ▸ hold.reached horigin, ?_⟩
    rw [← hid, hold.access?_eq horigin, hkind]
    rfl

namespace Optimizer

variable {optimizer : Optimizer}

/-- A run leaves of the patterns of an access exactly those that its pushed criteria leave open,
if any were pushed, and no execution of a rule does anything else to them. -/
theorem run_discharges (bundled : optimizer.Bundled) {start : Session}
    (accepted : start.plan.Accepted) :
    (∀ federation oracle result final, optimizer.run federation oracle start = .ok result final →
      start.plan.Discharges result.plan) ∧
    ∀ name rule context result final, optimizer.rules name = some rule →
      (rule.execute context).EndsWith start result final → start.plan.Discharges final.plan := by
  obtain ⟨holds, shaped⟩ := accepted.holds
  constructor
  · intro federation oracle result final h
    obtain ⟨new, hnew, -, moves⟩ := bundled.run_moves holds shaped h
    exact holds.discharges hnew (PlanTree.serves_of_moves moves)
  · intro name rule context result final found h
    obtain ⟨new, hnew, -, moves, -⟩ := bundled.execute_moves found context holds shaped h
    exact holds.discharges hnew (PlanTree.serves_of_moves moves)

def patternedAccess : Plan :=
  let element (name : String) : ElementSymbol := ⟨.named "pm1.g1", name, .int64⟩
  let patterns : List AccessPattern :=
    [⟨[element "e1"]⟩, ⟨[element "e2"]⟩, ⟨[element "e1", element "e2"]⟩]
  ⟨[⟨.select ⟨.eq (.column (element "e1")) (.literal (.int64 1)), false⟩, none, [1]⟩,
    ⟨.access { group := .named "pm1.g1", model := some ⟨"pm1"⟩, patterns }, some 0, []⟩], 0⟩

theorem patternedAccess_discharges :
    ∃ result final, (standard {}).run PlanningContext.permissive.federation
        PlanningContext.permissive.oracle
        (.start patternedAccess (.push .empty .pushSelectCriteria) 0) = .ok result final ∧
      (result.plan.access? 1).map (·.patterns.map (·.elements.map (·.name))) =
        some [["e2"], ["e1", "e2"]] ∧
      patternedAccess.Discharges result.plan := by
  obtain ⟨result, final, h, hpatterns⟩ := Planning.exists_of_succeeds (show Planning.succeeds
    ((standard {}).run PlanningContext.permissive.federation PlanningContext.permissive.oracle)
    (.start patternedAccess (.push .empty .pushSelectCriteria) 0) (fun result _ =>
      (result.plan.access? 1).map (·.patterns.map (·.elements.map (·.name))) ==
        some [["e2"], ["e1", "e2"]]) = true by decide +kernel)
  have accepted :
      (Session.start patternedAccess (.push .empty .pushSelectCriteria) 0).plan.Accepted :=
    .of_links (by decide) (by decide) (by decide)
  exact ⟨result, final, h, beq_iff_eq.mp hpatterns,
    (run_discharges (bundled_standard {}) accepted).1 _ _ _ _ h⟩

end Optimizer

end FederatedQuery
