import FederatedQuery.Planning.Optimizer
import FederatedQuery.Proofs.Planning.FilterMoves
import FederatedQuery.Proofs.Planning.Settling

/-!
# Planning as a sequence of moves

Whatever is planned, and however it ends, a plan changes by two kinds of moves only:
filters move, and joins are settled.  So what every move keeps is kept by every rule
and by every run, also by one that ends with an error.
-/

namespace FederatedQuery

open Relation

/-- A change of a tree, given with the number of the next value source. -/
inductive PlanningMove : PlanTree × Nat → PlanTree × Nat → Prop
  | filter {tree new : PlanTree} {number : Nat} (move : FilterMove tree new) :
      PlanningMove (tree, number) (new, number)
  | settle {tree : PlanTree} {outcomes : NodeId → Outcome} {first last : Nat}
      (nodup : tree.ids.Nodup) (shaped : tree.WellShaped) (sound : tree.Sound outcomes first last)
      (started : first ≤ last) : PlanningMove (tree, first) (tree.rebuild outcomes, last)

theorem PlanningMove.of_filters {tree new : PlanTree} (moves : ReflTransGen FilterMove tree new)
    (number : Nat) : ReflTransGen PlanningMove (tree, number) (new, number) :=
  moves.lift (·, number) fun _ _ => .filter

namespace Planning

variable {α β : Type} {blames : Plan → PlanError → Prop}

/-- The step changes the plan by moves, and for an error the plan that it leaves is to blame. -/
def Moves (step : Planning α) (blames : Plan → PlanError → Prop) : Prop :=
  ∀ ⦃start final : Session⦄ ⦃result : Except PlanError α⦄ ⦃tree : PlanTree⦄,
    start.plan.Holds tree → tree.WellShaped → step.EndsWith start result final →
      ∃ new, final.plan.Holds new ∧ new.WellShaped ∧
        ReflTransGen PlanningMove (tree, start.nextValueSource) (new, final.nextValueSource) ∧
        ∀ error, result = .error error → blames final.plan error

theorem Moves.bind {first : Planning β} {next : β → Planning α} (moves : first.Moves blames)
    (rest : ∀ value, (next value).Moves blames) : Moves (first >>= next) blames := by
  intro start final result tree holds shaped h
  rcases endsWith_bind_iff.mp h with ⟨error, rfl, failed⟩ | ⟨value, middle, succeeded, h⟩
  · obtain ⟨new, hnew, hshaped, changes, blamed⟩ := moves holds shaped failed
    refine ⟨new, hnew, hshaped, changes, ?_⟩
    rintro _ ⟨⟩
    exact blamed error rfl
  · obtain ⟨new, hnew, hshaped, changes, -⟩ :=
      moves holds shaped (show EndsWith _ _ (.ok value) _ from succeeded)
    obtain ⟨last, hlast, hlastShaped, changes', blamed⟩ := rest value hnew hshaped h
    exact ⟨last, hlast, hlastShaped, changes.trans changes', blamed⟩

theorem Moves.mono {step : Planning α} {blames' : Plan → PlanError → Prop}
    (moves : step.Moves blames) (weaker : ∀ plan error, blames plan error → blames' plan error) :
    step.Moves blames' := by
  intro start final result tree holds shaped h
  obtain ⟨new, hnew, hshaped, changes, blamed⟩ := moves holds shaped h
  exact ⟨new, hnew, hshaped, changes, fun error failed => weaker _ _ (blamed error failed)⟩

theorem Moves.of_still {step : Planning α}
    (still : ∀ start, ∃ value final, step start = .ok value final ∧ final.plan = start.plan ∧
      final.nextValueSource = start.nextValueSource) : step.Moves blames := by
  intro start final result tree holds shaped h
  obtain ⟨value, _, succeeds, hplan, hnumber⟩ := still start
  cases result with
  | error error =>
      rw [EndsWith, succeeds] at h
      cases h
  | ok other =>
      rw [EndsWith, succeeds] at h
      cases h
      rw [hplan, hnumber]
      exact ⟨tree, holds, shaped, .refl, by simp⟩

theorem moves_pure (value : α) : Moves (pure value) blames :=
  Moves.of_still fun start => ⟨value, start, rfl, rfl, rfl⟩

theorem moves_get : Moves (get : Planning Session) blames :=
  Moves.of_still fun start => ⟨start, start, rfl, rfl, rfl⟩

theorem moves_plan : Planning.plan.Moves blames :=
  Moves.of_still fun start => ⟨start.plan, start, rfl, rfl, rfl⟩

theorem moves_setPending (pending : RuleStack) : (setPending pending).Moves blames :=
  Moves.of_still fun start => ⟨(), { start with pending := pending }, rfl, rfl, rfl⟩

theorem moves_finish (execution : Execution) : (finish execution).Moves blames :=
  Moves.of_still fun start =>
    ⟨(), { start with executions := start.executions ++ [execution] }, rfl, rfl, rfl⟩

theorem moves_report (event : Event) : (inquire (Inquiry.report event)).Moves blames :=
  Moves.of_still fun start =>
    ⟨(), { start with report := start.report.note event }, rfl, rfl, rfl⟩

theorem moves_keepEntry (entry : TraceEntry) : (keepEntry entry).Moves blames :=
  Moves.of_still fun start =>
    ⟨(), { start with trace := start.trace ++ [entry] }, rfl, rfl, rfl⟩

end Planning

/-! ## The rules -/

theorem CleanCriteria.execute_moves (context : PlanningContext)
    (blames : Plan → PlanError → Prop) : (execute context).Moves blames := by
  intro start final result tree holds shaped h
  obtain ⟨changed, _, new, succeeds, hnumber, hnew, hshaped, moves, -⟩ :=
    exists_execute context holds shaped
  cases result with
  | error error =>
      rw [Planning.EndsWith, succeeds] at h
      cases h
  | ok other =>
      rw [Planning.EndsWith, succeeds] at h
      cases h
      rw [hnumber]
      exact ⟨new, hnew, hshaped, PlanningMove.of_filters moves _, by simp⟩

theorem PushSelect.execute_moves (context : PlanningContext) :
    (execute context).Moves fun _ error => context.federation.CheckFails error := by
  intro start final result tree holds shaped h
  obtain ⟨new, pushes⟩ := execute_pushes context holds shaped h
  rw [pushes.number]
  exact ⟨new, pushes.holds, pushes.shaped, PlanningMove.of_filters pushes.moves _, pushes.fails⟩

theorem ChooseDependent.execute_moves (context : PlanningContext) :
    (execute context).Moves (Undecided context) := by
  intro start final result tree holds shaped h
  cases result with
  | error error =>
      obtain ⟨outcomes, hfinal, sound, started, undecided⟩ := execute_error holds shaped h
      refine ⟨_, hfinal, shaped.rebuild, .single (.settle holds.nodup shaped sound started), ?_⟩
      rintro _ ⟨⟩
      exact undecided
  | ok changed =>
      obtain ⟨outcomes, hfinal, sound, started, -⟩ := execute_rebuilds holds shaped h
      exact ⟨_, hfinal, shaped.rebuild, .single (.settle holds.nodup shaped sound started), by simp⟩

namespace Optimizer

def Bundled (optimizer : Optimizer) : Prop :=
  ∀ name rule, optimizer.rules name = some rule →
    rule = chooseDependent ∨ rule = cleanCriteria ∨ rule = pushSelectCriteria

theorem bundled_standard (config : Config) : (standard config).Bundled := by
  intro name rule h
  cases name <;> cases h <;> simp

/-- What an error of a run may go back to: a rule that is missing, or a step of a rule. -/
inductive Blames (optimizer : Optimizer) (context : PlanningContext) (plan : Plan) :
    PlanError → Prop
  | unregistered {name : RuleName} (missing : optimizer.rules name = none) :
      Blames optimizer context plan (.internal s!"no rule registered for {name.text}")
  | unchecked {error : PlanError} (fails : context.federation.CheckFails error) :
      Blames optimizer context plan error
  | undecided {error : PlanError} (undecided : ChooseDependent.Undecided context plan error) :
      Blames optimizer context plan error

variable {optimizer : Optimizer}

theorem Bundled.execute_moves (bundled : optimizer.Bundled) {name : RuleName} {rule : Rule}
    (found : optimizer.rules name = some rule) (context : PlanningContext) :
    (rule.execute context).Moves (optimizer.Blames context) := by
  rcases bundled name rule found with rfl | rfl | rfl
  · exact (ChooseDependent.execute_moves context).mono fun _ _ => .undecided
  · exact CleanCriteria.execute_moves context _
  · exact (PushSelect.execute_moves context).mono fun _ _ => .unchecked

theorem Bundled.runRule_moves (bundled : optimizer.Bundled) (context : PlanningContext)
    (name : RuleName) : (optimizer.runRule context name).Moves (optimizer.Blames context) := by
  rw [runRule]
  cases found : optimizer.rules name with
  | none =>
      intro start final result tree holds shaped h
      cases result with
      | ok value => cases h
      | error error =>
          cases h
          refine ⟨tree, holds, shaped, .refl, ?_⟩
          rintro _ ⟨⟩
          exact .unregistered found
  | some rule =>
      refine Planning.moves_plan.bind fun before => ?_
      refine (bundled.execute_moves found context).bind fun changed => ?_
      refine Planning.moves_plan.bind fun after => ?_
      refine (Planning.moves_finish _).bind fun _ => ?_
      cases changed with
      | false => exact Planning.moves_pure _
      | true =>
          refine Planning.moves_get.bind fun _ => (Planning.moves_report _).bind fun _ => ?_
          split
          · exact Planning.moves_keepEntry _
          · exact Planning.moves_pure _

/-- Every run changes the plan by moves, and each of its errors is one of a rule. -/
theorem Bundled.runWithin_moves (bundled : optimizer.Bundled) (context : PlanningContext)
    (budget : Nat) : (optimizer.runWithin context budget).Moves (optimizer.Blames context) := by
  induction budget with
  | zero =>
      refine Planning.moves_get.bind fun session => ?_
      simp only
      split
      · exact Planning.moves_report _
      · exact Planning.moves_pure _
  | succ budget ih =>
      refine Planning.moves_get.bind fun session => ?_
      split
      · exact Planning.moves_pure _
      · exact (Planning.moves_setPending _).bind fun _ =>
          (bundled.runRule_moves context _).bind fun _ => ih

theorem run_eq_ok {federation : Federation} {oracle : CostOracle} {start final : Session}
    {result : OptimizedPlan} (h : optimizer.run federation oracle start = .ok result final) :
    optimizer.runWithin (optimizer.context federation oracle)
        optimizer.config.optimizer.maxRuleExecutions.toNat
        (start.opened optimizer.config.optimizer.recordDebug) = .ok () final ∧
      result = .ofSession final := by
  simp only [run, bind_eq_ok_iff, Planning.openRecords_eq_ok_iff, get_eq_ok_iff,
    pure_eq_ok_iff] at h
  obtain ⟨_, _, rfl, _, _, hrun, _, _, ⟨rfl, rfl⟩, rfl, rfl⟩ := h
  exact ⟨hrun, rfl⟩

theorem run_eq_error {federation : Federation} {oracle : CostOracle} {start final : Session}
    {error : PlanError} (h : optimizer.run federation oracle start = .error error final) :
    optimizer.runWithin (optimizer.context federation oracle)
      optimizer.config.optimizer.maxRuleExecutions.toNat
      (start.opened optimizer.config.optimizer.recordDebug) = .error error final := by
  have ends : (optimizer.run federation oracle).EndsWith start (.error error) final := h
  have opened : Planning.openRecords optimizer.config.optimizer.recordDebug start =
    .ok () (start.opened optimizer.config.optimizer.recordDebug) := rfl
  rcases Planning.endsWith_bind_iff.mp (ends.of_bind opened) with
    ⟨_, ⟨⟩, failed⟩ | ⟨_, _, -, ⟨⟩⟩
  exact failed

theorem Bundled.run_moves (bundled : optimizer.Bundled) {federation : Federation}
    {oracle : CostOracle} {start final : Session} {result : OptimizedPlan} {tree : PlanTree}
    (holds : start.plan.Holds tree) (shaped : tree.WellShaped)
    (h : optimizer.run federation oracle start = .ok result final) :
    ∃ new, result.plan.Holds new ∧ new.WellShaped ∧
      ReflTransGen PlanningMove (tree, start.nextValueSource) (new, final.nextValueSource) := by
  obtain ⟨hrun, rfl⟩ := run_eq_ok h
  have opened : (start.opened optimizer.config.optimizer.recordDebug).plan.Holds tree := holds
  obtain ⟨new, hnew, hshaped, moves, -⟩ := bundled.runWithin_moves _ _ opened shaped
    (show Planning.EndsWith _ _ (.ok _) _ from hrun)
  exact ⟨new, hnew, hshaped, moves⟩

end Optimizer

end FederatedQuery
