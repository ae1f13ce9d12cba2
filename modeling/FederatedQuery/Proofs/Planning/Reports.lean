import FederatedQuery.Proofs.Planning.Conversions
import FederatedQuery.Proofs.Planning.OptimizerRuns

/-!
# What rules report

A rule says that it changed the plan exactly if something but recorded costs is
different afterwards, anywhere in the arena.  Follow-ups, counts and traces rest on
what the rules say.
-/

namespace FederatedQuery

open Relation

theorem FilterMove.length_lt_of_moves {tree new : PlanTree} (moves : TransGen FilterMove tree new) :
    new.ids.length < tree.ids.length := by
  induction moves with
  | single move => exact move.length_lt
  | tail _ move ih => exact move.length_lt.trans ih

theorem FilterMove.Effect.unpriced_eq_iff {moved : Bool} {start final : Plan}
    {tree new : PlanTree} (effect : Effect moved start final tree new)
    (holds : start.Holds tree) (holds' : final.Holds new) :
    moved = false ↔ final.unpriced = start.unpriced := by
  constructor
  · intro unmoved
    rw [effect.still unmoved]
  · intro same
    by_contra moves
    have shorter := length_lt_of_moves (effect.moves (Bool.eq_true_of_not_eq_false moves))
    rw [← new.ids_unpriced, holds.unpriced_eq holds' same, tree.ids_unpriced] at shorter
    exact Nat.lt_irrefl _ shorter

namespace Rule

variable {context : PlanningContext} {start final : Session} {changed : Bool} {tree : PlanTree}

theorem exists_effect {rule : Rule} (filters : rule = cleanCriteria ∨ rule = pushSelectCriteria)
    (holds : start.plan.Holds tree) (shaped : tree.WellShaped)
    (h : rule.execute context start = .ok changed final) :
    ∃ new, final.plan.Holds new ∧ FilterMove.Effect changed start.plan final.plan tree new := by
  rcases filters with rfl | rfl
  · obtain ⟨_, _, new, succeeds, -, hnew, -, -, effect⟩ :=
      CleanCriteria.exists_execute context holds shaped
    cases succeeds.symm.trans h
    exact ⟨new, hnew, effect⟩
  · obtain ⟨new, pushes⟩ := PushSelect.execute_pushes context holds shaped
      (show Planning.EndsWith _ _ (.ok changed) _ from h)
    exact ⟨new, pushes.holds, pushes.effect changed rfl⟩

theorem reports {rule : Rule}
    (bundled : rule = chooseDependent ∨ rule = cleanCriteria ∨ rule = pushSelectCriteria)
    (holds : start.plan.Holds tree) (shaped : tree.WellShaped)
    (h : rule.execute context start = .ok changed final) :
    changed = false ↔ final.plan.unpriced = start.plan.unpriced := by
  rcases bundled with rfl | filters
  · exact (ChooseDependent.execute_converts holds shaped h).unpriced_eq_iff
  · obtain ⟨new, hnew, effect⟩ := exists_effect filters holds shaped h
    exact effect.unpriced_eq_iff holds hnew

/-- The flag of a rule is exact.  That of the rule for dependent joins tells whether joins
were converted, and then nothing but these joins, their inputs and new filters is affected. -/
theorem reports_exactly {rule : Rule}
    (bundled : rule = chooseDependent ∨ rule = cleanCriteria ∨ rule = pushSelectCriteria)
    (accepted : start.plan.Accepted) (h : rule.execute context start = .ok changed final) :
    (changed = false ↔ final.plan.unpriced = start.plan.unpriced) ∧
      (rule = chooseDependent →
        (changed = true ↔ ∃ id, start.plan.ConvertedAt final.plan id) ∧
          start.plan.Converts final.plan) := by
  obtain ⟨holds, shaped⟩ := accepted.holds
  refine ⟨reports bundled holds shaped h, ?_⟩
  rintro rfl
  have converts := ChooseDependent.execute_converts holds shaped h
  exact ⟨converts.exact_iff, converts.converts⟩

theorem hintedJoin_reported : ∃ final,
    chooseDependent.execute .permissive (.start Optimizer.hintedJoin .empty 0) = .ok true final ∧
      final.plan.unpriced ≠ Optimizer.hintedJoin.unpriced ∧
      (∃ id, Optimizer.hintedJoin.ConvertedAt final.plan id) ∧
      Optimizer.hintedJoin.Converts final.plan := by
  obtain ⟨_, final, h, rfl⟩ := Planning.exists_of_succeeds (show Planning.succeeds
    (chooseDependent.execute .permissive) (.start Optimizer.hintedJoin .empty 0)
    (fun changed _ => changed) = true by decide +kernel)
  obtain ⟨same, converts⟩ := reports_exactly (.inl rfl)
    (.of_links (by decide) (by decide) (by decide)) h
  obtain ⟨converted, only⟩ := converts rfl
  exact ⟨final, h, fun equal => Bool.noConfusion (same.mpr equal), converted.mp rfl, only⟩

end Rule

end FederatedQuery
