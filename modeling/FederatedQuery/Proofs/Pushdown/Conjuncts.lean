import FederatedQuery.Proofs.Pushdown.Acceptance
import Mathlib.Data.List.Basic

/-!
Pushing a conjunction is pushing its conjuncts.

A conjunction asks nothing of a source itself.  With the conjunctions left out, the walk
of a criteria is the walks of its conjuncts, one after the other, so that whatever is
gathered along a walk can be gathered conjunct by conjunct: columns, and the first obstacle.
-/

namespace FederatedQuery

namespace Criteria

/-- What holds of a conjunction as soon as it holds of its operands, and of all that is no
conjunction, holds of every criteria. -/
theorem induction_conjuncts {motive : Criteria → Prop}
    (conjunction : ∀ operands, (∀ operand ∈ operands, motive operand) → motive (.and operands))
    (other : ∀ criteria, (∀ operands, criteria ≠ .and operands) → motive criteria)
    (criteria : Criteria) : motive criteria :=
  conjuncts.induct (fun operands => ∀ operand ∈ operands, motive operand) motive conjunction other
    (fun _ member => absurd member List.not_mem_nil)
    (fun _ _ own rest => List.forall_mem_cons.mpr ⟨own, rest⟩) criteria

@[simp] theorem conjuncts_and (operands : List Criteria) :
    (Criteria.and operands).conjuncts = operands.flatMap conjuncts := by
  rw [Criteria.and, conjuncts]
  induction operands with
  | nil => rfl
  | cons operand rest ih => rw [conjuncts.conjunctsOf, ih, List.flatMap_cons]

theorem conjuncts_of_ne_and {criteria : Criteria} (other : ∀ operands, criteria ≠ .and operands) :
    criteria.conjuncts = [criteria] := by
  unfold conjuncts
  split
  · exact absurd rfl (other _)
  · rfl

theorem ne_and_of_mem_conjuncts {criteria conjunct : Criteria}
    (member : conjunct ∈ criteria.conjuncts) (operands : List Criteria) :
    conjunct ≠ .and operands := by
  induction criteria using induction_conjuncts with
  | conjunction operands ih =>
      rw [conjuncts_and] at member
      obtain ⟨operand, hoperand, member⟩ := List.mem_flatMap.mp member
      exact ih operand hoperand member
  | other criteria other =>
      rw [conjuncts_of_ne_and other] at member
      rw [List.mem_singleton.mp member]
      exact other operands

theorem filterMap_preorder {α : Type} {view : LanguageObject → Option α}
    (blind : ∀ operands, view (.criteria (.and operands)) = none) (criteria : Criteria) :
    (LanguageObject.criteria criteria).preorder.filterMap view =
      criteria.conjuncts.flatMap fun conjunct =>
        (LanguageObject.criteria conjunct).preorder.filterMap view := by
  induction criteria using induction_conjuncts with
  | conjunction operands ih =>
      have below : (LanguageObject.criteria (.and operands)).children =
          operands.map LanguageObject.criteria := rfl
      rw [LanguageObject.preorder_eq, List.filterMap_cons, blind operands, below,
        List.filterMap_flatMap, List.flatMap_map, conjuncts_and, List.flatMap_assoc]
      exact List.flatMap_congr ih
  | other criteria other => rw [conjuncts_of_ne_and other, List.flatMap_singleton]

theorem flatMap_elements_conjuncts (criteria : Criteria) :
    criteria.conjuncts.flatMap elements = criteria.elements :=
  (filterMap_preorder (fun _ => rfl) criteria).symm

end Criteria

namespace Federation

def firstUnaccepted : List (Except PlanError Verdict) → Except PlanError Verdict
  | [] => .ok .accepted
  | .ok .accepted :: rest => firstUnaccepted rest
  | outcome :: _ => outcome

theorem firstUnaccepted_map_outcomeOf {α : Type} (obstacle? : α → Option Obstacle)
    (values : List α) :
    firstUnaccepted (values.map fun value => outcomeOf (obstacle? value)) =
      outcomeOf (values.findSome? obstacle?) := by
  induction values with
  | nil => rfl
  | cons value rest ih =>
      rw [List.map_cons, List.findSome?_cons]
      rcases obstacle? value with _ | (cause | error)
      · exact ih
      · rfl
      · rfl

/-- The first obstacle on a walk is the first one on the walks of the conjuncts. -/
theorem findSome?_obstacle?_conjuncts (federation : Federation) (source : Source)
    (criteria : Criteria) :
    (LanguageObject.criteria criteria).preorder.findSome? (·.obstacle? federation source) =
      criteria.conjuncts.findSome? fun conjunct =>
        (LanguageObject.criteria conjunct).preorder.findSome? (·.obstacle? federation source) := by
  rw [← List.head?_filterMap, Criteria.filterMap_preorder fun _ => rfl, List.head?_flatMap]
  simp only [List.head?_filterMap]

/-- A criteria fares as the first of its conjuncts that is not accepted; its conjuncts are no
conjunctions themselves, and their columns are those of the criteria. -/
theorem validate_eq_firstUnaccepted_conjuncts {federation : Federation} {model : ModelId}
    {record : SourceCapabilities} (known : federation.recordOf model = .ok (some record))
    (criteria : Criteria) :
    federation.validate (.criteria criteria) (some model) =
        firstUnaccepted (criteria.conjuncts.map fun conjunct =>
          federation.validate (.criteria conjunct) (some model)) ∧
      (∀ conjunct ∈ criteria.conjuncts,
        (∀ operands, conjunct ≠ .and operands) ∧ conjunct.conjuncts = [conjunct]) ∧
      criteria.conjuncts.flatMap Criteria.elements = criteria.elements := by
  refine ⟨?_, fun conjunct member => ?_, criteria.flatMap_elements_conjuncts⟩
  · simp only [validate_eq_outcomeOf known]
    rw [findSome?_obstacle?_conjuncts, firstUnaccepted_map_outcomeOf]
  · have other := Criteria.ne_and_of_mem_conjuncts member
    exact ⟨other, Criteria.conjuncts_of_ne_and other⟩

theorem rejected_of_reason {outcome : Except PlanError Verdict} {reason : String}
    (told : outcome.toOption.bind Verdict.reason? = some reason) :
    ∃ cause, outcome = .ok (.rejected cause) ∧ cause.reason = reason := by
  rcases outcome with error | _ | cause
  · cases told
  · cases told
  · exact ⟨cause, rfl, Option.some.inj told⟩

def idIs (value : String) : Criteria :=
  .eq (.column ⟨.named "pm1.g1", "id", .int64⟩) (.literal (.string value))

def lostColumn : ElementSymbol := ⟨.named "pm1.g2", "lost", .int64⟩

def equalityWithLoss : Federation :=
  ⟨(Catalog.twoSources.breakElement lostColumn).toMetadata, equalityOnly.finder⟩

def lostIs (value : String) : Criteria := .eq (.column lostColumn) (.literal (.string value))

def nestedChoice : Criteria :=
  .and [.and [], idIs "a", .and [.or [idIs "b", idIs "c"], lostIs "d"]]

theorem nestedChoice_refused_before_loss :
    equalityWithLoss.recordOf ⟨"pm1"⟩ =
        .ok (some (SourceCapabilities.empty.setSupport .criteriaCompareEq true)) ∧
      ∃ cause, equalityWithLoss.validate (.criteria nestedChoice) (some ⟨"pm1"⟩) =
          .ok (.rejected cause) ∧ cause.reason = "CRITERIA_OR is not supported by pm1" := by
  have known : equalityWithLoss.recordOf ⟨"pm1"⟩ =
      .ok (some (SourceCapabilities.empty.setSupport .criteriaCompareEq true)) := rfl
  have split : nestedChoice.conjuncts = [idIs "a", .or [idIs "b", idIs "c"], lostIs "d"] := by
    simp [nestedChoice, idIs, lostIs, Criteria.eq, Criteria.or, Criteria.conjuncts]
  have passed : equalityWithLoss.validate (.criteria (idIs "a")) (some ⟨"pm1"⟩) =
      .ok .accepted := accepted_of_canPush (by decide +kernel)
  have refused : ∃ cause, equalityWithLoss.validate (.criteria (.or [idIs "b", idIs "c"]))
      (some ⟨"pm1"⟩) = .ok (.rejected cause) ∧
        cause.reason = "CRITERIA_OR is not supported by pm1" :=
    rejected_of_reason (by decide +kernel)
  obtain ⟨cause, refused, reason⟩ := refused
  refine ⟨known, cause, ?_, reason⟩
  rw [(validate_eq_firstUnaccepted_conjuncts known nestedChoice).1, split, List.map_cons,
    List.map_cons, passed, refused]
  rfl

end Federation

end FederatedQuery
