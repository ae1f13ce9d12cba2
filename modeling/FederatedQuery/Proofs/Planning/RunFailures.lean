import FederatedQuery.Cost.Cardinality
import FederatedQuery.Proofs.Planning.Moves
import FederatedQuery.Proofs.Pushdown.Failures

/-!
# What may go wrong in a run

On an accepted plan no step of a run meets a node of the wrong form, so every error
comes from outside: from a look-up, or from the oracle that estimates costs.  The
oracle that knows cardinalities adds none, because it is asked for the cost of an
ordinary join only when it has told the cost of the dependent one.
-/

namespace FederatedQuery

/-- The oracle answers some question about the plan with this error. -/
inductive CostOracle.RaisesOn (oracle : CostOracle) (plan : Plan) : PlanError → Prop
  | subtreeCost {id : NodeId} {error : PlanError}
      (failed : oracle.subtreeCost plan id = .error error) : oracle.RaisesOn plan error
  | dependentJoinCost {join : NodeId} {side : Side} {strategy : JoinStrategy} {error : PlanError}
      (failed : oracle.dependentJoinCost plan join side strategy = .error error) :
      oracle.RaisesOn plan error
  | joinCost {independent dependent : NodeId} {strategy : JoinStrategy} {error : PlanError}
      (failed : oracle.joinCost plan independent dependent strategy = .error error) :
      oracle.RaisesOn plan error

namespace ChooseDependent

variable {context : PlanningContext} {plan : Plan} {error : PlanError}

theorem raises_of_compared {both : Bool} {strategy : JoinStrategy} {first second : NodeId}
    {firstCost secondCost : Option Float}
    (failed : compared context plan both strategy first second firstCost secondCost =
      .error error) : context.oracle.RaisesOn plan error := by
  unfold compared at failed
  split at failed
  · rw [Except.bind_eq_error_iff] at failed
    rcases failed with failed | ⟨ordinary, -, ⟨⟩⟩
    exact .joinCost failed
  · simp only [Except.bind_eq_error_iff] at failed
    rcases failed with failed | ⟨firstRows, -, failed | ⟨secondRows, -, failed⟩⟩
    · exact .subtreeCost failed
    · exact .subtreeCost failed
    · split at failed <;> cases failed

theorem raises_of_weighed {candidate : CandidateJoin} {strategy : JoinStrategy}
    {first second : NodeId}
    (failed : weighed context plan candidate strategy first second = .error error) :
    context.oracle.RaisesOn plan error := by
  simp only [weighed, Except.bind_eq_error_iff] at failed
  rcases failed with failed | ⟨firstCost, -, failed⟩
  · exact .dependentJoinCost failed
  split at failed
  · simp only [Except.bind_eq_error_iff] at failed
    rcases failed with failed | ⟨secondCost, -, failed⟩
    · exact .dependentJoinCost failed
    · exact raises_of_compared failed
  · exact raises_of_compared failed

theorem Undecided.raises (undecided : Undecided context plan error) :
    context.oracle.RaisesOn plan error := by
  obtain ⟨tree, candidate, join, left, right, -, -, failed⟩ := undecided
  simp only [decided] at failed
  split at failed
  · cases failed
  · exact raises_of_weighed failed

end ChooseDependent

/-! ## The oracle that knows cardinalities -/

def Plan.KnowsRows (plan : Plan) (first second : NodeId) : Prop :=
  (plan.cardinality? first).isSome = true ∧ (plan.cardinality? second).isSome = true

theorem Plan.KnowsRows.symm {plan : Plan} {first second : NodeId}
    (known : plan.KnowsRows first second) : plan.KnowsRows second first :=
  ⟨known.2, known.1⟩

theorem cardinalityOracle_joinCost {plan : Plan} {independent dependent : NodeId}
    (known : plan.KnowsRows independent dependent) (strategy : JoinStrategy) :
    ∃ cost, cardinalityOracle.joinCost plan independent dependent strategy = .ok cost := by
  obtain ⟨rows, hrows⟩ := Option.isSome_iff_exists.mp known.1
  obtain ⟨rows', hrows'⟩ := Option.isSome_iff_exists.mp known.2
  exact ⟨ordinaryCost strategy rows rows', by simp only [cardinalityOracle, hrows, hrows']⟩

theorem cardinalityOracle_dependentJoinCost {plan : Plan} {join left right : NodeId}
    (hleft : plan.firstChild? join = some left) (hright : plan.lastChild? join = some right)
    (side : Side) (strategy : JoinStrategy) :
    ∃ cost?, cardinalityOracle.dependentJoinCost plan join side strategy = .ok cost? ∧
      (cost?.isSome = true → plan.KnowsRows left right) := by
  simp only [cardinalityOracle, hleft, hright, Plan.KnowsRows]
  cases side <;> cases plan.cardinality? left <;> cases plan.cardinality? right <;> simp

namespace ChooseDependent

variable {context : PlanningContext} {plan : Plan} {strategy : JoinStrategy}
  {first second : NodeId}

theorem compared_succeeds {both : Bool} {firstCost secondCost : Option Float}
    (cardinalities : context.oracle = cardinalityOracle)
    (hfirst : firstCost.isSome = true → plan.KnowsRows first second)
    (hsecond : secondCost.isSome = true → plan.KnowsRows first second) :
    ∃ decision, compared context plan both strategy first second firstCost secondCost =
      .ok decision := by
  unfold compared
  rw [cardinalities]
  cases hcheaper : cheaper first second firstCost secondCost with
  | some costs =>
      obtain ⟨dependent, independent, cost⟩ := costs
      have known : plan.KnowsRows independent dependent := by
        rcases eq_of_cheaper hcheaper with ⟨rfl, rfl⟩ | ⟨rfl, rfl, hcost⟩
        · cases firstCost with
          | some _ => exact (hfirst rfl).symm
          | none => cases secondCost with
            | some _ => exact (hsecond rfl).symm
            | none => cases hcheaper
        · exact hsecond hcost
      obtain ⟨ordinary, hordinary⟩ := cardinalityOracle_joinCost known strategy
      exact ⟨.compareCosts dependent cost ordinary, by simp only [hordinary]; rfl⟩
  | none =>
      have asked (node : NodeId) :
          cardinalityOracle.subtreeCost plan node = .ok (plan.cardinality? node) := rfl
      cases hsize : chooseBySize context.threshold both first second (plan.cardinality? first)
          (plan.cardinality? second) with
      | some dependent =>
          exact ⟨.convert dependent, by simp [asked, hsize, bind, Except.bind, pure, Except.pure]⟩
      | none => exact ⟨.leave, by simp [asked, hsize, bind, Except.bind, pure, Except.pure]⟩

theorem weighed_succeeds {candidate : CandidateJoin} {left right : NodeId}
    (cardinalities : context.oracle = cardinalityOracle)
    (hleft : plan.firstChild? candidate.join = some left)
    (hright : plan.lastChild? candidate.join = some right)
    (known : plan.KnowsRows left right → plan.KnowsRows first second) :
    ∃ decision, weighed context plan candidate strategy first second = .ok decision := by
  obtain ⟨firstCost, hfirstCost, hfirst⟩ := cardinalityOracle_dependentJoinCost hleft hright
    (if candidate.left then .left else .right) strategy
  obtain ⟨secondCost, hsecondCost, hsecond⟩ :=
    cardinalityOracle_dependentJoinCost hleft hright .right strategy
  have compare (both : Bool) (secondCost : Option Float)
      (hsecond : secondCost.isSome = true → plan.KnowsRows left right) :
      ∃ decision, compared context plan both strategy first second firstCost secondCost =
        .ok decision :=
    compared_succeeds cardinalities (known ∘ hfirst) (known ∘ hsecond)
  rw [← cardinalities] at hfirstCost hsecondCost
  simp only [weighed, hfirstCost]
  cases hboth : candidate.left && candidate.right with
  | true =>
      obtain ⟨decision, hdecision⟩ := compare true secondCost hsecond
      exact ⟨decision, by simpa [hsecondCost, bind, Except.bind] using hdecision⟩
  | false =>
      obtain ⟨decision, hdecision⟩ := compare false none (by simp)
      exact ⟨decision, by simpa [bind, Except.bind] using hdecision⟩

theorem not_undecided {error : PlanError} (cardinalities : context.oracle = cardinalityOracle) :
    ¬ Undecided context plan error := by
  rintro ⟨tree, candidate, join, left, right, holds, member, failed⟩
  have hleft : plan.firstChild? candidate.join = some left.id := holds.firstChild?_eq member
  have hright : plan.lastChild? candidate.join = some right.id := holds.lastChild?_eq member
  have succeeds (first second : NodeId)
      (known : plan.KnowsRows left.id right.id → plan.KnowsRows first second) :
      weighed context plan candidate join.strategy first second ≠ .error error := by
    obtain ⟨decision, hdecision⟩ :
        ∃ decision, weighed context plan candidate join.strategy first second = .ok decision :=
      weighed_succeeds cardinalities hleft hright known
    simp [hdecision]
  simp only [decided] at failed
  split at failed
  · cases failed
  · cases hflag : candidate.left with
    | true =>
        rw [hflag] at failed
        exact succeeds _ _ id failed
    | false =>
        rw [hflag] at failed
        exact succeeds _ _ .symm failed

end ChooseDependent

namespace Optimizer

variable {config : Config} {federation : Federation} {oracle : CostOracle}
  {start final : Session} {error : PlanError}

/-- An error of a run on an accepted plan comes from a look-up or from the oracle. -/
theorem run_raises (accepted : start.plan.Accepted)
    (h : (standard config).run federation oracle start = .error error final) :
    (federation.Raises error ∨ oracle.RaisesOn final.plan error) ∧
      (oracle = cardinalityOracle → federation.Raises error) := by
  obtain ⟨holds, shaped⟩ := accepted.holds
  have opened : (start.opened config.optimizer.recordDebug).plan.Holds start.plan.tree := holds
  obtain ⟨new, -, -, -, blamed⟩ := (bundled_standard config).runWithin_moves _ _ opened shaped
    (show Planning.EndsWith _ _ (.error error) _ from run_eq_error h)
  cases blamed error rfl with
  | unregistered missing =>
      rename_i name
      cases name <;> cases missing
  | unchecked fails =>
      obtain ⟨criteria, model, fails⟩ := fails
      have raised := Federation.raises_of_validate fails
      exact ⟨.inl raised, fun _ => raised⟩
  | undecided undecided =>
      refine ⟨.inr undecided.raises, fun cardinalities => ?_⟩
      exact absurd undecided (ChooseDependent.not_undecided cardinalities)

def unreadable : Federation :=
  { PlanningContext.permissive.federation with
    finder := fun _ => .error (.metadata "the registry is unreachable") }

def filteredAccess : Plan :=
  let id : Expr := .column ⟨.named "pm1.g1", "id", .int64⟩
  ⟨[⟨.select ⟨.eq id id, false⟩, none, [1]⟩,
    ⟨.access { group := .named "pm1.g1", model := some ⟨"pm1"⟩ }, some 0, []⟩], 0⟩

theorem filteredAccess_raises :
    ∃ final, (standard {}).run unreadable cardinalityOracle
        (.start filteredAccess (RuleStack.empty.push .pushSelectCriteria) 0) =
          .error (.metadata "the registry is unreachable") final ∧
      unreadable.Raises (.metadata "the registry is unreachable") := by
  obtain ⟨final, h⟩ := Planning.exists_of_fails (show Planning.fails
    ((standard {}).run unreadable cardinalityOracle)
    (.start filteredAccess (RuleStack.empty.push .pushSelectCriteria) 0)
    (.metadata "the registry is unreachable") = true by decide +kernel)
  refine ⟨final, h, (run_raises ?_ h).2 rfl⟩
  exact .of_links (by decide) (by decide) (by decide)

end Optimizer

end FederatedQuery
