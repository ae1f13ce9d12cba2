import FederatedQuery.Proofs.Pushdown.Acceptance
import FederatedQuery.Proofs.Pushdown.Failures

/-!
Where a subquery runs.

`RunsAt` says which model is the right answer for a subquery, without the order in
which the check goes about it.  The check gives just this answer, or the error of a
look-up, and validation relies on it for every subquery on a walk.
-/

namespace FederatedQuery

/-- The plan is a single access, and its query reads from this group first. -/
def Subquery.ReadsFirst (subquery : Subquery) (group : GroupSymbol) : Prop :=
  ∃ query rest, subquery.plan = some (.access (some (.query query)) false) ∧
    query.isXml = false ∧ query.sources = group :: rest

theorem Subquery.accessQuery?_eq_some_iff {subquery : Subquery} {query : Query} :
    subquery.accessQuery? = some query ↔
      subquery.plan = some (.access (some (.query query)) false) ∧ query.isXml = false ∧
        query.sources ≠ [] := by
  unfold accessQuery?
  split
  · rename_i planned hplan
    rw [Option.ite_none_left_eq_some, hplan]
    simp only [Bool.or_eq_true, not_or, Bool.not_eq_true, List.isEmpty_eq_false_iff,
      Option.some.injEq, SubqueryPlan.access.injEq, Command.query.injEq, and_true]
    constructor
    · rintro ⟨⟨plain, reads⟩, rfl⟩
      exact ⟨rfl, plain, reads⟩
    · rintro ⟨rfl, plain, reads⟩
      exact ⟨⟨plain, reads⟩, rfl⟩
  · rename_i other
    refine iff_of_false nofun ?_
    rintro ⟨plan, -⟩
    exact other query plan

theorem Subquery.readsFirst_iff {subquery : Subquery} {group : GroupSymbol} :
    subquery.ReadsFirst group ↔
      subquery.accessQuery?.bind (·.sources.head?) = some group := by
  simp only [Option.bind_eq_some_iff, accessQuery?_eq_some_iff, ReadsFirst]
  constructor
  · rintro ⟨query, rest, plan, plain, sources⟩
    exact ⟨query, ⟨plan, plain, by simp [sources]⟩, by simp [sources]⟩
  · rintro ⟨query, ⟨plan, plain, -⟩, first⟩
    obtain ⟨rest, sources⟩ := List.head?_eq_some_iff.mp first
    exact ⟨query, rest, plan, plain, sources⟩

namespace Federation

variable {federation : Federation}

/-! ### Look-ups that succeed -/

theorem supports_eq_true_iff {capability : Capability} {model : ModelId} :
    federation.supports capability model = .ok true ↔
      ∃ record, federation.recordOf model = .ok (some record) ∧ record.supports capability := by
  rw [supports]
  rcases federation.recordOf model with error | _ | record <;>
    simp [bind, Except.bind, pure, Except.pure]

theorem candidateModel_none_eq_ok_iff {subquery : Subquery} {place : ModelId} :
    federation.candidateModel subquery none = .ok (.ok place) ↔
      ∃ group, subquery.ReadsFirst group ∧ federation.metadata.modelOf group = .ok place := by
  simp only [Subquery.readsFirst_iff]
  rw [candidateModel]
  rcases subquery.accessQuery?.bind (·.sources.head?) with _ | group
  · simp [pure, Except.pure]
  · rcases hmodel : federation.metadata.modelOf group with error | own <;>
      simp [hmodel, bind, Except.bind, pure, Except.pure]

/-! ### The right answer -/

/-- A correlated subquery is accepted as a whole, outer columns taken as local ones. -/
structure TakesCorrelated (federation : Federation) (subquery : Subquery) (place : ModelId) :
    Prop where
  physical : federation.metadata.isVirtual place = .ok false
  supported : ∃ record, federation.recordOf place = .ok (some record) ∧
    record.supports .querySubqueriesCorrelated
  command : federation.validate (.command subquery.command) (some place) = .ok .accepted
  references : ∀ reference ∈ subquery.correlatedReferences,
    federation.validate (.expr reference.expr) (some place) = .ok .accepted

/-- The model on which a subquery runs, when it is asked to run on the given one if any. -/
structure RunsAt (federation : Federation) (subquery : Subquery) (model? : Option ModelId)
    (place : ModelId) : Prop where
  given : ∀ model, model? = some model → place = model
  adopted : model? = none →
    ∃ group, subquery.ReadsFirst group ∧ federation.metadata.modelOf group = .ok place
  connected : ∀ model group, model? = some model → subquery.ReadsFirst group →
    ∃ own, federation.metadata.modelOf group = .ok own ∧
      federation.sameConnector model own = .ok true
  correlated : subquery.correlatedReferences ≠ [] → federation.TakesCorrelated subquery place

theorem takesCorrelated_iff {subquery : Subquery} {place : ModelId} :
    federation.TakesCorrelated subquery place ↔
      federation.supports .querySubqueriesCorrelated place = .ok true ∧
        ∀ part ∈ subquery.correlatedParts,
          federation.validate part (some place) = .ok .accepted := by
  rw [supports_eq_true_iff, Subquery.correlatedParts, List.forall_mem_cons, List.forall_mem_map]
  constructor
  · rintro ⟨-, supported, command, references⟩
    exact ⟨supported, command, references⟩
  · rintro ⟨⟨record, known, supports⟩, command, references⟩
    exact ⟨(of_recordOf known).1, ⟨record, known, supports⟩, command, references⟩

theorem subqueryModel_eq_ok_iff_runsAt {subquery : Subquery} {model? : Option ModelId}
    {place : ModelId} :
    federation.subqueryModel subquery model? = .ok (.ok place) ↔
      federation.RunsAt subquery model? place := by
  have correlated : subquery.isCorrelated ↔ subquery.correlatedReferences ≠ [] := by
    simp [Subquery.isCorrelated]
  rw [subqueryModel, placeSubquery_eq_ok_iff, ← takesCorrelated_iff, correlated]
  cases model? with
  | none =>
      rw [candidateModel_none_eq_ok_iff]
      constructor
      · rintro ⟨adopted, taken⟩
        refine ⟨?_, fun _ => adopted, ?_, taken⟩
        · rintro model ⟨⟩
        · rintro model group ⟨⟩
      · rintro ⟨-, adopted, -, taken⟩
        exact ⟨adopted rfl, taken⟩
  | some model =>
      rw [candidateModel_eq_ok_iff]
      simp only [← Subquery.readsFirst_iff]
      constructor
      · rintro ⟨⟨rfl, connected⟩, taken⟩
        refine ⟨?_, ?_, ?_, taken⟩
        · rintro model ⟨⟩
          rfl
        · rintro ⟨⟩
        · rintro model group ⟨⟩ reads
          exact connected group reads
      · rintro ⟨given, -, connected, taken⟩
        exact ⟨⟨given model rfl, fun group => connected model group rfl⟩, taken⟩

/-- Failed look-ups apart, a subquery is answered with the model it runs at, if there is one; and
whatever is accepted for a model holds only subqueries that run at this model. -/
theorem subqueryModel_answers (subquery : Subquery) (model? : Option ModelId) :
    (∀ error, federation.subqueryModel subquery model? = .error error →
        federation.Raises error) ∧
      (∀ place, federation.subqueryModel subquery model? = .ok (.ok place) ↔
        federation.RunsAt subquery model? place) ∧
      ∀ object model record, federation.recordOf model = .ok (some record) →
        federation.validate object (some model) = .ok .accepted →
          ∀ visited ∈ object.preorder, ∀ held, visited.subquery? = some held →
            federation.subqueryModel held (some model) = .ok (.ok model) := by
  refine ⟨fun error => raises_of_subqueryModel fun part _ model? => raises_of_validate,
    fun place => subqueryModel_eq_ok_iff_runsAt, ?_⟩
  intro object model record known accepted visited member held holds
  exact subqueryModel_eq_ok_iff.mpr ⟨rfl, hosts_of_accepted known accepted member holds⟩

theorem knownRows_runsAt :
    knownRowsOnly.recordOf ⟨"pm1"⟩ = .ok (some knownRowsRecord) ∧
      knownRowsOnly.validate (.criteria (.existence knownRows.plannedAsAccess false))
        (some ⟨"pm1"⟩) = .ok .accepted ∧
      knownRowsOnly.subqueryModel knownRows.plannedAsAccess (some ⟨"pm1"⟩) =
        .ok (.ok ⟨"pm1"⟩) ∧
      knownRowsOnly.RunsAt knownRows.plannedAsAccess (some ⟨"pm1"⟩) ⟨"pm1"⟩ := by
  have known : knownRowsOnly.recordOf ⟨"pm1"⟩ = .ok (some knownRowsRecord) := rfl
  have accepted : knownRowsOnly.validate
      (.criteria (.existence knownRows.plannedAsAccess false)) (some ⟨"pm1"⟩) = .ok .accepted :=
    accepted_of_canPush (by decide +kernel)
  obtain ⟨-, told, held⟩ :=
    subqueryModel_answers knownRows.plannedAsAccess (some ⟨"pm1"⟩)
  have answer := held _ _ _ known accepted _ LanguageObject.self_mem_preorder _ rfl
  exact ⟨known, accepted, answer, (told _).mp answer⟩

end Federation

end FederatedQuery
