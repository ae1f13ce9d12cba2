import FederatedQuery.Catalog
import FederatedQuery.Proofs.Pushdown.Requirements

/-!
Validation of a language object is told by the requirements of the objects on its
walk: the first one that the source does not meet is the outcome.

Validation runs on as many levels as subqueries are nested.  More levels change
nothing, so validation may be read as referring to itself for subqueries.
-/

namespace FederatedQuery

/-! ### Validation refers to itself -/

def LanguageObject.subquery? : LanguageObject → Option Subquery
  | .expr (.scalarSubquery subquery) | .criteria (.inSubquery _ subquery _)
  | .criteria (.existence subquery _) | .criteria (.quantified _ _ _ subquery) => some subquery
  | _ => none

theorem LanguageObject.nesting_subquery_le {object : LanguageObject} {subquery : Subquery}
    (held : object.subquery? = some subquery) : subquery.nesting ≤ object.nesting := by
  unfold subquery? at held
  split at held <;> cases held
  · exact Nat.le_of_eq (by rw [nesting, Expr.nesting])
  · rw [nesting, Criteria.nesting]; exact Nat.le_max_right ..
  · exact Nat.le_of_eq (by rw [nesting, Criteria.nesting])
  · rw [nesting, Criteria.nesting]; exact Nat.le_max_right ..

theorem Subquery.nesting_part_lt {subquery : Subquery} {part : LanguageObject}
    (member : part ∈ subquery.correlatedParts) : part.nesting < subquery.nesting := by
  rcases List.mem_cons.mp member with rfl | member
  · exact subquery.nesting_command_lt
  · obtain ⟨reference, hreference, rfl⟩ := List.mem_map.mp member
    exact nesting_reference_lt hreference

/-- What holds of an object if it holds of all parts of the subqueries on its walk holds of every
object. -/
@[elab_as_elim]
theorem LanguageObject.induction_on_parts {motive : LanguageObject → Prop}
    (step : ∀ object : LanguageObject,
      (∀ holder ∈ object.preorder, ∀ subquery, holder.subquery? = some subquery →
        ∀ part ∈ subquery.correlatedParts, motive part) → motive object)
    (object : LanguageObject) : motive object := by
  induction hnesting : object.nesting using Nat.strongRecOn generalizing object with
  | ind nesting ih =>
      subst hnesting
      refine step object fun holder member subquery held part hpart => ih part.nesting ?_ part rfl
      have shallower := Subquery.nesting_part_lt hpart
      have held_le := LanguageObject.nesting_subquery_le held
      have holder_le := LanguageObject.nesting_le_of_mem_preorder member
      omega

theorem localRule_congr {federation : Federation} {source : Source} {rule rule' : SubqueryRule}
    {object : LanguageObject}
    (same : ∀ subquery, object.subquery? = some subquery → rule subquery = rule' subquery) :
    localRule federation source rule object = localRule federation source rule' object := by
  cases object with
  | expr expr =>
      cases expr with
      | scalarSubquery subquery => simp only [localRule, checkExpr, same subquery rfl]
      | _ => rfl
  | criteria criteria =>
      cases criteria with
      | inSubquery _ subquery _ | existence subquery _ | quantified _ _ _ subquery =>
          simp only [localRule, checkCriteria, same subquery rfl]
      | compound op _ => cases op <;> rfl
      | _ => rfl
  | command _ | namespaces _ | attributes _ => rfl

theorem LanguageObject.obstacle?_firstObstacle (rule : LanguageObject → Check)
    (object : LanguageObject) :
    Check.obstacle? (object.firstObstacle rule) =
      object.preorder.findSome? fun visited => Check.obstacle? (rule visited) := by
  rw [firstObstacle, walk_eq_foldUntil_preorder]
  generalize object.preorder = visited
  induction visited with
  | nil => rfl
  | cons first rest ih =>
      rw [foldUntil, List.findSome?_cons]
      cases rule first with
      | ok _ => exact ih
      | error obstacle => rfl

theorem LanguageObject.firstObstacle_congr {rule rule' : LanguageObject → Check}
    {object : LanguageObject} (same : ∀ visited ∈ object.preorder, rule visited = rule' visited) :
    object.firstObstacle rule = object.firstObstacle rule' := by
  rw [firstObstacle, firstObstacle, walk_eq_foldUntil_preorder, walk_eq_foldUntil_preorder,
    foldUntil_congr fun visited member => by rw [same visited member]]

section Levels

variable {federation : Federation} {validator validator' : Validator}

theorem checkParts_congr {model : ModelId} {parts : List LanguageObject}
    (same : ∀ part ∈ parts, validator part (some model) = validator' part (some model)) :
    checkParts validator model parts = checkParts validator' model parts := by
  induction parts with
  | nil => rfl
  | cons part rest ih =>
      rw [checkParts, checkParts, same part (List.mem_cons_self ..),
        ih fun other member => same other (List.mem_cons_of_mem part member)]

theorem placeSubquery_congr {subquery : Subquery}
    (same : ∀ part ∈ subquery.correlatedParts, validator part = validator' part)
    (model? : Option ModelId) :
    federation.placeSubquery validator subquery model? =
      federation.placeSubquery validator' subquery model? := by
  have parts (model : ModelId) :
      checkParts validator model subquery.correlatedParts =
        checkParts validator' model subquery.correlatedParts :=
    checkParts_congr fun part member => by rw [same part member]
  simp only [Federation.placeSubquery, parts]

theorem validateWith_congr {object : LanguageObject}
    (same : ∀ part : LanguageObject, part.nesting < object.nesting →
      validator part = validator' part) :
    federation.validateWith validator object = federation.validateWith validator' object := by
  have rules (source : Source) :
      object.firstObstacle (localRule federation source
          (federation.subqueryRule validator source)) =
        object.firstObstacle (localRule federation source
          (federation.subqueryRule validator' source)) := by
    refine LanguageObject.firstObstacle_congr fun visited member => ?_
    refine localRule_congr fun subquery held => ?_
    have deeper : subquery.nesting ≤ object.nesting :=
      Nat.le_trans (LanguageObject.nesting_subquery_le held)
        (LanguageObject.nesting_le_of_mem_preorder member)
    have placed : federation.placeSubquery validator subquery (some source.model) =
        federation.placeSubquery validator' subquery (some source.model) :=
      placeSubquery_congr (fun part hpart =>
        same part (Nat.lt_of_lt_of_le (Subquery.nesting_part_lt hpart) deeper)) _
    rw [Federation.subqueryRule, placed, Federation.subqueryRule]
  funext model?
  simp only [Federation.validateWith, rules]

end Levels

namespace Federation

variable {federation : Federation}

/-- More levels than an object has change nothing. -/
theorem validateLevels_eq_validate {levels : Nat} {object : LanguageObject}
    (enough : object.nesting < levels) :
    federation.validateLevels levels object = federation.validate object := by
  induction levels using Nat.strongRecOn generalizing object with
  | ind levels ih =>
      obtain ⟨levels, rfl⟩ := Nat.exists_eq_succ_of_ne_zero (Nat.ne_zero_of_lt enough)
      have reached : object.nesting ≤ levels := Nat.le_of_lt_succ enough
      refine validateWith_congr fun part shallower => ?_
      rw [ih levels (Nat.lt_succ_self levels) (Nat.lt_of_lt_of_le shallower reached),
        ih object.nesting enough shallower]

theorem validate_eq_validateWith (object : LanguageObject) :
    federation.validate object = federation.validateWith federation.validate object :=
  validateWith_congr fun _ shallower => validateLevels_eq_validate shallower

/-! ### Where a subquery runs -/

theorem checkParts_eq_ok_iff {validator : Validator} {model own : ModelId}
    {parts : List LanguageObject} :
    checkParts validator model parts = .ok (.ok own) ↔
      own = model ∧ ∀ part ∈ parts, validator part (some model) = .ok .accepted := by
  induction parts with
  | nil => simp [checkParts, eq_comm]
  | cons part rest ih =>
      rw [checkParts, List.forall_mem_cons]
      cases validator part (some model) with
      | error error => simp [bind, Except.bind]
      | ok verdict =>
          cases verdict with
          | accepted => simpa [bind, Except.bind] using ih
          | rejected cause => simp [bind, Except.bind, pure, Except.pure]

theorem placeSubquery_eq_ok_iff {validator : Validator} {subquery : Subquery}
    {model? : Option ModelId} {place : ModelId} :
    federation.placeSubquery validator subquery model? = .ok (.ok place) ↔
      federation.candidateModel subquery model? = .ok (.ok place) ∧
        (subquery.isCorrelated →
          federation.supports .querySubqueriesCorrelated place = .ok true ∧
            ∀ part ∈ subquery.correlatedParts, validator part (some place) = .ok .accepted) := by
  rw [placeSubquery]
  rcases federation.candidateModel subquery model? with error | cause | found
  · simp [bind, Except.bind]
  · simp [bind, Except.bind, pure, Except.pure]
  cases subquery.isCorrelated with
  | false => simp [bind, Except.bind, pure, Except.pure]
  | true =>
      simp only [bind, Except.bind, Bool.not_true, Bool.false_eq_true, if_false, true_imp_iff,
        Except.ok.injEq]
      rcases hsupports : federation.supports .querySubqueriesCorrelated found with
        error | _ | _
      · refine iff_of_false (by simp) ?_
        rintro ⟨rfl, supported, -⟩
        cases hsupports.symm.trans supported
      · refine iff_of_false (by simp [pure, Except.pure]) ?_
        rintro ⟨rfl, supported, -⟩
        cases hsupports.symm.trans supported
      · simp only [Bool.not_true, Bool.false_eq_true, if_false, checkParts_eq_ok_iff]
        constructor
        · rintro ⟨rfl, accepted⟩
          exact ⟨rfl, hsupports, accepted⟩
        · rintro ⟨rfl, -, accepted⟩
          exact ⟨rfl, accepted⟩

theorem candidateModel_eq_ok_iff {subquery : Subquery} {model own : ModelId} :
    federation.candidateModel subquery (some model) = .ok (.ok own) ↔
      own = model ∧ ∀ group, (subquery.accessQuery?.bind (·.sources.head?)) = some group →
        ∃ other, federation.metadata.modelOf group = .ok other ∧
          federation.sameConnector model other = .ok true := by
  rw [candidateModel]
  cases subquery.accessQuery?.bind (·.sources.head?) with
  | none => simp [pure, Except.pure, eq_comm]
  | some group =>
      cases hmodel : federation.metadata.modelOf group with
      | error error => simp [hmodel, bind, Except.bind]
      | ok other =>
          cases hsame : federation.sameConnector model other with
          | error error => simp [hmodel, hsame, bind, Except.bind]
          | ok same =>
              cases same <;>
                simp [hmodel, hsame, bind, Except.bind, pure, Except.pure, eq_comm]

/--
A subquery can run where its parent runs: the group it reads from belongs to a
model of the same connector, and a correlated one is accepted as a whole.
-/
structure Hosts (federation : Federation) (model : ModelId) (subquery : Subquery) : Prop where
  connected : ∀ group, (subquery.accessQuery?.bind (·.sources.head?)) = some group →
    ∃ other, federation.metadata.modelOf group = .ok other ∧
      federation.sameConnector model other = .ok true
  correlated : subquery.isCorrelated →
    federation.supports .querySubqueriesCorrelated model = .ok true ∧
      ∀ part ∈ subquery.correlatedParts, federation.validate part (some model) = .ok .accepted

theorem subqueryModel_eq_ok_iff {subquery : Subquery} {model own : ModelId} :
    federation.subqueryModel subquery (some model) = .ok (.ok own) ↔
      own = model ∧ federation.Hosts model subquery := by
  rw [subqueryModel, placeSubquery_eq_ok_iff, candidateModel_eq_ok_iff]
  constructor
  · rintro ⟨⟨rfl, connected⟩, correlated⟩
    exact ⟨rfl, connected, correlated⟩
  · rintro ⟨rfl, connected, correlated⟩
    exact ⟨⟨rfl, connected⟩, correlated⟩

/-! ### The specification -/

theorem of_recordOf {model : ModelId} {record : SourceCapabilities}
    (known : federation.recordOf model = .ok (some record)) :
    federation.metadata.isVirtual model = .ok false ∧
      ∃ name, federation.metadata.fullName model = .ok name ∧
        federation.finder name = .ok (some record) := by
  cases hvirtual : federation.metadata.isVirtual model with
  | error error => simp [recordOf, hvirtual, bind, Except.bind] at known
  | ok isVirtual =>
      cases isVirtual with
      | true => simp [recordOf, hvirtual, bind, Except.bind, pure, Except.pure] at known
      | false =>
          refine ⟨rfl, ?_⟩
          cases hname : federation.metadata.fullName model with
          | error error => simp [recordOf, hvirtual, hname, bind, Except.bind] at known
          | ok name =>
              refine ⟨name, rfl, ?_⟩
              simpa [recordOf, hvirtual, hname, bind, Except.bind] using known

def outcomeOf : Option Obstacle → Except PlanError Verdict
  | none => .ok .accepted
  | some (.rejection cause) => .ok (.rejected cause)
  | some (.failure error) => .error error

theorem verdict_eq_outcomeOf (check : Check) : check.verdict = outcomeOf check.obstacle? := by
  rcases check with (cause | error) | value <;> rfl

theorem outcomeOf_eq_accepted_iff {obstacle? : Option Obstacle} :
    outcomeOf obstacle? = .ok .accepted ↔ obstacle? = none := by
  rcases obstacle? with _ | (cause | error) <;> simp [outcomeOf]

theorem validate_eq_outcomeOf {model : ModelId} {record : SourceCapabilities}
    (known : federation.recordOf model = .ok (some record)) (object : LanguageObject) :
    federation.validate object (some model) =
      outcomeOf (object.preorder.findSome? (·.obstacle? federation ⟨model, record⟩)) := by
  obtain ⟨physical, name, hname, hrecord⟩ := of_recordOf known
  have asked : federation.validate object (some model) =
      (object.firstObstacle (localRule federation ⟨model, record⟩
        (federation.subqueryRule federation.validate ⟨model, record⟩))).verdict := by
    rw [validate_eq_validateWith]
    simp [validateWith, physical, hname, hrecord, bind, Except.bind]
  rw [asked, verdict_eq_outcomeOf, LanguageObject.obstacle?_firstObstacle]
  simp only [obstacle?_localRule federation ⟨model, record⟩ known]

theorem validate_eq_firstObstacle {model : ModelId} {record : SourceCapabilities}
    (known : federation.recordOf model = .ok (some record)) (object : LanguageObject) :
    federation.validate object (some model) =
        outcomeOf (object.preorder.findSome? (·.obstacle? federation ⟨model, record⟩)) ∧
      (federation.validate object (some model) = .ok .accepted ↔
        ∀ visited ∈ object.preorder, visited.obstacle? federation ⟨model, record⟩ = none) := by
  have told : federation.validate object (some model) =
      outcomeOf (object.preorder.findSome? (·.obstacle? federation ⟨model, record⟩)) :=
    validate_eq_outcomeOf known object
  refine ⟨told, ?_⟩
  rw [told, outcomeOf_eq_accepted_iff, List.findSome?_eq_none_iff]

def equalityOnly : Federation :=
  ⟨Catalog.twoSources.toMetadata,
    fun _ => .ok (some (SourceCapabilities.empty.setSupport .criteriaCompareEq true))⟩

def guardedChoice : LanguageObject :=
  let id : Expr := .column ⟨.named "pm1.g1", "id", .int64⟩
  let is (value : String) : Criteria := .eq id (.literal (.string value))
  .criteria (.and [is "a", .or [is "b", is "c"]])

theorem guardedChoice_rejected :
    equalityOnly.recordOf ⟨"pm1"⟩ =
        .ok (some (SourceCapabilities.empty.setSupport .criteriaCompareEq true)) ∧
      ∃ verdict, equalityOnly.validate guardedChoice (some ⟨"pm1"⟩) = .ok verdict ∧
        verdict.reason? = some "CRITERIA_OR is not supported by pm1" := by
  have known : equalityOnly.recordOf ⟨"pm1"⟩ =
      .ok (some (SourceCapabilities.empty.setSupport .criteriaCompareEq true)) := rfl
  have told := (validate_eq_firstObstacle known guardedChoice).1
  have reason : (outcomeOf (guardedChoice.preorder.findSome? (·.obstacle? equalityOnly
      ⟨⟨"pm1"⟩, SourceCapabilities.empty.setSupport .criteriaCompareEq true⟩))).toOption.bind
        Verdict.reason? = some "CRITERIA_OR is not supported by pm1" := by
    decide +kernel
  rw [← told] at reason
  refine ⟨known, ?_⟩
  cases outcome : equalityOnly.validate guardedChoice (some ⟨"pm1"⟩) with
  | error error => simp [outcome, Except.toOption] at reason
  | ok verdict => exact ⟨verdict, rfl, by simpa [outcome, Except.toOption] using reason⟩

end Federation

end FederatedQuery
