import FederatedQuery.Proofs.Pushdown.Validation

/-!
Push-down checks have no errors of their own: an error of a check is the error of a
look-up that was made for it.
-/

namespace FederatedQuery

theorem Except.bind_eq_error_iff {ε α β : Type} {first : Except ε α} {next : α → Except ε β}
    {error : ε} :
    (first >>= next) = .error error ↔
      first = .error error ∨ ∃ value, first = .ok value ∧ next value = .error error := by
  cases first <;> simp [bind, Except.bind]

/-- Some look-up in the metadata, or of a capability record, fails with this error. -/
inductive Federation.Raises (federation : Federation) : PlanError → Prop
  | modelOf {group : GroupSymbol} {error : PlanError}
      (failed : federation.metadata.modelOf group = .error error) : federation.Raises error
  | fullName {model : ModelId} {error : PlanError}
      (failed : federation.metadata.fullName model = .error error) : federation.Raises error
  | isVirtual {model : ModelId} {error : PlanError}
      (failed : federation.metadata.isVirtual model = .error error) : federation.Raises error
  | searchability {element : ElementSymbol} {error : PlanError}
      (failed : federation.metadata.searchability element = .error error) :
      federation.Raises error
  | record {name : String} {error : PlanError} (failed : federation.finder name = .error error) :
      federation.Raises error

namespace Federation

variable {federation : Federation} {error : PlanError}

theorem raises_of_recordOf {model : ModelId}
    (failed : federation.recordOf model = .error error) : federation.Raises error := by
  rw [recordOf, Except.bind_eq_error_iff] at failed
  rcases failed with failed | ⟨isVirtual, -, failed⟩
  · exact .isVirtual failed
  · cases isVirtual with
    | true => cases failed
    | false =>
        simp only [Bool.false_eq_true, if_false, Except.bind_eq_error_iff] at failed
        rcases failed with failed | ⟨name, -, failed⟩
        · exact .fullName failed
        · exact .record failed

theorem raises_of_supports {capability : Capability} {model : ModelId}
    (failed : federation.supports capability model = .error error) : federation.Raises error := by
  rw [supports, Except.bind_eq_error_iff] at failed
  rcases failed with failed | ⟨record?, -, ⟨⟩⟩
  exact raises_of_recordOf failed

theorem raises_of_sameConnector {model other : ModelId}
    (failed : federation.sameConnector model other = .error error) : federation.Raises error := by
  rw [sameConnector, Except.bind_eq_error_iff] at failed
  rcases failed with failed | ⟨isVirtual, -, failed⟩
  · exact .isVirtual failed
  cases isVirtual with
  | true => cases failed
  | false =>
      simp only [Bool.false_eq_true, if_false, Except.bind_eq_error_iff] at failed
      rcases failed with failed | ⟨isVirtual, -, failed⟩
      · exact .isVirtual failed
      cases isVirtual with
      | true => cases failed
      | false =>
          simp only [Bool.false_eq_true, if_false] at failed
          split at failed
          · cases failed
          · simp only [Except.bind_eq_error_iff] at failed
            rcases failed with failed | ⟨record?, -, failed | ⟨other?, -, ⟨⟩⟩⟩
            · exact raises_of_recordOf failed
            · exact raises_of_recordOf failed

theorem raises_of_candidateModel {subquery : Subquery} {model? : Option ModelId}
    (failed : federation.candidateModel subquery model? = .error error) :
    federation.Raises error := by
  unfold candidateModel at failed
  split at failed
  · cases model? <;> cases failed
  · rw [Except.bind_eq_error_iff] at failed
    rcases failed with failed | ⟨own, -, failed⟩
    · exact .modelOf failed
    cases model? with
    | none => cases failed
    | some model =>
        simp only [Except.bind_eq_error_iff] at failed
        rcases failed with failed | ⟨same, -, failed⟩
        · exact raises_of_sameConnector failed
        · cases same <;> cases failed

end Federation

theorem checkParts_eq_error {validator : Validator} {model : ModelId}
    {parts : List LanguageObject} {error : PlanError}
    (failed : checkParts validator model parts = .error error) :
    ∃ part ∈ parts, validator part (some model) = .error error := by
  induction parts with
  | nil => cases failed
  | cons part rest ih =>
      rw [checkParts, Except.bind_eq_error_iff] at failed
      rcases failed with failed | ⟨verdict, -, failed⟩
      · exact ⟨part, List.mem_cons_self, failed⟩
      · cases verdict with
        | rejected cause => cases failed
        | accepted =>
            obtain ⟨other, member, failed⟩ := ih failed
            exact ⟨other, List.mem_cons_of_mem part member, failed⟩

@[simp] theorem hosted_notMem_compareOp (subquery : Subquery) (op : CompareOp) :
    .hosted subquery ∉ op.requirements := by
  cases op <;> simp [CompareOp.requirements]

@[simp] theorem hosted_notMem_negation (subquery : Subquery) (negated : Bool) :
    .hosted subquery ∉ negationRequirements negated := by
  cases negated <;> simp [negationRequirements]

theorem subquery?_eq_of_hosted {object : LanguageObject} {subquery : Subquery}
    (required : .hosted subquery ∈ object.requirements) : object.subquery? = some subquery := by
  cases object with
  | command _ | namespaces _ | attributes _ => simp [LanguageObject.requirements] at required
  | expr expr =>
      cases expr with
      | scalarSubquery own =>
          simp only [LanguageObject.requirements, Expr.requirements, List.mem_cons, reduceCtorEq,
            Requirement.hosted.injEq, List.not_mem_nil, or_false, false_or] at required
          exact congrArg some required.symm
      | function call =>
          simp only [LanguageObject.requirements, Expr.requirements] at required
          split at required <;> simp at required
      | _ => simp [LanguageObject.requirements, Expr.requirements] at required
  | criteria criteria =>
      cases criteria with
      | compound op _ =>
          cases op <;> simp [LanguageObject.requirements, Criteria.requirements] at required
      | like _ _ escape _ =>
          cases escape <;> simp [LanguageObject.requirements, Criteria.requirements] at required
      | inSubquery _ own _ | existence own _ =>
          simp [LanguageObject.requirements, Criteria.requirements, membershipRequirements]
            at required
          exact congrArg some required.symm
      | quantified _ _ quantifier own =>
          cases quantifier <;>
            simp [LanguageObject.requirements, Criteria.requirements] at required <;>
            exact congrArg some required.symm
      | _ =>
          simp [LanguageObject.requirements, Criteria.requirements, membershipRequirements]
            at required

theorem obstacleOf_eq_failure {α : Type} {answer : Except PlanError α}
    {cause? : α → Option Rejection} {error : PlanError}
    (failed : obstacleOf answer cause? = some (.failure error)) : answer = .error error := by
  cases answer with
  | error other =>
      cases failed
      rfl
  | ok value => simp [obstacleOf] at failed

namespace Federation

variable {federation : Federation} {error : PlanError}

theorem raises_of_subqueryModel {subquery : Subquery} {model? : Option ModelId}
    (parts : ∀ part ∈ subquery.correlatedParts, ∀ model?,
      federation.validate part model? = .error error → federation.Raises error)
    (failed : federation.subqueryModel subquery model? = .error error) :
    federation.Raises error := by
  rw [subqueryModel, placeSubquery, Except.bind_eq_error_iff] at failed
  rcases failed with failed | ⟨place, -, failed⟩
  · exact raises_of_candidateModel failed
  cases place with
  | error cause => cases failed
  | ok model =>
      simp only at failed
      split at failed
      · cases failed
      · rw [Except.bind_eq_error_iff] at failed
        rcases failed with failed | ⟨supported, -, failed⟩
        · exact raises_of_supports failed
        · split at failed
          · cases failed
          · obtain ⟨part, member, failed⟩ := checkParts_eq_error failed
            exact parts part member _ failed

theorem raises_of_requirement {source : Source} {requirement : Requirement}
    (subqueries : ∀ subquery, requirement = .hosted subquery →
      ∀ part ∈ subquery.correlatedParts, ∀ model?,
        federation.validate part model? = .error error → federation.Raises error)
    (failed : requirement.obstacle? federation source = some (.failure error)) :
    federation.Raises error := by
  cases requirement with
  | comparable element | patternMatched element =>
      exact .searchability (obstacleOf_eq_failure failed)
  | hosted subquery =>
      exact raises_of_subqueryModel (subqueries subquery rfl) (obstacleOf_eq_failure failed)
  | listOf count =>
      simp only [Requirement.obstacle?] at failed
      split at failed
      · split at failed <;> cases failed
      · cases failed
  | noXml => simp [Requirement.obstacle?] at failed
  | supported _ | aggregate _ | pushable _ | function _ =>
      simp only [Requirement.obstacle?] at failed
      split at failed <;> simp at failed

theorem outcomeOf_eq_error {obstacle? : Option Obstacle}
    (failed : outcomeOf obstacle? = .error error) : obstacle? = some (.failure error) := by
  rcases obstacle? with _ | (cause | other) <;> cases failed
  rfl

theorem raises_or_known {validator : Validator} {object : LanguageObject} {model : ModelId}
    (failed : federation.validateWith validator object (some model) = .error error) :
    federation.Raises error ∨ ∃ record, federation.recordOf model = .ok (some record) := by
  rw [validateWith, Except.bind_eq_error_iff] at failed
  rcases failed with failed | ⟨isVirtual, hvirtual, failed⟩
  · exact .inl (.isVirtual failed)
  cases isVirtual with
  | true => cases failed
  | false =>
      simp only [Bool.false_eq_true, if_false, Except.bind_eq_error_iff] at failed
      rcases failed with failed | ⟨name, hname, failed | ⟨record?, hrecord, failed⟩⟩
      · exact .inl (.fullName failed)
      · exact .inl (.record failed)
      cases record? with
      | none => cases failed
      | some record =>
          exact .inr ⟨record, by simp [recordOf, hvirtual, hname, hrecord, bind, Except.bind]⟩

/-- An error of a push-down check is the error of a look-up. -/
theorem raises_of_validate {object : LanguageObject} {model? : Option ModelId}
    (failed : federation.validate object model? = .error error) : federation.Raises error := by
  induction object using LanguageObject.induction_on_parts generalizing model? with
  | step object ih =>
      have asked := failed
      rw [validate_eq_validateWith] at asked
      cases model? with
      | none => cases asked
      | some model =>
          rcases raises_or_known asked with raised | ⟨record, known⟩
          · exact raised
          rw [validate_eq_outcomeOf known object] at failed
          obtain ⟨visited, hvisited, hobstacle⟩ :=
            List.exists_of_findSome?_eq_some (outcomeOf_eq_error failed)
          obtain ⟨requirement, hrequired, hfailed⟩ :=
            List.exists_of_findSome?_eq_some hobstacle
          refine raises_of_requirement (fun subquery same part member model? h => ?_) hfailed
          subst same
          exact ih visited hvisited subquery (subquery?_eq_of_hosted hrequired) part member h

end Federation

end FederatedQuery
