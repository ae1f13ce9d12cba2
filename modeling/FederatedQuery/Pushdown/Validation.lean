import FederatedQuery.Language.Nesting
import FederatedQuery.Pushdown.LocalRule

/-!
Whether a whole language object can be evaluated by one source.

The objects are visited in order and the first one that does not pass its rule
decides.  A model without a capability record takes everything; without a model,
and for a virtual model, nothing can be pushed.

A subquery asks the same question about its command, so validation is defined
for one level of nesting after the other; `validate` takes as many levels as the
object has.
-/

namespace FederatedQuery

abbrev Validator := LanguageObject → Option ModelId → Except PlanError Verdict

abbrev SubqueryVerdict := Except SubqueryRejection ModelId

def checkParts (validator : Validator) (model : ModelId) :
    List LanguageObject → Except PlanError SubqueryVerdict
  | [] => .ok (.ok model)
  | part :: rest => do
      match ← validator part (some model) with
      | .accepted => checkParts validator model rest
      | .rejected cause => return .error (.part model cause)

def Subquery.correlatedParts (subquery : Subquery) : List LanguageObject :=
  .command subquery.command ::
    subquery.correlatedReferences.map fun reference => .expr reference.expr

/-- The model given for a subquery, or that of its own access, when they agree. -/
def Federation.candidateModel (federation : Federation) (subquery : Subquery)
    (model? : Option ModelId) : Except PlanError SubqueryVerdict := do
  match subquery.accessQuery?.bind fun query => query.sources.head? with
  | none =>
      match model? with
      | some model => return .ok model
      | none => return .error .noModel
  | some group =>
      let own ← federation.metadata.modelOf group
      match model? with
      | none => return .ok own
      | some model =>
          if ← federation.sameConnector model own then
            return .ok model
          return .error (.otherConnector model own)

/-- Where a subquery runs, given how its parts are validated. -/
def Federation.placeSubquery (federation : Federation) (validator : Validator)
    (subquery : Subquery) (model? : Option ModelId) : Except PlanError SubqueryVerdict := do
  match ← federation.candidateModel subquery model? with
  | .error cause => return .error cause
  | .ok model =>
      if !subquery.isCorrelated then
        return .ok model
      if !(← federation.supports .querySubqueriesCorrelated model) then
        return .error (.correlated model)
      checkParts validator model subquery.correlatedParts

def Federation.subqueryRule (federation : Federation) (validator : Validator) (source : Source) :
    SubqueryRule := fun subquery =>
  match federation.placeSubquery validator subquery (some source.model) with
  | .error error => .error (.failure error)
  | .ok (.error cause) => .reject (.subquery source.model cause)
  | .ok (.ok _) => .ok ()

def LanguageObject.firstObstacle (rule : LanguageObject → Check) (object : LanguageObject) :
    Check :=
  let visit (visited : LanguageObject) (_ : Unit) : Unit × Option Obstacle :=
    match rule visited with
    | .ok () => ((), none)
    | .error obstacle => ((), some obstacle)
  match object.walk visit () with
  | (_, none) => .ok ()
  | (_, some obstacle) => .error obstacle

def Federation.validateWith (federation : Federation) (validator : Validator) : Validator :=
  fun object model? => do
    let some model := model? | return .rejected .noModel
    if ← federation.metadata.isVirtual model then
      return .rejected (.virtualModel model)
    match ← federation.finder (← federation.metadata.fullName model) with
    | none => return .accepted
    | some record =>
        let source : Source := ⟨model, record⟩
        let rule := localRule federation source (federation.subqueryRule validator source)
        (object.firstObstacle rule).verdict

def Federation.validateLevels (federation : Federation) : Nat → Validator
  | 0 => fun _ _ => .ok .accepted
  | levels + 1 => federation.validateWith (federation.validateLevels levels)

def Federation.validate (federation : Federation) : Validator := fun object model? =>
  federation.validateLevels (object.nesting + 1) object model?

def Federation.canPush (federation : Federation) (object : LanguageObject)
    (model? : Option ModelId) : Except PlanError Bool :=
  (federation.validate object model?).map Verdict.isAccepted

/-- The model that a subquery would run on together with its parent's model, if any. -/
def Federation.subqueryModel (federation : Federation) (subquery : Subquery)
    (model? : Option ModelId) : Except PlanError SubqueryVerdict :=
  federation.placeSubquery federation.validate subquery model?

end FederatedQuery
