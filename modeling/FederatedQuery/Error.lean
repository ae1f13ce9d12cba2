/-!
Failures of planning and of the lookups it depends on.

A construct that a source cannot evaluate is no failure: push-down checks answer
it with a rejection.
-/

namespace FederatedQuery

inductive PlanError where
  | metadata (detail : String)
  | costEstimation (detail : String)
  | invalidParameter (detail : String)
  | internal (detail : String)
  | malformedJson (detail : String)
  deriving DecidableEq, Repr

namespace PlanError

def kind : PlanError → String
  | .metadata _ => "MetadataError"
  | .costEstimation _ => "CostEstimationError"
  | .invalidParameter _ => "InvalidParameter"
  | .internal _ => "InternalError"
  | .malformedJson _ => "MalformedJson"

def detail : PlanError → String
  | .metadata detail | .costEstimation detail | .invalidParameter detail
  | .internal detail | .malformedJson detail => detail

def message (error : PlanError) : String := error.kind ++ ": " ++ error.detail

/-- Whether planning lacks information it cannot go on without. -/
def isFatal : PlanError → Bool
  | .metadata _ | .costEstimation _ | .internal _ => true
  | .invalidParameter _ | .malformedJson _ => false

end PlanError

def ensure (condition : Bool) (error : PlanError) : Except PlanError Unit :=
  if condition then .ok () else .error error

end FederatedQuery
