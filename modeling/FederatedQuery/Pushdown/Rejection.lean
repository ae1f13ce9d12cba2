import FederatedQuery.Language.Display
import FederatedQuery.Metadata
import FederatedQuery.Capability

/-!
Why a language object cannot be evaluated by a source.

A rejection carries its whole cause: that of a subquery holds what was found
inside the subquery.  The reason told to the user is one line; the log has a
line for every check that failed, the innermost first.
-/

namespace FederatedQuery

mutual

inductive Rejection where
  | noModel
  | virtualModel (model : ModelId)
  | unsupported (capability : Capability) (model : ModelId)
  | aggregate (call : AggregateCall)
  | localFunction (name : String)
  | function (call : FunctionCall)
  | xml
  | listTooLong (count most : Nat)
  | notSearchable (element : ElementSymbol) (searchability : Searchability)
  | subquery (model : ModelId) (cause : SubqueryRejection)

inductive SubqueryRejection where
  | noModel
  | otherConnector (model own : ModelId)
  | correlated (model : ModelId)
  | part (model : ModelId) (cause : Rejection)

end

namespace Rejection

def reason : Rejection → String
  | .noModel => "no model to push to"
  | .virtualModel model => s!"model {model.name} is virtual"
  | .unsupported capability model => s!"{capability.name} is not supported by {model.name}"
  | .aggregate call => s!"aggregate {call.display} is not supported"
  | .localFunction name => s!"function {name} cannot be pushed down"
  | .function call => s!"function {call.display} is not supported"
  | .xml => "XML constructs are evaluated locally"
  | .listTooLong count most => s!"IN list of {count} values exceeds {most}"
  | .notSearchable element searchability =>
      s!"{element.display} is not searchable as {searchability.name}"
  | .subquery model _ => s!"subquery cannot be pushed to {model.name}"

def logLine (model : ModelId) (rejection : Rejection) : String :=
  s!"Cannot push to {model.name}: {rejection.reason}"

end Rejection

mutual

/-- The log lines of a check against `model`; none when the check never began. -/
def Rejection.logLines (model : ModelId) : Rejection → List String
  | .noModel | .virtualModel _ => []
  | .subquery inner cause =>
      SubqueryRejection.logLines cause ++ [Rejection.logLine model (.subquery inner cause)]
  | rejection => [Rejection.logLine model rejection]

def SubqueryRejection.logLines : SubqueryRejection → List String
  | .part model cause => Rejection.logLines model cause
  | .noModel | .otherConnector _ _ | .correlated _ => []

end

inductive Verdict where
  | accepted
  | rejected (cause : Rejection)

namespace Verdict

def isAccepted : Verdict → Bool
  | .accepted => true
  | .rejected _ => false

def reason? : Verdict → Option String
  | .accepted => none
  | .rejected cause => some cause.reason

def logLines (model? : Option ModelId) : Verdict → List String
  | .accepted => []
  | .rejected cause =>
      match model? with
      | some model => cause.logLines model
      | none => []

end Verdict

end FederatedQuery
