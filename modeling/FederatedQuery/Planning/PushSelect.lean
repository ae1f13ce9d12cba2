import FederatedQuery.Plan.Search
import FederatedQuery.Planning.Session

/-!
Handing filters over to the sources.

A filter above an access, with nothing but other filters between them, moves into
the access if the source can evaluate it.  Otherwise it stays where it is.
-/

namespace FederatedQuery

namespace PushSelect

def rejectionEvents (criteria : Criteria) (model : ModelId) (cause : Rejection) : List Event :=
  (cause.logLines model).map (.log .trace) ++
    [.log .debug s!"Criteria {criteria.display} stays local: {cause.reason}",
      .decision s!"Criteria {criteria.display} cannot be pushed to {model.name}: {cause.reason}"]

def pushInto (plan : Plan) (access : NodeId) (criteria : Criteria) : Plan :=
  match plan.access? access with
  | some payload => plan.setKind access (.access (payload.push criteria))
  | none => plan

def pushFilter (context : PlanningContext) (id : NodeId) : Planning Bool := do
  let plan ← Planning.plan
  let some accessId := plan.accessBelow? id | return false
  let some select := plan.select? id | return false
  let some model := (plan.access? accessId).bind (·.model) | return false
  let verdict ← Planning.inquire
    (Inquiry.ofExcept (context.federation.validate (.criteria select.criteria) (some model)))
  match verdict with
  | .rejected cause =>
      Planning.inquire (Inquiry.reportAll (rejectionEvents select.criteria model cause))
      return false
  | .accepted =>
      let _ ← Planning.edit (Plan.spliceOut id)
      Planning.setPlan (pushInto (← Planning.plan) accessId select.criteria)
      Planning.inquire
        (Inquiry.debug s!"Pushed criteria into {NodeId.display accessId} for model {model.name}")
      return true

def pushFilters (context : PlanningContext) : List NodeId → Planning Bool
  | [] => return false
  | id :: rest => do
      let moved ← pushFilter context id
      let others ← pushFilters context rest
      return moved || others

def filters (plan : Plan) : List NodeId := (plan.findAll plan.root [.select] []).reverse

def execute (context : PlanningContext) : Planning Bool := do
  pushFilters context (filters (← Planning.plan))

end PushSelect

def pushSelectCriteria : Rule where
  name := RuleName.pushSelectCriteria.text
  description := "Pushes SELECT criteria into the access node of a source that supports them"
  execute := PushSelect.execute

end FederatedQuery
