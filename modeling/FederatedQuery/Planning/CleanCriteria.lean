import FederatedQuery.Plan.Search
import FederatedQuery.Planning.Session

/-!
Removing filters that are applied already.

A filter is redundant directly above a filter with the same criteria, and, if it
carries the values of a dependent join, above an access that has its criteria
pushed.  The first redundant filter in preorder is taken out until there is none.
-/

namespace FederatedQuery

namespace CleanCriteria

def isRepeatedBelow (plan : Plan) (select : SelectNode) (child : NodeId) : Bool :=
  (plan.select? child).any (·.criteria == select.criteria)

def isPushedBelow (plan : Plan) (select : SelectNode) (id : NodeId) : Bool :=
  select.isDependentSet &&
    ((plan.accessBelow? id).bind plan.access?).any (·.pushedCriteria.contains select.criteria)

def isRedundant (plan : Plan) (id : NodeId) : Bool :=
  match plan.select? id, plan.firstChild? id with
  | some select, some child => isRepeatedBelow plan select child || isPushedBelow plan select id
  | _, _ => false

def findRedundant? (plan : Plan) : Option NodeId :=
  (plan.findAll plan.root [.select] []).find? (isRedundant plan)

def removalEvents (plan : Plan) (id : NodeId) : List Event :=
  match plan.select? id with
  | some select =>
      let criteria := select.criteria.display
      [.log .debug s!"Removing redundant criteria {criteria} at {NodeId.display id}",
        .decision s!"Removing redundant criteria: {criteria}"]
  | none => []

/--
Takes out redundant filters, and tells whether there were any.  A node that is
taken out has no children left, so there are fewer removals than nodes.
-/
def removeWithin : Nat → Planning Bool
  | 0 => return false
  | fuel + 1 => do
      let plan ← Planning.plan
      match findRedundant? plan with
      | none => return false
      | some id =>
          Planning.inquire (Inquiry.reportAll (removalEvents plan id))
          let _ ← Planning.edit (Plan.spliceOut id)
          let _ ← removeWithin fuel
          return true

def execute (_ : PlanningContext) : Planning Bool := do
  removeWithin (← Planning.plan).size

end CleanCriteria

def cleanCriteria : Rule where
  name := RuleName.cleanCriteria.text
  description := "Removes SELECT nodes that repeat criteria already applied below them"
  execute := CleanCriteria.execute

end FederatedQuery
