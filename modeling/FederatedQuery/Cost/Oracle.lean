import FederatedQuery.Error
import FederatedQuery.Plan.Basic

/-!
Cost estimation as three questions about a plan.

An estimate may be unknown, which is not the same as zero; a failure is an error.
-/

namespace FederatedQuery

inductive Side where
  | left
  | right
  deriving DecidableEq, Repr

namespace Side

def name : Side → String
  | .left => "left"
  | .right => "right"

def opposite : Side → Side
  | .left => .right
  | .right => .left

end Side

structure CostOracle where
  subtreeCost : Plan → NodeId → Except PlanError (Option Float)
  /-- The cost of a join when the input on the given side is dependent. -/
  dependentJoinCost : Plan → NodeId → Side → JoinStrategy → Except PlanError (Option Float)
  joinCost : Plan → NodeId → NodeId → JoinStrategy → Except PlanError Float

end FederatedQuery
