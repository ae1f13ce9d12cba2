import FederatedQuery.Cost.Oracle

/-!
Costs from the estimated numbers of rows of accesses.

A filter keeps a third of its input.  A join with conditions has as many rows as
its larger input, one without as many as there are pairs.  The estimate of a node
is unknown as soon as one that it depends on is.
-/

namespace FederatedQuery

def largerFloat (first second : Float) : Float :=
  if first.isNaN || first < second then second else first

def smallerFloat (first second : Float) : Float :=
  if first.isNaN || second < first then second else first

def sumFloats (values : List Float) : Float := values.foldl (· + ·) (-0.0)

def selectReduction : Float := 3

namespace Plan

/-- The estimated number of rows of a node, looking `depth` levels down. -/
def cardinalityWithin (plan : Plan) : Nat → NodeId → Option Float
  | 0, _ => none
  | depth + 1, id =>
      let ofChild (position : Nat) : Option Float :=
        match (plan.children id)[position]? with
        | some child => plan.cardinalityWithin depth child
        | none => none
      match plan.kind? id with
      | some (.access payload) => payload.cardinality
      | some .null => some 0
      | some (.select _) => (ofChild 0).map (· / selectReduction)
      | some (.join payload) => do
          let left ← ofChild 0
          let right ← ofChild 1
          return if payload.joinType == .cross || payload.criteria.isEmpty then left * right
            else largerFloat left right
      | some (.setOp _ _) =>
          ((plan.children id).mapM (plan.cardinalityWithin depth)).map sumFloats
      | some (.project _) | some (.sort _) | some (.group _) | some .dupRemove
      | some (.source _) => ofChild 0
      | none => none

def cardinality? (plan : Plan) (id : NodeId) : Option Float := plan.cardinalityWithin plan.size id

end Plan

/-- A dependent input returns only rows that match the independent ones. -/
def dependentCost (independent dependent : Float) : Float :=
  independent + smallerFloat independent dependent

def ordinaryCost (strategy : JoinStrategy) (independent dependent : Float) : Float :=
  match strategy with
  | .nestedLoop => independent * dependent
  | .merge | .partitionedSort | .nestedTable => independent + dependent

def cardinalityOracle : CostOracle where
  subtreeCost plan id := .ok (plan.cardinality? id)
  dependentJoinCost plan join side _ :=
    match plan.firstChild? join, plan.lastChild? join with
    | some left, some right =>
        let (independent, dependent) :=
          match side with
          | .right => (left, right)
          | .left => (right, left)
        match plan.cardinality? independent, plan.cardinality? dependent with
        | some independent, some dependent => .ok (some (dependentCost independent dependent))
        | _, _ => .ok none
    | _, _ => .error (.costEstimation s!"join #{join} has no inputs")
  joinCost plan independent dependent strategy :=
    match plan.cardinality? independent, plan.cardinality? dependent with
    | some independent, some dependent => .ok (ordinaryCost strategy independent dependent)
    | _, _ =>
        .error (.costEstimation
          s!"no cardinality for join inputs #{independent} and #{dependent}")

end FederatedQuery
