import FederatedQuery.Plan.Basic

/-!
Searches from a node downwards.

In a tree no path is longer than the arena, so the size of the arena bounds the
depth of every search.
-/

namespace FederatedQuery.Plan

/--
A node and the nodes below it, parents first and earlier children first, as deep
as `depth` levels.  Nodes where `stop` holds are not descended into.
-/
def preorderWithin (plan : Plan) (stop : NodeId → Bool) : Nat → NodeId → List NodeId
  | 0, _ => []
  | depth + 1, id =>
      id :: if stop id then [] else (plan.children id).flatMap (plan.preorderWithin stop depth)

def preorder (plan : Plan) (id : NodeId) : List NodeId :=
  plan.preorderWithin (fun _ => false) plan.size id

def hasType (plan : Plan) (types : List NodeType) (id : NodeId) : Bool :=
  (plan.nodeType? id).any types.contains

/--
The nodes of the given types, in preorder.  A node of a type in `stop` may be
found, but nothing below it.
-/
def findAll (plan : Plan) (start : NodeId) (types stop : List NodeType) : List NodeId :=
  (plan.preorderWithin (plan.hasType stop) plan.size start).filter (plan.hasType types)

def descendWhile (plan : Plan) (step : NodeId → Bool) : Nat → NodeId → NodeId
  | 0, id => id
  | depth + 1, id =>
      if step id then
        match plan.firstChild? id with
        | some child => plan.descendWhile step depth child
        | none => id
      else id

/-- The node that a join input reads from, below nodes that only pass rows on. -/
def sourceOf (plan : Plan) (id : NodeId) : NodeId :=
  plan.descendWhile (fun id => (plan.nodeType? id).any (·.isTransparent)) plan.size id

/-- The input of an outer join whose rows may be missing. -/
def innerSide? (plan : Plan) (id : NodeId) : Option NodeId := do
  let join ← plan.join? id
  match join.joinType with
  | .leftOuter => plan.lastChild? id
  | .rightOuter => plan.firstChild? id
  | .inner | .fullOuter | .cross => none

def accessBelow? (plan : Plan) (id : NodeId) : Option NodeId := do
  let first ← plan.firstChild? id
  let last := plan.descendWhile (fun id => (plan.select? id).isSome) plan.size first
  if (plan.access? last).isSome then some last else none

def nodeCount (plan : Plan) : Nat := (plan.preorder plan.root).length

def depthWithin (plan : Plan) : Nat → NodeId → Nat
  | 0, _ => 0
  | depth + 1, id =>
      1 + ((plan.children id).map (plan.depthWithin depth)).foldl max 0

def depth (plan : Plan) : Nat := plan.depthWithin plan.size plan.root

end FederatedQuery.Plan
