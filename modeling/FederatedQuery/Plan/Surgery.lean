import FederatedQuery.Error
import FederatedQuery.Plan.Basic

/-!
Changes of a plan: adding nodes below or above others, taking out a node with
one child, and exchanging the inputs of a join.

An operation that may fail leaves a plan behind in any case: the one with the
changes made by then.
-/

namespace FederatedQuery

abbrev PlanStep := EStateM PlanError Plan

namespace Plan

def replaceChild (old new : NodeId) (children : List NodeId) : List NodeId :=
  children.map fun child => if child = old then new else child

/-- Makes what is above `old` point to `new`: its parent, or the root. -/
def relink (plan : Plan) (parent : Option NodeId) (old new : NodeId) : Plan :=
  match parent with
  | some above =>
      plan.modify above fun node => { node with children := replaceChild old new node.children }
  | none => { plan with root := new }

def append (plan : Plan) (node : PlanNode) : Plan := { plan with nodes := plan.nodes ++ [node] }

def addChild (plan : Plan) (parent : NodeId) (kind : NodeKind) : Plan × NodeId :=
  let id := plan.size
  ((plan.append ⟨kind, some parent, []⟩).modify parent fun node =>
    { node with children := node.children ++ [id] }, id)

/-- Adds a node between a node and its parent, or a new root above the root. -/
def addAsParent (plan : Plan) (child : NodeId) (kind : NodeKind) : Plan × NodeId :=
  let id := plan.size
  let above := plan.parent? child
  let linked := (plan.append ⟨kind, above, []⟩).relink above child id
  let withChild := linked.modify id fun node => { node with children := node.children ++ [child] }
  (withChild.modify child fun node => { node with parent := some id }, id)

/-- Takes out a node with one child, which takes the node's place and is returned. -/
def spliceOut (id : NodeId) : PlanStep NodeId := do
  let plan ← get
  let [child] := plan.children id
    | throw (.internal
        s!"cannot splice out node #{id} with {(plan.children id).length} children")
  let above := plan.parent? id
  modifyThe Plan (·.relink above id child)
  modifyThe Plan (·.modify child fun node => { node with parent := above })
  modifyThe Plan (·.modify id fun node => { node with parent := none, children := [] })
  return child

def swapJoinChildren (id : NodeId) : PlanStep Unit := do
  let plan ← get
  let [left, right] := plan.children id
    | throw (.internal s!"join #{id} has {(plan.children id).length} children")
  let some payload := plan.join? id
    | throw (.internal s!"node #{id} is not a join")
  modifyThe Plan (·.setKind id (.join payload.reverse))
  modifyThe Plan (·.modify id fun node => { node with children := [right, left] })

end Plan

end FederatedQuery
