import FederatedQuery.Plan.Basic

/-!
Whether an arena holds a well-formed tree.

The check goes through the nodes reached from the root, the last child of a node
before its other children, and never enters a node twice.  Each entry of a list
of children is followed at most once, so one step for the root and one for every
entry are enough.
-/

namespace FederatedQuery

inductive StructuralFault where
  | shared (node : NodeId)
  | brokenParentLink (node : NodeId) (expected actual : Option NodeId)
  | wrongArity (node : NodeId) (nodeType : NodeType) (expected actual : Nat)
  | unpairedExprs (node : NodeId) (left right : Nat)
  deriving DecidableEq, Repr

namespace StructuralFault

def linkText : Option NodeId → String
  | some id => s!"Some(NodeId({id}))"
  | none => "None"

def message : StructuralFault → String
  | .shared node => s!"Node #{node} is reachable more than once"
  | .brokenParentLink node expected actual =>
      s!"Node #{node} records parent {linkText actual} but is a child of {linkText expected}"
  | .wrongArity node nodeType expected actual =>
      s!"Invalid arity for {nodeType.name} #{node}: expected {expected} children, got {actual}"
  | .unpairedExprs node left right =>
      s!"Join #{node} has {left} left expressions but {right} right expressions"

end StructuralFault

namespace PlanNode

def arityFaults (id : NodeId) (node : PlanNode) : List StructuralFault :=
  let nodeType := node.kind.nodeType
  match nodeType.arity? with
  | some expected =>
      if node.children.length = expected then []
      else [.wrongArity id nodeType expected node.children.length]
  | none => []

def pairingFaults (id : NodeId) (node : PlanNode) : List StructuralFault :=
  match node.kind.join? with
  | some join =>
      if join.leftExprs.length = join.rightExprs.length then []
      else [.unpairedExprs id join.leftExprs.length join.rightExprs.length]
  | none => []

def faults (id : NodeId) (expected : Option NodeId) (node : PlanNode) : List StructuralFault :=
  (if node.parent = expected then [] else [.brokenParentLink id expected node.parent]) ++
    node.arityFaults id ++ node.pairingFaults id

end PlanNode

namespace Plan

/-- Follows the links that are still open, each with the node it comes from. -/
def faultsFrom (plan : Plan) :
    Nat → List NodeId → List (NodeId × Option NodeId) → List StructuralFault
  | 0, _, _ => []
  | _ + 1, _, [] => []
  | steps + 1, visited, (id, expected) :: pending =>
      if visited.contains id then
        .shared id :: plan.faultsFrom steps visited pending
      else
        match plan.node? id with
        | some node =>
            node.faults id expected ++
              plan.faultsFrom steps (id :: visited)
                (node.children.reverse.map (·, some id) ++ pending)
        | none => plan.faultsFrom steps (id :: visited) pending

def linkCount (plan : Plan) : Nat :=
  plan.nodes.foldl (fun total node => total + node.children.length) 0

def structuralFaults (plan : Plan) : List StructuralFault :=
  plan.faultsFrom (plan.linkCount + 1) [] [(plan.root, none)]

def isWellFormed (plan : Plan) : Bool := plan.structuralFaults.isEmpty

end Plan

end FederatedQuery
