import FederatedQuery.Plan.Node

/-!
Plans as trees kept in an arena.

Nodes are addressed by their positions.  Each one records its parent and, in
order, its children, so surgery only updates positions.  A node that has been
taken out of the tree stays in the arena but is no longer reached from the root.
Nothing keeps an arena that was read from outside from being no tree at all.
-/

namespace FederatedQuery

abbrev NodeId := Nat

def NodeId.display (id : NodeId) : String := s!"#{id}"

structure PlanNode where
  kind : NodeKind
  parent : Option NodeId
  children : List NodeId
  deriving BEq

structure Plan where
  nodes : List PlanNode
  root : NodeId
  deriving BEq

namespace PlanNode

def toJson (node : PlanNode) : Json :=
  .object [("kind", node.kind.toJson),
    ("parent", Json.ofOption (fun id : Nat => .int id) node.parent),
    ("children", .array (node.children.map fun id : Nat => .int id))]

end PlanNode

def NodeId.ofJson? : Json → Option NodeId
  | .int (.ofNat id) => some id
  | _ => none

def PlanNode.ofJson? (json : Json) : Option PlanNode := do
  let members ← json.members?
  return {
    kind := ← Json.required members "kind" NodeKind.ofJson?
    parent := ← Json.optional members "parent" NodeId.ofJson?
    children := ← Json.required members "children" (Json.listOf NodeId.ofJson?)
  }

namespace Plan

def ofKind (kind : NodeKind) : Plan := ⟨[⟨kind, none, []⟩], 0⟩

def size (plan : Plan) : Nat := plan.nodes.length

def node? (plan : Plan) (id : NodeId) : Option PlanNode := plan.nodes[id]?

def kind? (plan : Plan) (id : NodeId) : Option NodeKind := (plan.node? id).map (·.kind)

def nodeType? (plan : Plan) (id : NodeId) : Option NodeType := (plan.kind? id).map (·.nodeType)

def parent? (plan : Plan) (id : NodeId) : Option NodeId := (plan.node? id).bind (·.parent)

def children (plan : Plan) (id : NodeId) : List NodeId :=
  match plan.node? id with
  | some node => node.children
  | none => []

def firstChild? (plan : Plan) (id : NodeId) : Option NodeId := (plan.children id).head?

def lastChild? (plan : Plan) (id : NodeId) : Option NodeId := (plan.children id).getLast?

def join? (plan : Plan) (id : NodeId) : Option JoinNode := (plan.kind? id).bind (·.join?)

def access? (plan : Plan) (id : NodeId) : Option AccessNode := (plan.kind? id).bind (·.access?)

def select? (plan : Plan) (id : NodeId) : Option SelectNode := (plan.kind? id).bind (·.select?)

def modify (plan : Plan) (id : NodeId) (change : PlanNode → PlanNode) : Plan :=
  { plan with nodes := plan.nodes.modify id change }

def setKind (plan : Plan) (id : NodeId) (kind : NodeKind) : Plan :=
  plan.modify id fun node => { node with kind := kind }

def toJson (plan : Plan) : Json :=
  .object [("nodes", .array (plan.nodes.map PlanNode.toJson)), ("root", .int plan.root)]

def ofJson? (json : Json) : Option Plan := do
  let members ← json.members?
  return {
    nodes := ← Json.required members "nodes" (Json.listOf PlanNode.ofJson?)
    root := ← Json.required members "root" NodeId.ofJson?
  }

end Plan

end FederatedQuery
