import FederatedQuery.Plan.Basic
import FederatedQuery.Text.TreeDiagram

/-!
Plans drawn as trees, one line per node with its type and its details.
-/

namespace FederatedQuery.Plan

open Text

def diagramWithin (plan : Plan) : Nat → NodeId → TreeDiagram
  | 0, _ => .node "" none []
  | depth + 1, id =>
      match plan.node? id with
      | some node =>
          .node node.kind.nodeType.name node.kind.details?
            (node.children.map (plan.diagramWithin depth))
      | none => .node "" none []

def diagram (plan : Plan) : TreeDiagram := plan.diagramWithin plan.size plan.root

def explain (plan : Plan) : String := plan.diagram.render

end FederatedQuery.Plan
