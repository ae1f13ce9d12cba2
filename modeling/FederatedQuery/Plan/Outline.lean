import FederatedQuery.Plan.Surgery

/-!
Outlines of plans: trees of node kinds, which say what a plan consists of but not
where its nodes are kept.

An outline becomes a plan by adding its nodes in preorder, so that positions
count in preorder from the root.
-/

namespace FederatedQuery

inductive PlanOutline where
  | node (kind : NodeKind) (children : List PlanOutline)

namespace PlanOutline

mutual

def growBelow (plan : Plan) (parent : NodeId) : PlanOutline → Plan
  | .node kind children =>
      let (grown, id) := plan.addChild parent kind
      growAll grown id children

def growAll (plan : Plan) (parent : NodeId) : List PlanOutline → Plan
  | [] => plan
  | outline :: rest => growAll (growBelow plan parent outline) parent rest

end

def toPlan : PlanOutline → Plan
  | .node kind children => growAll (.ofKind kind) 0 children

def ofLevels? : Nat → Json → Option PlanOutline
  | 0, _ => none
  | levels + 1, json => do
      let members ← json.members?
      return .node (← Json.required members "kind" NodeKind.ofJson?)
        (← Json.listed members "children" (ofLevels? levels))

def ofJson? (json : Json) : Option PlanOutline := ofLevels? json.levels json

end PlanOutline

def Plan.described? (json : Json) : Option Plan := do
  let members ← json.members?
  match ← Json.optional members "tree" PlanOutline.ofJson? with
  | some outline => return outline.toPlan
  | none => Json.required members "arena" Plan.ofJson?

end FederatedQuery
