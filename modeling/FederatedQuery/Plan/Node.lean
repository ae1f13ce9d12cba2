import FederatedQuery.Language.Codec
import FederatedQuery.Language.Display
import FederatedQuery.Language.Equality
import FederatedQuery.Language.Object
import FederatedQuery.Plan.Vocabulary

/-!
What plan nodes carry.

The equality conditions of a join are listed three times: among its criteria,
and as two lists of expressions paired by position, one for each input.  An
access lists the criteria that its source evaluates and the access patterns that
these do not satisfy yet.
-/

namespace FederatedQuery

structure JoinNode where
  joinType : JoinType
  strategy : JoinStrategy := .nestedLoop
  criteria : List Criteria := []
  leftExprs : List Expr := []
  rightExprs : List Expr := []
  /-- What feeds the dependent input, once the join has been made dependent. -/
  valueSource : Option String := none
  dependentCost : Option Float := none
  ordinaryCost : Option Float := none
  deriving BEq

/-- Elements that all have to be constrained before a source can be asked. -/
structure AccessPattern where
  elements : List ElementSymbol
  deriving DecidableEq, Repr

structure AccessNode where
  group : GroupSymbol
  model : Option ModelId := none
  patterns : List AccessPattern := []
  makeDependent : Bool := false
  makeNotDependent : Bool := false
  cardinality : Option Float := none
  pushedCriteria : List Criteria := []
  deriving BEq

structure SelectNode where
  criteria : Criteria
  isDependentSet : Bool := false
  deriving BEq

inductive NodeKind where
  | join (payload : JoinNode)
  | access (payload : AccessNode)
  | select (payload : SelectNode)
  | project (select : List Expr)
  | sort (keys : List Expr)
  | group (groupBy : List Expr)
  | setOp (operation : SetOperation) (all : Bool)
  | dupRemove
  | source (group : GroupSymbol)
  | null
  deriving BEq

namespace JoinNode

def withEquality (join : JoinNode) (left right : Expr) : JoinNode :=
  { join with
    criteria := join.criteria ++ [.eq left right]
    leftExprs := join.leftExprs ++ [left]
    rightExprs := join.rightExprs ++ [right] }

def withCriteria (join : JoinNode) (criteria : Criteria) : JoinNode :=
  { join with criteria := join.criteria ++ [criteria] }

def reverse (join : JoinNode) : JoinNode :=
  { join with
    joinType := join.joinType.reverse
    leftExprs := join.rightExprs
    rightExprs := join.leftExprs }

def details (join : JoinNode) : String :=
  joinDisplays (join.joinType.name ::
    (if join.criteria.isEmpty then []
      else [" AND ".intercalate (join.criteria.map Criteria.display)]) ++
    (join.valueSource.map ("dependent " ++ ·)).toList)

def toJson (join : JoinNode) : Json :=
  .object [
    ("join_type", join.joinType.toJson),
    ("strategy", join.strategy.toJson),
    ("join_criteria", .array (join.criteria.map Criteria.toJson)),
    ("left_expressions", .array (join.leftExprs.map Expr.toJson)),
    ("right_expressions", .array (join.rightExprs.map Expr.toJson)),
    ("dependent_value_source", Json.ofOption .string join.valueSource),
    ("est_dep_join_cost", Json.ofOption .float join.dependentCost),
    ("est_join_cost", Json.ofOption .float join.ordinaryCost)]

def ofJson? (json : Json) : Option JoinNode := do
  let members ← json.members?
  return {
    joinType := ← Json.required members "join_type" JoinType.ofJson?
    strategy := ← Json.required members "strategy" JoinStrategy.ofJson?
    criteria := ← Json.required members "join_criteria" (Json.listOf Criteria.ofJson?)
    leftExprs := ← Json.required members "left_expressions" (Json.listOf Expr.ofJson?)
    rightExprs := ← Json.required members "right_expressions" (Json.listOf Expr.ofJson?)
    valueSource := ← Json.optional members "dependent_value_source" Json.text?
    dependentCost := ← Json.optional members "est_dep_join_cost" Json.float?
    ordinaryCost := ← Json.optional members "est_join_cost" Json.float?
  }

end JoinNode

namespace AccessPattern

def isSatisfiedBy (pattern : AccessPattern) (referenced : List ElementSymbol) : Bool :=
  pattern.elements.all referenced.contains

def toJson (pattern : AccessPattern) : Json :=
  .object [("elements", .array (pattern.elements.map ElementSymbol.toJson))]

def ofJson? (json : Json) : Option AccessPattern := do
  let members ← json.members?
  return { elements := ← Json.required members "elements" (Json.listOf ElementSymbol.ofJson?) }

end AccessPattern

namespace AccessNode

def withModel (access : AccessNode) (model : ModelId) : AccessNode :=
  { access with model := some model }

def withCardinality (access : AccessNode) (cardinality : Float) : AccessNode :=
  { access with cardinality := some cardinality }

def withPattern (access : AccessNode) (pattern : AccessPattern) : AccessNode :=
  { access with patterns := access.patterns ++ [pattern] }

def hasUnsatisfiedPatterns (access : AccessNode) : Bool := !access.patterns.isEmpty

/-- Lets the source evaluate one more predicate, and drops the patterns now satisfied. -/
def push (access : AccessNode) (criteria : Criteria) : AccessNode :=
  let pushed := access.pushedCriteria ++ [criteria]
  let referenced := pushed.flatMap Criteria.elements
  { access with
    pushedCriteria := pushed
    patterns := access.patterns.filter (!·.isSatisfiedBy referenced) }

def details (access : AccessNode) : String :=
  joinDisplays (access.group.display ::
    (access.model.map fun model => "model=" ++ model.name).toList ++
    (if access.makeDependent then ["MAKEDEP"] else []) ++
    (if access.makeNotDependent then ["MAKENOTDEP"] else []) ++
    (if access.pushedCriteria.isEmpty then []
      else ["WHERE " ++ " AND ".intercalate (access.pushedCriteria.map Criteria.display)]))

def toJson (access : AccessNode) : Json :=
  .object [
    ("group", access.group.toJson),
    ("model_id", Json.ofOption ModelId.toJson access.model),
    ("access_patterns", .array (access.patterns.map AccessPattern.toJson)),
    ("make_dependent", .bool access.makeDependent),
    ("make_not_dependent", .bool access.makeNotDependent),
    ("est_cardinality", Json.ofOption .float access.cardinality),
    ("pushed_criteria", .array (access.pushedCriteria.map Criteria.toJson))]

def ofJson? (json : Json) : Option AccessNode := do
  let members ← json.members?
  return {
    group := ← Json.required members "group" GroupSymbol.ofJson?
    model := ← Json.optional members "model_id" ModelId.ofJson?
    patterns := ← Json.required members "access_patterns" (Json.listOf AccessPattern.ofJson?)
    makeDependent := ← Json.required members "make_dependent" Json.bool?
    makeNotDependent := ← Json.required members "make_not_dependent" Json.bool?
    cardinality := ← Json.optional members "est_cardinality" Json.float?
    pushedCriteria := ← Json.required members "pushed_criteria" (Json.listOf Criteria.ofJson?)
  }

end AccessNode

namespace SelectNode

def details (select : SelectNode) : String :=
  if select.isDependentSet then select.criteria.display ++ " [dependent]"
  else select.criteria.display

def toJson (select : SelectNode) : Json :=
  .object [("criteria", select.criteria.toJson),
    ("is_dependent_set", .bool select.isDependentSet)]

def ofJson? (json : Json) : Option SelectNode := do
  let members ← json.members?
  return {
    criteria := ← Json.required members "criteria" Criteria.ofJson?
    isDependentSet := ← Json.required members "is_dependent_set" Json.bool?
  }

end SelectNode

namespace NodeKind

def nodeType : NodeKind → NodeType
  | .join _ => .join
  | .access _ => .access
  | .select _ => .select
  | .project _ => .project
  | .sort _ => .sort
  | .group _ => .group
  | .setOp _ _ => .setOp
  | .dupRemove => .dupRemove
  | .source _ => .source
  | .null => .null

def join? : NodeKind → Option JoinNode
  | .join payload => some payload
  | _ => none

def access? : NodeKind → Option AccessNode
  | .access payload => some payload
  | _ => none

def select? : NodeKind → Option SelectNode
  | .select payload => some payload
  | _ => none

def details? : NodeKind → Option String
  | .join payload => some payload.details
  | .access payload => some payload.details
  | .select payload => some payload.details
  | .project exprs => some (joinDisplays (exprs.map Expr.display))
  | .source symbol => some symbol.display
  | .setOp operation all => some (operation.tag ++ if all then " ALL" else "")
  | .sort _ | .group _ | .dupRemove | .null => none

def toJson : NodeKind → Json
  | .join payload => Json.variant "Join" payload.toJson
  | .access payload => Json.variant "Access" payload.toJson
  | .select payload => Json.variant "Select" payload.toJson
  | .project exprs =>
      Json.variant "Project" (.object [("select", .array (exprs.map Expr.toJson))])
  | .sort keys => Json.variant "Sort" (.object [("keys", .array (keys.map Expr.toJson))])
  | .group exprs =>
      Json.variant "Group" (.object [("group_by", .array (exprs.map Expr.toJson))])
  | .setOp operation all =>
      Json.variant "SetOp" (.object [("op", operation.toJson), ("all", .bool all)])
  | .dupRemove => .string "DupRemove"
  | .source symbol => Json.variant "Source" (.object [("group", symbol.toJson)])
  | .null => .string "Null"

def exprsOfJson? (name : String) (payload : Json) : Option (List Expr) := do
  Json.required (← payload.members?) name (Json.listOf Expr.ofJson?)

def ofJson? (json : Json) : Option NodeKind := do
  match ← json.variant? with
  | ("Join", some payload) => return .join (← JoinNode.ofJson? payload)
  | ("Access", some payload) => return .access (← AccessNode.ofJson? payload)
  | ("Select", some payload) => return .select (← SelectNode.ofJson? payload)
  | ("Project", some payload) => return .project (← exprsOfJson? "select" payload)
  | ("Sort", some payload) => return .sort (← exprsOfJson? "keys" payload)
  | ("Group", some payload) => return .group (← exprsOfJson? "group_by" payload)
  | ("SetOp", some payload) =>
      let members ← payload.members?
      return .setOp (← Json.required members "op" SetOperation.ofJson?)
        (← Json.required members "all" Json.bool?)
  | ("DupRemove", none) | ("DupRemove", some .null) => some .dupRemove
  | ("Source", some payload) =>
      let members ← payload.members?
      return .source (← Json.required members "group" GroupSymbol.ofJson?)
  | ("Null", none) | ("Null", some .null) => some .null
  | _ => none

end NodeKind

end FederatedQuery
