import FederatedQuery.Json.Decode

/-!
The closed vocabularies of plans: kinds of joins, join algorithms, set
operations, and the types of plan nodes.
-/

namespace FederatedQuery

inductive JoinType where
  | inner
  | leftOuter
  | rightOuter
  | fullOuter
  | cross
  deriving DecidableEq, Repr

namespace JoinType

def all : List JoinType := [.inner, .leftOuter, .rightOuter, .fullOuter, .cross]

def tag : JoinType → String
  | .inner => "Inner"
  | .leftOuter => "LeftOuter"
  | .rightOuter => "RightOuter"
  | .fullOuter => "FullOuter"
  | .cross => "Cross"

def name : JoinType → String
  | .inner => "INNER JOIN"
  | .leftOuter => "LEFT OUTER JOIN"
  | .rightOuter => "RIGHT OUTER JOIN"
  | .fullOuter => "FULL OUTER JOIN"
  | .cross => "CROSS JOIN"

def isOuter : JoinType → Bool
  | .leftOuter | .rightOuter | .fullOuter => true
  | .inner | .cross => false

def reverse : JoinType → JoinType
  | .leftOuter => .rightOuter
  | .rightOuter => .leftOuter
  | joinType => joinType

def toJson (joinType : JoinType) : Json := .string joinType.tag

def ofJson? (json : Json) : Option JoinType := Json.tagged? all tag json

end JoinType

inductive JoinStrategy where
  | nestedLoop
  | merge
  | partitionedSort
  | nestedTable
  deriving DecidableEq, Repr

namespace JoinStrategy

def all : List JoinStrategy := [.nestedLoop, .merge, .partitionedSort, .nestedTable]

def tag : JoinStrategy → String
  | .nestedLoop => "NestedLoop"
  | .merge => "Merge"
  | .partitionedSort => "PartitionedSort"
  | .nestedTable => "NestedTable"

def toJson (strategy : JoinStrategy) : Json := .string strategy.tag

def ofJson? (json : Json) : Option JoinStrategy := Json.tagged? all tag json

end JoinStrategy

inductive SetOperation where
  | union
  | intersect
  | except
  deriving DecidableEq, Repr

namespace SetOperation

def all : List SetOperation := [.union, .intersect, .except]

def tag : SetOperation → String
  | .union => "Union"
  | .intersect => "Intersect"
  | .except => "Except"

def toJson (operation : SetOperation) : Json := .string operation.tag

def ofJson? (json : Json) : Option SetOperation := Json.tagged? all tag json

end SetOperation

inductive NodeType where
  | join
  | access
  | select
  | project
  | sort
  | group
  | setOp
  | dupRemove
  | source
  | null
  deriving DecidableEq, Repr

namespace NodeType

def all : List NodeType :=
  [.join, .access, .select, .project, .sort, .group, .setOp, .dupRemove, .source, .null]

def name : NodeType → String
  | .join => "Join"
  | .access => "Access"
  | .select => "Select"
  | .project => "Project"
  | .sort => "Sort"
  | .group => "Group"
  | .setOp => "SetOp"
  | .dupRemove => "DupRemove"
  | .source => "Source"
  | .null => "Null"

def arity? : NodeType → Option Nat
  | .join => some 2
  | .select | .project | .sort | .group | .dupRemove => some 1
  | .null => some 0
  | .access | .source | .setOp => none

def isTransparent : NodeType → Bool
  | .select | .project | .sort | .dupRemove => true
  | _ => false

def ofJson? (json : Json) : Option NodeType := Json.tagged? all name json

end NodeType

end FederatedQuery
