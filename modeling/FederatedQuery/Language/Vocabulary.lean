import FederatedQuery.Json.Decode

/-!
The closed vocabularies of the query language: operators, quantifiers, aggregate
functions and what is declared about scalar functions.
-/

namespace FederatedQuery

inductive CompareOp where
  | eq
  | ne
  | lt
  | gt
  | le
  | ge
  deriving DecidableEq, Repr

namespace CompareOp

def all : List CompareOp := [.eq, .ne, .lt, .gt, .le, .ge]

def tag : CompareOp → String
  | .eq => "Eq"
  | .ne => "Ne"
  | .lt => "Lt"
  | .gt => "Gt"
  | .le => "Le"
  | .ge => "Ge"

def symbol : CompareOp → String
  | .eq => "="
  | .ne => "<>"
  | .lt => "<"
  | .gt => ">"
  | .le => "<="
  | .ge => ">="

def toJson (value : CompareOp) : Json := .string value.tag

def ofJson? (json : Json) : Option CompareOp := Json.tagged? all tag json

end CompareOp

inductive CompoundOp where
  | and
  | or
  deriving DecidableEq, Repr

namespace CompoundOp

def all : List CompoundOp := [.and, .or]

def tag : CompoundOp → String
  | .and => "And"
  | .or => "Or"

def symbol : CompoundOp → String
  | .and => "AND"
  | .or => "OR"

def toJson (value : CompoundOp) : Json := .string value.tag

def ofJson? (json : Json) : Option CompoundOp := Json.tagged? all tag json

end CompoundOp

inductive Quantifier where
  | all
  | some
  | any
  deriving DecidableEq, Repr

namespace Quantifier

def values : List Quantifier := [.all, .some, .any]

def tag : Quantifier → String
  | .all => "All"
  | .some => "Some"
  | .any => "Any"

def symbol : Quantifier → String
  | .all => "ALL"
  | .some => "SOME"
  | .any => "ANY"

def toJson (value : Quantifier) : Json := .string value.tag

def ofJson? (json : Json) : Option Quantifier := Json.tagged? values tag json

end Quantifier

inductive AggregateFunction where
  | count
  | sum
  | avg
  | min
  | max
  deriving DecidableEq, Repr

namespace AggregateFunction

def all : List AggregateFunction := [.count, .sum, .avg, .min, .max]

def tag : AggregateFunction → String
  | .count => "Count"
  | .sum => "Sum"
  | .avg => "Avg"
  | .min => "Min"
  | .max => "Max"

def symbol : AggregateFunction → String
  | .count => "COUNT"
  | .sum => "SUM"
  | .avg => "AVG"
  | .min => "MIN"
  | .max => "MAX"

def toJson (value : AggregateFunction) : Json := .string value.tag

def ofJson? (json : Json) : Option AggregateFunction := Json.tagged? all tag json

end AggregateFunction

/-- Where a function may be evaluated. -/
inductive PushdownMode where
  | can
  | cannot
  | must
  deriving DecidableEq, Repr

namespace PushdownMode

def all : List PushdownMode := [.can, .cannot, .must]

def tag : PushdownMode → String
  | .can => "Can"
  | .cannot => "Cannot"
  | .must => "Must"

def toJson (value : PushdownMode) : Json := .string value.tag

def ofJson? (json : Json) : Option PushdownMode := Json.tagged? all tag json

end PushdownMode

inductive Determinism where
  | deterministic
  | nonDeterministic
  deriving DecidableEq, Repr

namespace Determinism

def all : List Determinism := [.deterministic, .nonDeterministic]

def tag : Determinism → String
  | .deterministic => "Deterministic"
  | .nonDeterministic => "NonDeterministic"

def toJson (value : Determinism) : Json := .string value.tag

def ofJson? (json : Json) : Option Determinism := Json.tagged? all tag json

end Determinism

end FederatedQuery
