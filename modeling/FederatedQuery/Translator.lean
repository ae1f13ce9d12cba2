import FederatedQuery.DataType

/-!
Questions that only the connector of a source can answer: which conversions it
performs, and which format patterns it understands.
-/

namespace FederatedQuery

inductive PatternKind where
  | date
  | number
  deriving DecidableEq, Repr

structure Translator where
  converts : DataType → DataType → Bool
  acceptsPattern : String → PatternKind → Bool

namespace PatternKind

def all : List PatternKind := [.date, .number]

def name : PatternKind → String
  | .date => "Date"
  | .number => "Number"

def toJson (kind : PatternKind) : Json := .string kind.name

def ofJson? (json : Json) : Option PatternKind := Json.tagged? all name json

end PatternKind

end FederatedQuery
