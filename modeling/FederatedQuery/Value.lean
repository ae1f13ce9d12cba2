import FederatedQuery.DataType
import FederatedQuery.Decimal.Style

/-!
Constant values: literals of the query language and settings of sources.

Equality of values is that of the query language: a float that is not a number
equals nothing, and the two float zeros are equal.
-/

namespace FederatedQuery

inductive Value where
  | null
  | bool (value : Bool)
  | int64 (value : Int64)
  | float64 (value : Float)
  | string (text : String)
  | date (days : Int32)
  | timestamp (milliseconds : Int64)
  deriving BEq

namespace Value

def isNull : Value → Bool
  | .null => true
  | _ => false

def bool? : Value → Option Bool
  | .bool value => some value
  | _ => none

def int64? : Value → Option Int64
  | .int64 value => some value
  | _ => none

def text? : Value → Option String
  | .string text => some text
  | _ => none

def dataType : Value → DataType
  | .null => .null
  | .bool _ => .bool
  | .int64 _ => .int64
  | .float64 _ => .float64
  | .string _ => .string
  | .date _ => .date
  | .timestamp _ => .timestamp

def quoteText (text : String) : String :=
  "'" ++ String.ofList (text.toList.flatMap fun char => if char = '\'' then ['\'', '\''] else [char])
    ++ "'"

def display : Value → String
  | .null => "NULL"
  | .bool value => if value then "TRUE" else "FALSE"
  | .int64 value => toString value.toInt
  | .float64 value => Decimal.render .plain value
  | .string text => quoteText text
  | .date days => "DATE(" ++ toString days.toInt ++ ")"
  | .timestamp milliseconds => "TIMESTAMP(" ++ toString milliseconds.toInt ++ ")"

def toJson : Value → Json
  | .null => .string "Null"
  | .bool value => Json.variant "Bool" (.bool value)
  | .int64 value => Json.variant "Int64" (.int value.toInt)
  | .float64 value => Json.variant "Float64" (.float value)
  | .string text => Json.variant "String" (.string text)
  | .date days => Json.variant "Date" (.int days.toInt)
  | .timestamp milliseconds => Json.variant "Timestamp" (.int milliseconds.toInt)

def ofJson? (json : Json) : Option Value := do
  match ← json.variant? with
  | ("Null", none) | ("Null", some .null) => some .null
  | ("Bool", some payload) => return .bool (← payload.bool?)
  | ("Int64", some payload) => return .int64 (.ofInt (← payload.int64?))
  | ("Float64", some payload) => return .float64 (← payload.float?)
  | ("String", some payload) => return .string (← payload.text?)
  | ("Date", some payload) => return .date (.ofInt (← payload.int32?))
  | ("Timestamp", some payload) => return .timestamp (.ofInt (← payload.int64?))
  | _ => none

end Value

end FederatedQuery
