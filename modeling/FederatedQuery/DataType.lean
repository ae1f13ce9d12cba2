import FederatedQuery.Json.Decode

/-!
Data types of columns, literals and function results.
-/

namespace FederatedQuery

inductive DataType where
  | null
  | bool
  | int32
  | int64
  | float64
  | decimal
  | string
  | binary
  | date
  | time
  | timestamp
  | xml
  deriving DecidableEq, Repr

namespace DataType

def all : List DataType :=
  [.null, .bool, .int32, .int64, .float64, .decimal, .string, .binary, .date, .time, .timestamp,
    .xml]

def name : DataType → String
  | .null => "Null"
  | .bool => "Bool"
  | .int32 => "Int32"
  | .int64 => "Int64"
  | .float64 => "Float64"
  | .decimal => "Decimal"
  | .string => "String"
  | .binary => "Binary"
  | .date => "Date"
  | .time => "Time"
  | .timestamp => "Timestamp"
  | .xml => "Xml"

def isNumeric : DataType → Bool
  | .int32 | .int64 | .float64 | .decimal => true
  | _ => false

def isTemporal : DataType → Bool
  | .date | .time | .timestamp => true
  | _ => false

def convertsImplicitly (source target : DataType) : Bool :=
  source == target ||
    match source, target with
    | .null, _ => true
    | .int32, .int64 | .int32, .float64 | .int32, .decimal => true
    | .int64, .float64 | .int64, .decimal => true
    | .date, .timestamp => true
    | _, _ => false

def toJson (type : DataType) : Json := .string type.name

def ofJson? (json : Json) : Option DataType := Json.tagged? all name json

end DataType

end FederatedQuery
