/-!
JSON values.

Whole numbers and other numbers are kept apart, since only the former may stand
for integers.  `unreadable` is a text that follows the grammar but denotes no
value: a number beyond every float, or a string with an unpaired surrogate.
It may be skipped over, yet nothing can be decoded from it.
-/

namespace FederatedQuery

inductive Json where
  | null
  | bool (value : Bool)
  | int (value : Int)
  | float (value : Float)
  | string (text : String)
  | array (items : List Json)
  | object (members : List (String × Json))
  | unreadable

namespace Json

def members? : Json → Option (List (String × Json))
  | .object members => some members
  | _ => none

def items? : Json → Option (List Json)
  | .array items => some items
  | _ => none

def text? : Json → Option String
  | .string text => some text
  | _ => none

def bool? : Json → Option Bool
  | .bool value => some value
  | _ => none

def isNull : Json → Bool
  | .null => true
  | _ => false

def intWithin? (least greatest : Int) : Json → Option Int
  | .int value => if least ≤ value ∧ value ≤ greatest then some value else none
  | _ => none

def int64? (json : Json) : Option Int :=
  json.intWithin? Int64.minValue.toInt Int64.maxValue.toInt

def int32? (json : Json) : Option Int :=
  json.intWithin? Int32.minValue.toInt Int32.maxValue.toInt

def word? (json : Json) : Option Nat := (json.intWithin? 0 (UInt64.size - 1)).map Int.toNat

def float? : Json → Option Float
  | .int value => some (Float.ofInt value)
  | .float value => some value
  | _ => none

def char? : Json → Option Char
  | .string text => match text.toList with
    | [char] => some char
    | _ => none
  | _ => none

def valuesNamed (name : String) (members : List (String × Json)) : List Json :=
  (members.filter (·.1 == name)).map (·.2)

def findMember (name : String) (members : List (String × Json)) : Option (Option Json) :=
  match valuesNamed name members with
  | [] => some none
  | [value] => some (some value)
  | _ => none

/-- The name and the payload of a constructor: a string, or an object of one member. -/
def variant? : Json → Option (String × Option Json)
  | .string name => some (name, none)
  | .object [(name, payload)] => some (name, some payload)
  | _ => none

end Json

end FederatedQuery
