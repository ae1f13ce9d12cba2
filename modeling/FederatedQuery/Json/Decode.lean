import FederatedQuery.Decimal.Reader
import FederatedQuery.Json.Basic

/-!
Decoding JSON values into records, lists and enumerations.

A record is an object whose unknown members are ignored, or the list of its fields
in their order, which may end early where fields have defaults.  An enumeration is
a string, or an object whose one member names the constructor and holds its payload.
-/

namespace FederatedQuery.Json

variable {α : Type}

def required (members : List (String × Json)) (name : String) (decode : Json → Option α) :
    Option α := do
  let value? ← findMember name members
  value?.bind decode

def optional (members : List (String × Json)) (name : String) (decode : Json → Option α) :
    Option (Option α) := do
  match ← findMember name members with
  | none | some .null => return none
  | some value => return some (← decode value)

/-- A member that takes a default when it is absent; null is no absence. -/
def defaulted (members : List (String × Json)) (name : String) (default : α)
    (decode : Json → Option α) : Option α := do
  match ← findMember name members with
  | none => return default
  | some value => decode value

/-- The fields of a record that is written as an object or as a list. -/
def fields? (names : List String) : Json → Option (List (String × Json))
  | .object members => some members
  | .array items => if items.length ≤ names.length then some (names.zip items) else none
  | _ => none

def listOf (decode : Json → Option α) (json : Json) : Option (List α) := do
  (← json.items?).mapM decode

def listed (members : List (String × Json)) (name : String) (decode : Json → Option α) :
    Option (List α) :=
  return (← optional members name (listOf decode)).getD []

def flag (members : List (String × Json)) (name : String) : Option Bool :=
  return (← optional members name bool?).getD false

def pair? {β : Type} (first : Json → Option α) (second : Json → Option β) :
    Json → Option (α × β)
  | .array [a, b] => return (← first a, ← second b)
  | _ => none

def number? : Json → Option Float
  | .string text => Decimal.read? text
  | json => json.float?

/-- A constructor without payload; an explicit null is no payload. -/
def plainVariant? (json : Json) : Option String :=
  match json.variant? with
  | some (name, none) | some (name, some .null) => some name
  | _ => none

def tagged? (all : List α) (tag : α → String) (json : Json) : Option α := do
  let name ← json.plainVariant?
  all.find? (tag · == name)

def ofOption (encode : α → Json) : Option α → Json
  | none => .null
  | some value => encode value

def variant (name : String) (payload : Json) : Json := .object [(name, payload)]

end FederatedQuery.Json
