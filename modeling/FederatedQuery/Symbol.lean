import FederatedQuery.DataType

/-!
Resolved names: models, groups and elements.

A group is a table-like object of a model.  Under an alias, `name` is the alias
and `definition` the name that metadata knows.
-/

namespace FederatedQuery

structure ModelId where
  name : String
  deriving DecidableEq, Repr

structure GroupSymbol where
  name : String
  definition : Option String
  deriving DecidableEq, Repr

structure ElementSymbol where
  group : GroupSymbol
  name : String
  dataType : DataType
  deriving DecidableEq, Repr

namespace ModelId

def toJson (model : ModelId) : Json := .string model.name

def ofJson? (json : Json) : Option ModelId := json.text?.map ModelId.mk

end ModelId

namespace GroupSymbol

def named (name : String) : GroupSymbol := ⟨name, none⟩

def resolvedName (group : GroupSymbol) : String := group.definition.getD group.name

def display (group : GroupSymbol) : String :=
  match group.definition with
  | some definition => definition ++ " AS " ++ group.name
  | none => group.name

def toJson (group : GroupSymbol) : Json :=
  .object [("name", .string group.name), ("definition", Json.ofOption .string group.definition)]

def ofJson? (json : Json) : Option GroupSymbol := do
  let members ← json.members?
  return {
    name := ← Json.required members "name" Json.text?
    definition := ← Json.optional members "definition" Json.text?
  }

end GroupSymbol

namespace ElementSymbol

def fullName (element : ElementSymbol) : String :=
  element.group.resolvedName ++ "." ++ element.name

def display (element : ElementSymbol) : String := element.group.name ++ "." ++ element.name

def toJson (element : ElementSymbol) : Json :=
  .object [("group", element.group.toJson), ("name", .string element.name),
    ("data_type", element.dataType.toJson)]

def ofJson? (json : Json) : Option ElementSymbol := do
  let members ← json.members?
  return {
    group := ← Json.required members "group" GroupSymbol.ofJson?
    name := ← Json.required members "name" Json.text?
    dataType := ← Json.required members "data_type" DataType.ofJson?
  }

end ElementSymbol

end FederatedQuery
