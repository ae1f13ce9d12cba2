import FederatedQuery.Metadata
import FederatedQuery.OrderedMap

/-!
Metadata kept in memory.

Groups are known by their resolved names, elements by their full names.  An
element of a known group is searchable unless something else has been declared,
and its look-up can be made to fail.
-/

namespace FederatedQuery

structure Catalog where
  models : OrderedMap String Bool
  groups : OrderedMap String ModelId
  searchability : OrderedMap String Searchability
  brokenElements : List String

namespace Catalog

def empty : Catalog := ⟨.empty, .empty, .empty, []⟩

def addModel (catalog : Catalog) (name : String) (isVirtual : Bool) : Catalog :=
  { catalog with models := catalog.models.insert name isVirtual }

def addGroup (catalog : Catalog) (group model : String) : Catalog :=
  { catalog with groups := catalog.groups.insert group ⟨model⟩ }

def setSearchability (catalog : Catalog) (element : ElementSymbol)
    (searchability : Searchability) : Catalog :=
  { catalog with searchability := catalog.searchability.insert element.fullName searchability }

def breakElement (catalog : Catalog) (element : ElementSymbol) : Catalog :=
  { catalog with brokenElements := element.fullName :: catalog.brokenElements }

def twoSources : Catalog :=
  let withModels := ((empty.addModel "pm1" false).addModel "pm2" false).addModel "vm1" true
  [("pm1.g1", "pm1"), ("pm1.g2", "pm1"), ("pm2.g1", "pm2"), ("pm2.g2", "pm2"),
    ("vm1.g1", "vm1")].foldl (fun catalog (group, model) => catalog.addGroup group model) withModels

def modelOf (catalog : Catalog) (group : GroupSymbol) : Except PlanError ModelId :=
  match catalog.groups.get? group.resolvedName with
  | some model => .ok model
  | none => .error (.metadata s!"group '{group.resolvedName}' has no model")

def isVirtual (catalog : Catalog) (model : ModelId) : Except PlanError Bool :=
  match catalog.models.get? model.name with
  | some isVirtual => .ok isVirtual
  | none => .error (.metadata s!"unknown model '{model.name}'")

def fullName (catalog : Catalog) (model : ModelId) : Except PlanError String :=
  (catalog.isVirtual model).map fun _ => model.name

def searchabilityOf (catalog : Catalog) (element : ElementSymbol) :
    Except PlanError Searchability := do
  let name := element.fullName
  if catalog.brokenElements.contains name then
    throw (.metadata s!"searchability of '{name}' is unavailable")
  if (catalog.groups.get? element.group.resolvedName).isNone then
    throw (.metadata s!"element '{name}' belongs to an unknown group")
  return (catalog.searchability.get? name).getD .searchable

def toMetadata (catalog : Catalog) : Metadata where
  modelOf := catalog.modelOf
  fullName := catalog.fullName
  isVirtual := catalog.isVirtual
  searchability := catalog.searchabilityOf

end Catalog

end FederatedQuery
