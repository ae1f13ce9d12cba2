import FederatedQuery.CapabilitiesFinder
import FederatedQuery.Catalog
import FederatedQuery.Pushdown.Federation

/-!
Federations described in JSON.

A description lists what to declare, one declaration after the other: models,
groups and columns of a catalog, and what the source of every model supports.
Members that are absent or null declare nothing.
-/

namespace FederatedQuery

namespace Catalog

def elementNamed (group name : String) : ElementSymbol := ⟨.named group, name, .string⟩

def setSearchabilityOf? (catalog : Catalog) : Json → Option Catalog
  | .array [group, name, value] => do
      return catalog.setSearchability (elementNamed (← group.text?) (← name.text?))
        (← Searchability.ofJson? value)
  | _ => none

def described? (json : Json) : Option Catalog := do
  let members ← json.members?
  let base ← Json.optional members "base" Json.text?
  let models ← Json.listed members "models" (Json.pair? Json.text? Json.bool?)
  let groups ← Json.listed members "groups" (Json.pair? Json.text? Json.text?)
  let searchability ← Json.listed members "searchability" some
  let broken ← Json.listed members "broken" (Json.pair? Json.text? Json.text?)
  let start := if base = some "empty" then empty else twoSources
  let withModels := models.foldl (fun catalog (name, isVirtual) =>
    catalog.addModel name isVirtual) start
  let withGroups := groups.foldl (fun catalog (group, model) =>
    catalog.addGroup group model) withModels
  let declared ← searchability.foldlM setSearchabilityOf? withGroups
  return broken.foldl (fun catalog (group, name) =>
    catalog.breakElement (elementNamed group name)) declared

end Catalog

namespace Translator

def convertsOf? : Option Json → Option (DataType → DataType → Bool)
  | none | some (.string "none") => some fun _ _ => false
  | some (.string "all") => some fun _ _ => true
  | some (.string "implicit") => some DataType.convertsImplicitly
  | some json => do
      let pairs ← Json.listOf (Json.pair? DataType.ofJson? DataType.ofJson?) json
      return fun source target => pairs.contains (source, target)

def described? (json : Json) : Option Translator := do
  let members ← json.members?
  let patterns ← Json.listed members "formats" (Json.pair? Json.text? PatternKind.ofJson?)
  return {
    converts := ← convertsOf? (← Json.optional members "convert" some)
    acceptsPattern := fun pattern kind => patterns.contains (pattern, kind)
  }

end Translator

namespace SourceCapabilities

def switch? {α : Type} (decode : Json → Option α) : Json → Option (α × Bool)
  | .array [name, on] => Json.pair? decode Json.bool? (.array [name, on])
  | json => (decode json).map (·, true)

def declare? (record : SourceCapabilities) (json : Json) : Option SourceCapabilities := do
  let members ← json.members?
  let all ← Json.flag members "all"
  let flags ← Json.listed members "caps" (switch? Capability.ofJson?)
  let functions ← Json.listed members "functions" (switch? Json.text?)
  let properties ← Json.listed members "props" (Json.pair? Capability.ofJson? Value.ofJson?)
  let translator ← Json.optional members "translator" Translator.described?
  let declared :=
    if all then Capability.all.foldl (·.setSupport · true) record else record
  let withFlags := flags.foldl (fun record (capability, on) =>
    record.setSupport capability on) declared
  let withFunctions := functions.foldl (fun record (name, on) =>
    record.setFunction name on) withFlags
  let withProperties := properties.foldl (fun record (key, value) =>
    record.setProperty key value) withFunctions
  return match translator with
    | some translator => withProperties.bindTranslator translator
    | none => withProperties

end SourceCapabilities

section

variable (record? : Json → Option SourceCapabilities)

def CapabilitiesRegistry.described? (json : Json) : Option CapabilitiesRegistry := do
  let members ← json.members?
  let sources := (← Json.optional members "sources" Json.members?).getD []
  let registry ← sources.foldlM (fun (registry : CapabilitiesRegistry) (model, json) => do
    return registry.insert model (← record? json)) .empty
  match ← Json.optional members "default" record? with
  | some record => return registry.setFallback record
  | none => return registry

def CapabilitiesRegistry.describedFinder? (json : Json) : Option CapabilitiesFinder := do
  let registry ← described? record? json
  let failing ← Json.listed (← json.members?) "fail" Json.text?
  return fun model =>
    if failing.contains model then .error (.metadata s!"capabilities of '{model}' unavailable")
    else registry.toFinder model

def Federation.described? (json : Json) : Option Federation := do
  let members ← json.members?
  let catalog ← Json.optional members "metadata" Catalog.described?
  let finder ←
    Json.optional members "finder" (CapabilitiesRegistry.describedFinder? record?)
  return {
    metadata := (catalog.getD .twoSources).toMetadata
    finder := finder.getD CapabilitiesRegistry.empty.toFinder
  }

end

end FederatedQuery
