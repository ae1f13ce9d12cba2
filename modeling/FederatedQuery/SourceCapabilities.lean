import FederatedQuery.Capability
import FederatedQuery.OrderedMap
import FederatedQuery.Text.LowerCase
import FederatedQuery.Translator
import FederatedQuery.Value

/-!
What one source can evaluate.

A capability or a function that is not declared is not supported.  Functions are
declared and looked up in lower case.  Questions about conversions and format
patterns go to the translator of the source's connector; while none is bound,
conversions are taken to work and patterns are not.
-/

namespace FederatedQuery

structure SourceCapabilities where
  capabilities : OrderedMap Capability Bool
  functions : OrderedMap String Bool
  properties : OrderedMap Capability Value
  translator : Option Translator

namespace SourceCapabilities

def empty : SourceCapabilities := ⟨.empty, .empty, .empty, none⟩

def supports (record : SourceCapabilities) (capability : Capability) : Bool :=
  (record.capabilities.get? capability).getD false

def supportsFunction (record : SourceCapabilities) (name : String) : Bool :=
  (record.functions.get? (Text.lowerCase name)).getD false

def writeFlag (record : SourceCapabilities) (capability : Capability) (supported : Bool) :
    SourceCapabilities :=
  { record with capabilities := record.capabilities.insert capability supported }

def enableAggregates (record : SourceCapabilities) : SourceCapabilities :=
  ((record.writeFlag .queryAggregates true).writeFlag .queryGroupBy true).writeFlag
    .queryHaving true

/--
Declares a capability.  Turning aggregates on brings GROUP BY and HAVING along;
turning them off does not.
-/
def setSupport (record : SourceCapabilities) (capability : Capability) (supported : Bool) :
    SourceCapabilities :=
  if capability = .queryAggregates ∧ supported then record.enableAggregates
  else record.writeFlag capability supported

def setFunction (record : SourceCapabilities) (name : String) (supported : Bool) :
    SourceCapabilities :=
  { record with functions := record.functions.insert (Text.lowerCase name) supported }

def setProperty (record : SourceCapabilities) (key : Capability) (value : Value) :
    SourceCapabilities :=
  { record with properties := record.properties.insert key value }

def bindTranslator (record : SourceCapabilities) (translator : Translator) : SourceCapabilities :=
  { record with translator := some translator }

def property? (record : SourceCapabilities) (key : Capability) : Option Value :=
  record.properties.get? key

def maxInListSize? (record : SourceCapabilities) : Option Nat := do
  let size ← (← record.property? .maxInCriteriaSize).int64?
  if 0 < size.toInt then some size.toInt.toNat else none

def connectorId? (record : SourceCapabilities) : Option Value :=
  (record.property? .connectorId).filter (!·.isNull)

def supportsConvert (record : SourceCapabilities) (source target : DataType) : Bool :=
  match record.translator with
  | none => true
  | some translator => translator.converts source target

def supportsPattern (record : SourceCapabilities) (pattern : String) (kind : PatternKind) : Bool :=
  match record.translator with
  | none => false
  | some translator => translator.acceptsPattern pattern kind

def displayLines (record : SourceCapabilities) : List String :=
  "SourceCapabilities" ::
    (record.capabilities.toList.map fun (capability, supported) =>
        s!"  {capability.name}: {supported}") ++
    (record.properties.toList.map fun (key, value) => s!"  {key.name} = {value.display}") ++
    record.functions.toList.map fun (name, supported) => s!"  function {name}: {supported}"

def display (record : SourceCapabilities) : String :=
  String.join (record.displayLines.map (· ++ "\n"))

def toJson (record : SourceCapabilities) : Json :=
  .object [
    ("capabilities", .object (record.capabilities.toList.map fun (capability, supported) =>
      (capability.tag, .bool supported))),
    ("functions", .object (record.functions.toList.map fun (name, supported) =>
      (name, .bool supported))),
    ("properties", .object (record.properties.toList.map fun (key, value) =>
      (key.tag, value.toJson)))]

/-- Reads a map; of two members with one key the later one counts. -/
def mapOfJson? {κ ν : Type} [Ord κ] [Std.TransOrd κ] (key? : String → Option κ)
    (value? : Json → Option ν) (json : Json) : Option (OrderedMap κ ν) := do
  let bindings ← (← json.members?).mapM fun (name, value) => do
    return (← key? name, ← value? value)
  return .ofList bindings

def fields : List String := ["capabilities", "functions", "properties"]

/-- Function names are taken as they are written. -/
def ofJson? (json : Json) : Option SourceCapabilities := do
  let members ← json.fields? fields
  return {
    capabilities :=
      ← Json.required members "capabilities" (mapOfJson? Capability.ofTag? Json.bool?)
    functions := ← Json.required members "functions" (mapOfJson? some Json.bool?)
    properties :=
      ← Json.required members "properties" (mapOfJson? Capability.ofTag? Value.ofJson?)
    translator := none
  }

end SourceCapabilities

end FederatedQuery
