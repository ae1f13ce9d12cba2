import FederatedQuery.Error
import FederatedQuery.SourceCapabilities

/-!
Looking up the capability record of a model by the model's name.

`CapabilitiesRegistry` keeps records in memory, with an optional record for the
models that have none of their own.
-/

namespace FederatedQuery

/-- The record of a model, nothing when the source is unknown, or a failed look-up. -/
abbrev CapabilitiesFinder := String → Except PlanError (Option SourceCapabilities)

structure CapabilitiesRegistry where
  sources : OrderedMap String SourceCapabilities
  fallback : Option SourceCapabilities

namespace CapabilitiesRegistry

def empty : CapabilitiesRegistry := ⟨.empty, none⟩

def insert (registry : CapabilitiesRegistry) (model : String) (record : SourceCapabilities) :
    CapabilitiesRegistry :=
  { registry with sources := registry.sources.insert model record }

def setFallback (registry : CapabilitiesRegistry) (record : SourceCapabilities) :
    CapabilitiesRegistry :=
  { registry with fallback := some record }

def find? (registry : CapabilitiesRegistry) (model : String) : Option SourceCapabilities :=
  registry.sources.get? model <|> registry.fallback

def toFinder (registry : CapabilitiesRegistry) : CapabilitiesFinder := fun model =>
  .ok (registry.find? model)

end CapabilitiesRegistry

end FederatedQuery
