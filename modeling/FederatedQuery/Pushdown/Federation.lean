import FederatedQuery.CapabilitiesFinder
import FederatedQuery.Language.Typing
import FederatedQuery.Metadata

/-!
A federation: the metadata of all models with the capability records of the
sources behind them, and the questions asked of a model.

A virtual model, and a model without a record, supports nothing.
-/

namespace FederatedQuery

def AggregateCall.capability (call : AggregateCall) : Capability :=
  match call.function, call.arg with
  | .count, none => .queryAggregatesCountStar
  | .count, some _ => .queryAggregatesCount
  | .sum, _ => .queryAggregatesSum
  | .avg, _ => .queryAggregatesAvg
  | .min, _ => .queryAggregatesMin
  | .max, _ => .queryAggregatesMax

namespace SourceCapabilities

def supportsAggregate (record : SourceCapabilities) (call : AggregateCall) : Bool :=
  record.supports .queryAggregates && record.supports call.capability &&
    (!call.distinct || record.supports .queryAggregatesDistinct)

/--
A function that runs only at the source is taken as it is.  Any other has to be
listed, and its conversion or its literal pattern confirmed.
-/
def supportsCall (record : SourceCapabilities) (call : FunctionCall) : Bool :=
  call.pushdown == .must ||
    record.supportsFunction call.name &&
      match call.conversionTypes?, call.literalPattern? with
      | some (source, target), _ => record.supportsConvert source target
      | none, some (pattern, kind) => record.supportsPattern pattern kind
      | none, none => true

end SourceCapabilities

structure Federation where
  metadata : Metadata
  finder : CapabilitiesFinder

namespace Federation

def recordOf (federation : Federation) (model : ModelId) :
    Except PlanError (Option SourceCapabilities) := do
  if ← federation.metadata.isVirtual model then
    return none
  federation.finder (← federation.metadata.fullName model)

def supports (federation : Federation) (capability : Capability) (model : ModelId) :
    Except PlanError Bool := do
  return (← federation.recordOf model).any (·.supports capability)

def supportsAggregate (federation : Federation) (call : AggregateCall) (model : ModelId) :
    Except PlanError Bool := do
  return (← federation.recordOf model).any (·.supportsAggregate call)

def supportsCall (federation : Federation) (call : FunctionCall) (model : ModelId) :
    Except PlanError Bool := do
  return (← federation.recordOf model).any (·.supportsCall call)

def shareConnector (first second : Option SourceCapabilities) : Bool :=
  match first.bind (·.connectorId?), second.bind (·.connectorId?) with
  | some first, some second => first == second
  | _, _ => false

/--
Whether one connector serves both models.  It does when they are the same
physical model, or when their records name the same connector.
-/
def sameConnector (federation : Federation) (first second : ModelId) : Except PlanError Bool := do
  if ← federation.metadata.isVirtual first then
    return false
  if ← federation.metadata.isVirtual second then
    return false
  if first = second then
    return true
  let firstRecord ← federation.recordOf first
  let secondRecord ← federation.recordOf second
  return shareConnector firstRecord secondRecord

end Federation

end FederatedQuery
