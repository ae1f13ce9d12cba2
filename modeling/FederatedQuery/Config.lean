import FederatedQuery.Error
import FederatedQuery.Json.Decode
import FederatedQuery.Json.Parser
import FederatedQuery.Json.Printer

/-!
Settings of planning and their JSON text.

A missing section or setting takes its default.  Reading a text also checks the
ranges, so every configuration that was read is valid.
-/

namespace FederatedQuery

structure OptimizerConfig where
  maxRuleExecutions : UInt64 := 100
  enableTrace : Bool := false
  recordDebug : Bool := false
  deriving BEq

structure DependentJoinConfig where
  independentCardinalityThreshold : Float := 10
  deriving BEq

structure Config where
  optimizer : OptimizerConfig := {}
  dependentJoin : DependentJoinConfig := {}
  deriving BEq

namespace OptimizerConfig

def withMaxRuleExecutions (config : OptimizerConfig) (most : UInt64) : OptimizerConfig :=
  { config with maxRuleExecutions := most }

def withTrace (config : OptimizerConfig) (enable : Bool) : OptimizerConfig :=
  { config with enableTrace := enable }

def withRecordDebug (config : OptimizerConfig) (enable : Bool) : OptimizerConfig :=
  { config with recordDebug := enable }

def toJson (config : OptimizerConfig) : Json :=
  .object [("max_rule_executions", .int config.maxRuleExecutions.toNat),
    ("enable_trace", .bool config.enableTrace), ("record_debug", .bool config.recordDebug)]

def fields : List String := ["max_rule_executions", "enable_trace", "record_debug"]

def ofJson? (json : Json) : Option OptimizerConfig := do
  let members ← json.fields? fields
  let default : OptimizerConfig := {}
  return {
    maxRuleExecutions := ← Json.defaulted members "max_rule_executions"
      default.maxRuleExecutions fun value => value.word?.map UInt64.ofNat
    enableTrace := ← Json.defaulted members "enable_trace" default.enableTrace Json.bool?
    recordDebug := ← Json.defaulted members "record_debug" default.recordDebug Json.bool?
  }

end OptimizerConfig

namespace DependentJoinConfig

def withThreshold (config : DependentJoinConfig) (threshold : Float) : DependentJoinConfig :=
  { config with independentCardinalityThreshold := threshold }

def toJson (config : DependentJoinConfig) : Json :=
  .object [("independent_cardinality_threshold", .float config.independentCardinalityThreshold)]

def fields : List String := ["independent_cardinality_threshold"]

def ofJson? (json : Json) : Option DependentJoinConfig := do
  let members ← json.fields? fields
  let default : DependentJoinConfig := {}
  return {
    independentCardinalityThreshold := ← Json.defaulted members
      "independent_cardinality_threshold" default.independentCardinalityThreshold Json.float?
  }

end DependentJoinConfig

namespace Config

def toJson (config : Config) : Json :=
  .object [("optimizer", config.optimizer.toJson),
    ("dependent_join", config.dependentJoin.toJson)]

def fields : List String := ["optimizer", "dependent_join"]

def ofJson? (json : Json) : Option Config := do
  let members ← json.fields? fields
  let default : Config := {}
  return {
    optimizer := ← Json.defaulted members "optimizer" default.optimizer OptimizerConfig.ofJson?
    dependentJoin := ← Json.defaulted members "dependent_join" default.dependentJoin
      DependentJoinConfig.ofJson?
  }

/-- The ranges: at least one execution, and a threshold that is no negative number. -/
def validate (config : Config) : Except PlanError Unit := do
  if config.optimizer.maxRuleExecutions = 0 then
    throw (.invalidParameter "optimizer.max_rule_executions must be at least 1")
  let threshold := config.dependentJoin.independentCardinalityThreshold
  if !threshold.isFinite || threshold < 0 then
    throw (.invalidParameter ("dependent_join.independent_cardinality_threshold must be a " ++
      "non-negative number, got " ++ Decimal.render .plain threshold))

def parse (text : String) : Except PlanError Config := do
  let some config := (Json.parse text).bind ofJson?
    | throw (.malformedJson "not a configuration")
  config.validate
  return config

def render (config : Config) : String := config.toJson.pretty

end Config

end FederatedQuery
