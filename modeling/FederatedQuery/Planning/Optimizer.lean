import FederatedQuery.Config
import FederatedQuery.Plan.Explain
import FederatedQuery.Planning.ChooseDependent
import FederatedQuery.Planning.CleanCriteria
import FederatedQuery.Planning.PushSelect

/-!
Running rules from a stack until none is left.

Rules may push others, so the configuration sets a budget of executions.  What
happened is told by the session: how many executions there were, how many changed
the plan, and, if tracing is on, the plan before and after each of those.
-/

namespace FederatedQuery

structure OptimizedPlan where
  plan : Plan
  executions : Nat
  applied : Nat
  trace : List TraceEntry
  analysis : AnalysisRecord

namespace TraceEntry

def ofExecution (execution : Execution) : TraceEntry :=
  ⟨execution.title, execution.before.explain, execution.after.explain, execution.changed⟩

def toJson (entry : TraceEntry) : Json :=
  .object [("rule", .string entry.rule), ("before", .string entry.before),
    ("after", .string entry.after), ("changed", .bool entry.changed)]

def ofJson? (json : Json) : Option TraceEntry := do
  let members ← json.members?
  return {
    rule := ← Json.required members "rule" Json.text?
    before := ← Json.required members "before" Json.text?
    after := ← Json.required members "after" Json.text?
    changed := ← Json.required members "changed" Json.bool?
  }

def display (position : Nat) (entry : TraceEntry) : String :=
  s!"\n--- Rule {position} applied: {entry.rule} ---\n" ++
    "Before:\n" ++ Text.indent entry.before "  " ++
    "\nAfter:\n" ++ Text.indent entry.after "  "

end TraceEntry

namespace OptimizedPlan

def formatTrace (executions applied : Nat) (trace : List TraceEntry) : String :=
  s!"Optimization ran {executions} rules, {applied} changed the plan\n" ++
    if trace.isEmpty then "  (no trace available)\n"
    else String.join (((trace.filter (·.changed)).zipIdx 1).map fun (entry, position) =>
      entry.display position)

def display (result : OptimizedPlan) : String :=
  formatTrace result.executions result.applied result.trace

def toJson (result : OptimizedPlan) : Json :=
  .object [
    ("executions", .int result.executions), ("applied", .int result.applied),
    ("trace", .array (result.trace.map TraceEntry.toJson)),
    ("analysis", .array (result.analysis.lines.map .string)),
    ("format_trace", .string result.display), ("explain", .string result.plan.explain)]

def ofSession (session : Session) : OptimizedPlan where
  plan := session.plan
  executions := session.executions.length
  applied := (session.executions.filter (·.changed)).length
  trace := session.trace
  analysis := session.report.analysis

end OptimizedPlan

structure Optimizer where
  rules : RuleName → Option Rule
  config : Config

namespace Optimizer

def empty (config : Config) : Optimizer := ⟨fun _ => none, config⟩

def standard (config : Config) : Optimizer where
  rules
    | .chooseDependent => some FederatedQuery.chooseDependent
    | .cleanCriteria => some FederatedQuery.cleanCriteria
    | .pushSelectCriteria => some FederatedQuery.pushSelectCriteria
  config := config

def register (optimizer : Optimizer) (name : RuleName) (rule : Rule) : Optimizer :=
  { optimizer with rules := fun other => if other = name then some rule else optimizer.rules other }

def context (optimizer : Optimizer) (federation : Federation) (oracle : CostOracle) :
    PlanningContext :=
  ⟨federation, oracle, optimizer.config⟩

def runRule (optimizer : Optimizer) (context : PlanningContext) (name : RuleName) :
    Planning Unit := do
  let some rule := optimizer.rules name
    | throw (.internal s!"no rule registered for {name.text}")
  let before ← Planning.plan
  let drawing? := if optimizer.config.optimizer.enableTrace then some before.explain else none
  let changed ← rule.execute context
  let after ← Planning.plan
  Planning.finish ⟨name, rule.name, before, after, changed⟩
  if changed then
    let number := (← get).executions.length
    Planning.inquire (.debug s!"Rule '{rule.name}' changed the plan (execution {number})")
    if let some drawing := drawing? then
      Planning.keepEntry ⟨rule.name, drawing, after.explain, true⟩

/-- Pops and runs rules until none is left or the budget is used up. -/
def runWithin (optimizer : Optimizer) (context : PlanningContext) : Nat → Planning Unit
  | 0 => do
      let pending := (← get).pending
      let most := optimizer.config.optimizer.maxRuleExecutions
      if !pending.isEmpty then
        Planning.inquire (.report (.log .warn
          (s!"Optimizer reached max rule executions ({most}), " ++
            s!"{pending.length} rules left unexecuted")))
  | budget + 1 => do
      match (← get).pending.pop? with
      | none => return
      | some (name, rest) =>
          Planning.setPending rest
          runRule optimizer context name
          runWithin optimizer context budget

def run (optimizer : Optimizer) (federation : Federation) (oracle : CostOracle) :
    Planning OptimizedPlan := do
  Planning.openRecords optimizer.config.optimizer.recordDebug
  runWithin optimizer (optimizer.context federation oracle)
    optimizer.config.optimizer.maxRuleExecutions.toNat
  return .ofSession (← get)

def optimize (optimizer : Optimizer) (federation : Federation) (oracle : CostOracle)
    (plan : Plan) (pending : RuleStack) : Except PlanError OptimizedPlan :=
  match optimizer.run federation oracle (.start plan pending 0) with
  | .ok result _ => .ok result
  | .error error _ => .error error

end Optimizer

def ordinaryRules : RuleStack := RuleStack.empty.push .chooseDependent

end FederatedQuery
