import FederatedQuery.Config
import FederatedQuery.Cost.Oracle
import FederatedQuery.Plan.Surgery
import FederatedQuery.Pushdown.Validation
import FederatedQuery.Planning.Analysis
import FederatedQuery.Planning.RuleStack
import FederatedQuery.Text.Lines

/-!
The state that planning rules work on, and what they report while they do.

A session holds the plan, the rules that wait, the number of the next value
source, the report so far, and the executions of rules that ended.  An error ends
a rule but not the session: what was changed before it stays changed.

A report has the events in their order, and the record of decisions, which keeps
lines only while it is on.  Questions are asked in a computation of their own, an
inquiry, which adds to the report but cannot touch the plan.
-/

namespace FederatedQuery

inductive LogLevel where
  | trace
  | debug
  | warn
  deriving DecidableEq, Repr

def LogLevel.name : LogLevel → String
  | .trace => "TRACE"
  | .debug => "DEBUG"
  | .warn => "WARN"

inductive OracleQuestion where
  | subtree (node : NodeId)
  | dependentJoin (join : NodeId) (side : Side) (strategy : JoinStrategy)
  | join (independent dependent : NodeId) (strategy : JoinStrategy)
  deriving DecidableEq, Repr

def OracleQuestion.display : OracleQuestion → String
  | .subtree node => s!"subtree {NodeId.display node}"
  | .dependentJoin node side strategy =>
      s!"dependent {NodeId.display node} {side.name} {strategy.tag}"
  | .join independent dependent strategy =>
      s!"join {NodeId.display independent} {NodeId.display dependent} {strategy.tag}"

inductive Event where
  | log (level : LogLevel) (text : String)
  | decision (line : String)
  | question (question : OracleQuestion)
  deriving DecidableEq, Repr

def Event.logLine? : Event → Option String
  | .log level text => some s!"{level.name} {text}"
  | .decision _ | .question _ => none

def Event.question? : Event → Option OracleQuestion
  | .question asked => some asked
  | .log _ _ | .decision _ => none

structure Execution where
  rule : RuleName
  title : String
  before : Plan
  after : Plan
  changed : Bool

structure TraceEntry where
  rule : String
  before : String
  after : String
  changed : Bool
  deriving DecidableEq, Repr

structure Report where
  events : List Event := []
  analysis : AnalysisRecord := .empty false

namespace Report

def note (report : Report) : Event → Report
  | .decision line => { report with analysis := report.analysis.record line }
  | event => { report with events := report.events ++ [event] }

def noteAll (report : Report) (events : List Event) : Report := events.foldl note report

end Report

structure Session where
  plan : Plan
  pending : RuleStack
  nextValueSource : Nat
  report : Report
  executions : List Execution
  trace : List TraceEntry

def Session.start (plan : Plan) (pending : RuleStack) (nextValueSource : Nat) : Session :=
  ⟨plan, pending, nextValueSource, {}, [], []⟩

def Session.opened (session : Session) (recordDebug : Bool) : Session :=
  { session with
    report := { session.report with analysis := .empty recordDebug }
    trace := [] }

structure PlanningContext where
  federation : Federation
  oracle : CostOracle
  config : Config

def PlanningContext.threshold (context : PlanningContext) : Float :=
  context.config.dependentJoin.independentCardinalityThreshold

abbrev Inquiry := EStateM PlanError Report

namespace Inquiry

def report (event : Event) : Inquiry Unit := modify (·.note event)

def reportAll (events : List Event) : Inquiry Unit := modify (·.noteAll events)

def debug (text : String) : Inquiry Unit := report (.log .debug text)

def decision (line : String) : Inquiry Unit := report (.decision line)

def ofExcept {α : Type} : Except PlanError α → Inquiry α
  | .ok value => pure value
  | .error error => throw error

/-- Reports a question before its answer is used. -/
def ask {α : Type} (question : OracleQuestion) (answer : Except PlanError α) : Inquiry α := do
  report (.question question)
  ofExcept answer

def subtreeCost (oracle : CostOracle) (plan : Plan) (node : NodeId) : Inquiry (Option Float) :=
  ask (.subtree node) (oracle.subtreeCost plan node)

def dependentJoinCost (oracle : CostOracle) (plan : Plan) (join : NodeId) (side : Side)
    (strategy : JoinStrategy) : Inquiry (Option Float) :=
  ask (.dependentJoin join side strategy) (oracle.dependentJoinCost plan join side strategy)

def joinCost (oracle : CostOracle) (plan : Plan) (independent dependent : NodeId)
    (strategy : JoinStrategy) : Inquiry Float :=
  ask (.join independent dependent strategy) (oracle.joinCost plan independent dependent strategy)

end Inquiry

abbrev Planning := EStateM PlanError Session

namespace Planning

def plan : Planning Plan := return (← get).plan

def setPlan (plan : Plan) : Planning Unit := modify fun session => { session with plan := plan }

def setPending (pending : RuleStack) : Planning Unit :=
  modify fun session => { session with pending := pending }

def push (rule : RuleName) : Planning Unit :=
  modify fun session => { session with pending := session.pending.push rule }

/-- Runs an inquiry, keeping what it reports also when it fails. -/
def inquire {α : Type} (inquiry : Inquiry α) : Planning α := fun session =>
  match inquiry session.report with
  | .ok value report => .ok value { session with report := report }
  | .error error report => .error error { session with report := report }

/-- Changes the plan by a step, keeping what the step leaves also when it fails. -/
def edit {α : Type} (step : PlanStep α) : Planning α := fun session =>
  match step session.plan with
  | .ok value plan => .ok value { session with plan := plan }
  | .error error plan => .error error { session with plan := plan }

def finish (execution : Execution) : Planning Unit :=
  modify fun session => { session with executions := session.executions ++ [execution] }

def keepEntry (entry : TraceEntry) : Planning Unit :=
  modify fun session => { session with trace := session.trace ++ [entry] }

def openRecords (recordDebug : Bool) : Planning Unit := modify (·.opened recordDebug)

def takeValueSource : Planning Nat :=
  modifyGet fun session =>
    (session.nextValueSource, { session with nextValueSource := session.nextValueSource + 1 })

end Planning

def detailLimit : Nat := 120

def Plan.describe (plan : Plan) (id : NodeId) : String :=
  match plan.kind? id with
  | none => NodeId.display id
  | some kind =>
      match kind.details? with
      | some details =>
          s!"{kind.nodeType.name}#{id} ({Text.truncate details detailLimit})"
      | none => s!"{kind.nodeType.name}#{id}"

structure Rule where
  name : String
  description : String := "No description available"
  execute : PlanningContext → Planning Bool

end FederatedQuery
