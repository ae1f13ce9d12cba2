import FederatedQuery.Decimal.Style
import FederatedQuery.Plan.Search
import FederatedQuery.Planning.Session

/-!
Making joins dependent.

A dependent join evaluates one input first and feeds its join values to the
other input as the values of IN predicates.  The rule looks for joins where that
is legal, decides which input, if any, becomes dependent, and changes the plan:
every pair of equal expressions puts a filter above the dependent input, which
ends up on the right.

Candidates are collected before anything is changed.  For each of them the
decision is made by an inquiry, and only then the plan is changed.
-/

namespace FederatedQuery

inductive Ineligibility where
  | joinType
  | noCriteria
  | noEqualities
  | outerSide
  | alreadyDependent
  deriving DecidableEq, Repr

def Ineligibility.reason : Ineligibility → String
  | .joinType => "parent join is CROSS or FULL OUTER"
  | .noCriteria => "parent join has no join criteria"
  | .noEqualities => "parent join has no equality expressions"
  | .outerSide => "it is on outer side of a join"
  | .alreadyDependent => "parent join is already dependent"

structure CandidateJoin where
  join : NodeId
  left : Bool
  right : Bool
  deriving DecidableEq, Repr

/-- What is to be done with a candidate; inputs are given by their nodes. -/
inductive Decision where
  | leave
  | convert (dependent : NodeId)
  | compareCosts (dependent : NodeId) (dependentCost ordinaryCost : Float)

namespace ChooseDependent

/-- The first reason against making `child` the dependent input of a join. -/
def ineligibility? (plan : Plan) (joinId child : NodeId) (join : JoinNode) :
    Option Ineligibility :=
  if join.joinType = .cross ∨ join.joinType = .fullOuter then some .joinType
  else if join.criteria.isEmpty then some .noCriteria
  else if join.leftExprs.isEmpty then some .noEqualities
  else if join.joinType.isOuter ∧ plan.innerSide? joinId ≠ some child then some .outerSide
  else if join.valueSource.isSome then some .alreadyDependent
  else none

/-- An input of a join, by position, that reads from an access without a hint against it. -/
structure Input where
  child : NodeId
  isLast : Bool
  source : NodeId

def input? (plan : Plan) (child : NodeId) (isLast : Bool) : Option Input :=
  let source := plan.sourceOf child
  match plan.access? source with
  | some access => if access.makeNotDependent then none else some ⟨child, isLast, source⟩
  | none => none

def inputs (plan : Plan) (join : NodeId) : List Input :=
  let children := plan.children join
  children.zipIdx.filterMap fun (child, position) =>
    input? plan child (position + 1 == children.length)

def rejectionEvents (plan : Plan) (source : NodeId) (cause : Ineligibility) : List Event :=
  let described := plan.describe source
  [.log .debug s!"Rejecting {described} for dependent join: {cause.reason}",
    .decision s!"Rejecting dependent access node as {cause.reason}: {described}"]

def survey (plan : Plan) (joinId : NodeId) : CandidateJoin × List Event :=
  match plan.join? joinId with
  | none => (⟨joinId, false, false⟩, [])
  | some join =>
      (inputs plan joinId).foldl (fun (candidate, events) input =>
        match ineligibility? plan joinId input.child join with
        | some cause => (candidate, events ++ rejectionEvents plan input.source cause)
        | none =>
            if input.isLast then ({ candidate with right := true }, events)
            else ({ candidate with left := true }, events)) (⟨joinId, false, false⟩, [])

def joins (plan : Plan) : List NodeId := plan.findAll plan.root [.join] [.access]

def surveys (plan : Plan) : List (CandidateJoin × List Event) := (joins plan).map (survey plan)

def candidates (plan : Plan) : List CandidateJoin :=
  ((surveys plan).map (·.1)).filter fun candidate => candidate.left || candidate.right

/--
Decides by need or by hint.  Access patterns of one input alone force that input
to be dependent; then a hint decides, that of the first input before that of the
second.  The second input is given only when it is a candidate too.
-/
def chooseByNeed (plan : Plan) (first : NodeId) (second : Option NodeId) :
    Inquiry (Option NodeId) := do
  let firstSource := plan.sourceOf first
  let firstAccess := plan.access? firstSource
  let secondSource := second.map plan.sourceOf
  let secondAccess := secondSource.bind plan.access?
  let secondText := (secondSource.map plan.describe).getD ""
  let firstNeeds := firstAccess.any (·.hasUnsatisfiedPatterns)
  let secondNeeds := secondAccess.any (·.hasUnsatisfiedPatterns)
  if firstNeeds && secondNeeds then
    Inquiry.decision ("Neither access node can be made dependent because both have unsatisfied " ++
      s!"access patterns: {plan.describe firstSource} {secondText}")
    return none
  else if firstNeeds then
    return some first
  else if secondNeeds then
    Inquiry.decision s!"Making access node dependent to satisfy access pattern: {secondText}"
    return second
  else if firstAccess.any (·.makeDependent) then
    Inquiry.decision s!"Making access node dependent due to hint: {plan.describe firstSource}"
    return some first
  else if secondAccess.any (·.makeDependent) then
    Inquiry.decision s!"Making access node dependent due to hint: {secondText}"
    return second
  else
    return none

def cheaper (first second : NodeId) (firstCost secondCost : Option Float) :
    Option (NodeId × NodeId × Float) :=
  match firstCost, secondCost with
  | some firstCost, some secondCost =>
      if secondCost < firstCost then some (second, first, secondCost)
      else some (first, second, firstCost)
  | none, some secondCost => some (second, first, secondCost)
  | some firstCost, none => some (first, second, firstCost)
  | none, none => none

def chooseBySize (threshold : Float) (both : Bool) (first second : NodeId)
    (firstRows secondRows : Option Float) : Option NodeId :=
  let firstIsSmall :=
    match firstRows with
    | some firstRows =>
        both && firstRows < threshold && secondRows.all fun secondRows => firstRows < secondRows
    | none => false
  if firstIsSmall then some second
  else
    match secondRows with
    | some secondRows => if secondRows < threshold then some first else none
    | none => none

/-- Decides by the costs of the dependent joins, or by sizes when none is known. -/
def compare (context : PlanningContext) (plan : Plan) (candidate : CandidateJoin)
    (strategy : JoinStrategy) (first second : NodeId) (firstCost secondCost : Option Float) :
    Inquiry Decision := do
  let oracle := context.oracle
  let join := candidate.join
  match cheaper first second firstCost secondCost with
  | some (dependent, independent, cost) =>
      let ordinary ← Inquiry.joinCost oracle plan independent dependent strategy
      Inquiry.debug (s!"Join #{join}: dependent cost {Decimal.render .plain cost}, " ++
        s!"ordinary cost {Decimal.render .plain ordinary}")
      Inquiry.decision (s!"Dependent join cost {Decimal.render .plain cost} versus join cost " ++
        s!"{Decimal.render .plain ordinary} for {plan.describe join}")
      return .compareCosts dependent cost ordinary
  | none =>
      let firstRows ← Inquiry.subtreeCost oracle plan first
      let secondRows ← Inquiry.subtreeCost oracle plan second
      let both := candidate.left && candidate.right
      match chooseBySize context.threshold both first second firstRows secondRows with
      | some dependent =>
          Inquiry.decision s!"Making {plan.describe dependent} dependent as its sibling is small"
          return .convert dependent
      | none =>
          Inquiry.debug s!"No dependent join chosen for {plan.describe join}"
          return .leave

def decideByCost (context : PlanningContext) (plan : Plan) (candidate : CandidateJoin)
    (strategy : JoinStrategy) (first second : NodeId) : Inquiry Decision := do
  let oracle := context.oracle
  let join := candidate.join
  let firstSide : Side := if candidate.left then .left else .right
  let firstCost ← Inquiry.dependentJoinCost oracle plan join firstSide strategy
  if candidate.left && candidate.right then
    let secondCost ← Inquiry.dependentJoinCost oracle plan join .right strategy
    compare context plan candidate strategy first second firstCost secondCost
  else
    compare context plan candidate strategy first second firstCost none

def decide (context : PlanningContext) (plan : Plan) (candidate : CandidateJoin) :
    Inquiry Decision := do
  let join := candidate.join
  let (some left, some right) := (plan.firstChild? join, plan.lastChild? join)
    | throw (.internal s!"join #{join} has no inputs")
  let some payload := plan.join? join
    | throw (.internal s!"node #{join} is not a join")
  let (first, second) := if candidate.left then (left, right) else (right, left)
  let both := candidate.left && candidate.right
  match ← chooseByNeed plan first (if both then some second else none) with
  | some dependent => return .convert dependent
  | none => decideByCost context plan candidate payload.strategy first second

def dependentSets (valueSource : String) (dependent independent : List Expr) : List Criteria :=
  (dependent.zip independent).map fun (expr, valueExpr) =>
    .dependentSet expr valueSource valueExpr

def stackFilters (plan : Plan) (node : NodeId) : List Criteria → Plan
  | [] => plan
  | criteria :: rest =>
      let (plan, top) := plan.addAsParent node (.select ⟨criteria, true⟩)
      stackFilters plan top rest

def attachFilters (plan : Plan) (joinId : NodeId) (join : JoinNode) (dependentRoot : NodeId)
    (valueSource : String) (dependent independent : List Expr) : Plan :=
  let marked := plan.setKind joinId (.join { join with valueSource := some valueSource })
  stackFilters marked dependentRoot (dependentSets valueSource dependent independent)

def valueSourceName (number : Nat) : String := s!"$dsc/id{number}"

/-- Makes an input dependent; a join without independent expressions stays as it is. -/
def convert (joinId dependentRoot : NodeId) : Planning Bool := do
  let plan ← Planning.plan
  let some join := plan.join? joinId
    | throw (.internal s!"node #{joinId} is not a join")
  let isLeft := plan.firstChild? joinId == some dependentRoot
  let (independent, dependent) :=
    if isLeft then (join.rightExprs, join.leftExprs) else (join.leftExprs, join.rightExprs)
  if independent.isEmpty then
    return false
  let valueSource := valueSourceName (← Planning.takeValueSource)
  let attached := attachFilters plan joinId join dependentRoot valueSource dependent independent
  Planning.setPlan attached
  if isLeft then
    Planning.edit (Plan.swapJoinChildren joinId)
  Planning.inquire (.debug
    (s!"Made {(← Planning.plan).describe dependentRoot} dependent " ++
      s!"with value source {valueSource}"))
  return true

def recordCosts (plan : Plan) (joinId : NodeId) (join : JoinNode) (dependent ordinary : Float) :
    Plan :=
  plan.setKind joinId
    (.join { join with dependentCost := some dependent, ordinaryCost := some ordinary })

def settle (context : PlanningContext) (candidate : CandidateJoin) : Planning Bool := do
  let plan ← Planning.plan
  match ← Planning.inquire (decide context plan candidate) with
  | .leave => return false
  | .convert dependent => convert candidate.join dependent
  | .compareCosts dependent cost ordinary =>
      if let some join := plan.join? candidate.join then
        Planning.setPlan (recordCosts plan candidate.join join cost ordinary)
      if cost < ordinary then convert candidate.join dependent else return false

def settleAll (context : PlanningContext) : List CandidateJoin → Planning Bool
  | [] => return false
  | candidate :: rest => do
      let converted ← settle context candidate
      let others ← settleAll context rest
      return converted || others

/--
The whole rule.  After a conversion the two rules for filters are to run, cleaning
first, so that no filter is pushed that cleaning would remove.
-/
def execute (context : PlanningContext) : Planning Bool := do
  let plan ← Planning.plan
  Planning.inquire (Inquiry.reportAll ((surveys plan).flatMap (·.2)))
  let converted ← settleAll context (candidates plan)
  if converted then
    Planning.push .pushSelectCriteria
    Planning.push .cleanCriteria
  return converted

end ChooseDependent

def chooseDependent : Rule where
  name := RuleName.chooseDependent.text
  description := "Makes one input of an equi-join dependent on the values of the other"
  execute := ChooseDependent.execute

end FederatedQuery
