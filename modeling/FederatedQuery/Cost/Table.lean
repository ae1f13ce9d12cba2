import FederatedQuery.Cost.Cardinality
import FederatedQuery.Json.Decode

/-!
Oracles with given answers: one that knows nothing, and one that looks every
question up in a table.

A table is described in JSON by an object for each kind of question.  A question
is named by the nodes that it is about, and answered by a number, by null when
the answer is unknown, or by the word `fail`.
-/

namespace FederatedQuery

def failingOracle : CostOracle :=
  let failure : PlanError := .costEstimation "statistics unavailable"
  ⟨fun _ _ => .error failure, fun _ _ _ _ => .error failure, fun _ _ _ _ => .error failure⟩

inductive TableAnswer where
  | unknown
  | cost (value : Float)
  | failure

def TableAnswer.ofJson? : Json → Option TableAnswer
  | .null => some .unknown
  | .string "fail" => some .failure
  | json => json.number?.map .cost

structure CostTable where
  subtree : List (String × TableAnswer)
  dependent : List (String × TableAnswer)
  join : List (String × TableAnswer)

namespace CostTable

def answer (answers : List (String × TableAnswer)) (question : String) :
    Except PlanError (Option Float) :=
  match answers.lookup question with
  | none | some .unknown => .ok none
  | some (.cost value) => .ok (some value)
  | some .failure => .error (.costEstimation s!"table fails for {question}")

def toOracle (table : CostTable) : CostOracle where
  subtreeCost _ id := answer table.subtree s!"{id}"
  dependentJoinCost _ id side _ := answer table.dependent s!"{id} {side.name}"
  joinCost _ independent dependent _ := do
    let question := s!"{independent} {dependent}"
    match ← answer table.join question with
    | some cost => return cost
    | none => throw (.costEstimation s!"table has no {question}")

def answersOfJson? (json : Json) : Option (List (String × TableAnswer)) := do
  (← json.members?).mapM fun (question, json) => return (question, ← TableAnswer.ofJson? json)

def ofJson? (json : Json) : Option CostTable := do
  let members ← json.members?
  return {
    subtree := (← Json.optional members "subtree" answersOfJson?).getD []
    dependent := (← Json.optional members "dependent" answersOfJson?).getD []
    join := (← Json.optional members "join" answersOfJson?).getD []
  }

end CostTable

def CostOracle.ofJson? (json : Json) : Option CostOracle := do
  match ← Json.optional (← json.members?) "kind" Json.text? with
  | some "failing" => return failingOracle
  | some "table" => return (← CostTable.ofJson? json).toOracle
  | _ => return cardinalityOracle

end FederatedQuery
