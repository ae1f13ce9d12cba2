/-!
The names of planning rules and the stack of rules that wait to be run.
-/

namespace FederatedQuery

inductive RuleName where
  | chooseDependent
  | cleanCriteria
  | pushSelectCriteria
  deriving DecidableEq, Repr

namespace RuleName

def all : List RuleName := [.chooseDependent, .cleanCriteria, .pushSelectCriteria]

def text : RuleName → String
  | .chooseDependent => "ChooseDependent"
  | .cleanCriteria => "CleanCriteria"
  | .pushSelectCriteria => "PushSelectCriteria"

def ofText? (text : String) : Option RuleName := all.find? (·.text == text)

end RuleName

structure RuleStack where
  pending : List RuleName
  deriving DecidableEq, Repr

namespace RuleStack

def empty : RuleStack := ⟨[]⟩

/-- The stack that results from pushing the rules in order: the last one runs first. -/
def ofPushes (rules : List RuleName) : RuleStack := ⟨rules.reverse⟩

def push (stack : RuleStack) (rule : RuleName) : RuleStack := ⟨rule :: stack.pending⟩

def pop? (stack : RuleStack) : Option (RuleName × RuleStack) :=
  match stack.pending with
  | [] => none
  | rule :: rest => some (rule, ⟨rest⟩)

def peek? (stack : RuleStack) : Option RuleName := stack.pending.head?

def isEmpty (stack : RuleStack) : Bool := stack.pending.isEmpty

def length (stack : RuleStack) : Nat := stack.pending.length

def contains (stack : RuleStack) (rule : RuleName) : Bool := stack.pending.contains rule

end RuleStack

end FederatedQuery
