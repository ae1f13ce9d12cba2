import FederatedQuery.Planning.Session

/-!
Rules that play a script instead of improving plans.

They serve to try out how rules are run: what is pushed, recorded, counted and
traced, and what an error leaves behind.
-/

namespace FederatedQuery

structure ScriptEntry where
  failure : Option String
  decision : Option String
  newRoot : Option NodeKind
  push : List RuleName
  changed : Bool

def ScriptEntry.play (entry : ScriptEntry) : Planning Bool := do
  if let some detail := entry.failure then
    throw (.internal detail)
  if let some line := entry.decision then
    Planning.inquire (Inquiry.decision line)
  if let some kind := entry.newRoot then
    let plan ← Planning.plan
    Planning.setPlan (plan.addAsParent plan.root kind).1
  for rule in entry.push do
    Planning.push rule
  return entry.changed

/--
The rule that stands for `name` and plays one entry in each execution, the last
one again and again.
-/
def scriptedRule (name : RuleName) (entries : List ScriptEntry) : Rule where
  name := "Script"
  execute _ := do
    let earlier := ((← get).executions.filter (·.rule = name)).length
    match entries[min earlier (entries.length - 1)]? with
    | some entry => entry.play
    | none => return false

end FederatedQuery
