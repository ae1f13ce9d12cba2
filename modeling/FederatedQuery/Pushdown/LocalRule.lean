import FederatedQuery.Language.Object
import FederatedQuery.Pushdown.Federation
import FederatedQuery.Pushdown.Rejection

/-!
The rule that one language object has to pass, apart from the objects below it.

Capabilities are read off the record at hand, except that for aggregates and
functions the federation is asked again.  The rule for an object that holds a
subquery also asks whether the subquery can run on the same model; that answer is
a parameter.
-/

namespace FederatedQuery

structure Source where
  model : ModelId
  record : SourceCapabilities

/-- What keeps an object from passing: a rejection, or a look-up that failed. -/
inductive Obstacle where
  | rejection (cause : Rejection)
  | failure (error : PlanError)

abbrev Check := Except Obstacle Unit

namespace Check

def reject (cause : Rejection) : Check := .error (.rejection cause)

def verdict : Check → Except PlanError Verdict
  | .ok () => .ok .accepted
  | .error (.rejection cause) => .ok (.rejected cause)
  | .error (.failure error) => .error error

end Check

abbrev SubqueryRule := Subquery → Check

namespace Source

def require (source : Source) (capability : Capability) : Check :=
  if source.record.supports capability then .ok ()
  else .reject (.unsupported capability source.model)

def requireNot (source : Source) (needed : Bool) : Check :=
  if needed then source.require .criteriaNot else .ok ()

end Source

namespace CompareOp

def capability : CompareOp → Capability
  | .eq | .ne => .criteriaCompareEq
  | .lt | .gt | .le | .ge => .criteriaCompareOrdered

/-- Whether a source evaluates the operator by negating another one. -/
def needsNot : CompareOp → Bool
  | .ne | .lt | .gt => true
  | .eq | .le | .ge => false

end CompareOp

def Quantifier.capability : Quantifier → Capability
  | .all => .criteriaQuantifiedAll
  | .some | .any => .criteriaQuantifiedSome

def checkSupported (supported : Except PlanError Bool) (cause : Rejection) : Check :=
  match supported with
  | .error error => .error (.failure error)
  | .ok true => .ok ()
  | .ok false => .reject cause

def checkSearchable (metadata : Metadata) (allows : Searchability → Bool) :
    List ElementSymbol → Check
  | [] => .ok ()
  | element :: rest =>
      match metadata.searchability element with
      | .error error => .error (.failure error)
      | .ok searchability =>
          if allows searchability then checkSearchable metadata allows rest
          else .reject (.notSearchable element searchability)

def checkCompare (metadata : Metadata) (source : Source) (op : CompareOp) (criteria : Criteria) :
    Check := do
  source.require op.capability
  source.requireNot op.needsNot
  checkSearchable metadata Searchability.supportsCompare criteria.elements

def checkIn (metadata : Metadata) (source : Source) (negated : Bool) (criteria : Criteria) :
    Check := do
  source.require .criteriaIn
  source.requireNot negated
  checkSearchable metadata Searchability.supportsCompare criteria.elements

def checkListSize (source : Source) (count : Nat) : Check :=
  match source.record.maxInListSize? with
  | some most => if most < count then .reject (.listTooLong count most) else .ok ()
  | none => .ok ()

def checkFunction (federation : Federation) (source : Source) (call : FunctionCall) : Check :=
  if call.pushdown = .cannot then .reject (.localFunction call.name)
  else checkSupported (federation.supportsCall call source.model) (.function call)

def checkExpr (federation : Federation) (source : Source) (subqueryRule : SubqueryRule)
    (expr : Expr) : Check :=
  match expr with
  | .column _ | .literal _ => .ok ()
  | .aggregate call =>
      checkSupported (federation.supportsAggregate call source.model) (.aggregate call)
  | .case _ _ _ => source.require .queryCase
  | .searchedCase _ _ => source.require .querySearchedCase
  | .function call => if expr.isConstant then .ok () else checkFunction federation source call
  | .scalarSubquery subquery => do
      source.require .querySubqueriesScalar
      subqueryRule subquery
  | .xmlElement _ _ _ _ | .xmlForest _ _ => .reject .xml

def checkCriteria (metadata : Metadata) (source : Source) (subqueryRule : SubqueryRule)
    (criteria : Criteria) : Check :=
  match criteria with
  | .compare _ op _ => checkCompare metadata source op criteria
  | .compound .and _ => .ok ()
  | .compound .or _ => source.require .criteriaOr
  | .not _ => source.require .criteriaNot
  | .isNull _ negated => do
      source.require .criteriaIsNull
      source.requireNot negated
  | .like _ _ escape negated => do
      source.require .criteriaLike
      if escape.isSome then
        source.require .criteriaLikeEscape
      source.requireNot negated
      checkSearchable metadata Searchability.supportsLike criteria.elements
  | .inList _ values negated => do
      checkIn metadata source negated criteria
      checkListSize source values.length
  | .dependentSet _ _ _ => checkIn metadata source false criteria
  | .inSubquery _ subquery negated => do
      checkIn metadata source negated criteria
      source.require .criteriaInSubquery
      subqueryRule subquery
  | .existence subquery _ => do
      source.require .criteriaExists
      subqueryRule subquery
  | .quantified _ op quantifier subquery => do
      source.require quantifier.capability
      checkCompare metadata source op criteria
      subqueryRule subquery

def localRule (federation : Federation) (source : Source) (subqueryRule : SubqueryRule) :
    LanguageObject → Check
  | .expr expr => checkExpr federation source subqueryRule expr
  | .criteria criteria => checkCriteria federation.metadata source subqueryRule criteria
  | .command _ => .ok ()
  | .namespaces _ | .attributes _ => .reject .xml

end FederatedQuery
