import FederatedQuery.Language.Vocabulary
import FederatedQuery.Symbol
import FederatedQuery.Value

/-!
Expressions, criteria, commands and subqueries.

These types refer to each other: an expression may hold a subquery, whose
command holds expressions and criteria again.  A subquery carries the outer
columns that it refers to and, once it has been planned, the form of its plan.
-/

namespace FederatedQuery

structure XmlNamespace where
  shortName : String
  identifier : String
  deriving DecidableEq, Repr

mutual

inductive Expr where
  | column (element : ElementSymbol)
  | literal (value : Value)
  | function (call : FunctionCall)
  | aggregate (call : AggregateCall)
  | case (operand : Expr) (branches : List CaseBranch) (otherwise : Option Expr)
  | searchedCase (branches : List SearchedBranch) (otherwise : Option Expr)
  | scalarSubquery (subquery : Subquery)
  | xmlElement (name : String) (namespaces : Option (List XmlNamespace))
      (attributes : Option (List Expr)) (content : List Expr)
  | xmlForest (namespaces : Option (List XmlNamespace)) (items : List Expr)

structure FunctionCall where
  name : String
  args : List Expr
  returnType : DataType
  pushdown : PushdownMode := .can
  determinism : Determinism := .deterministic

structure AggregateCall where
  function : AggregateFunction
  arg : Option Expr
  distinct : Bool

structure CaseBranch where
  value : Expr
  result : Expr

structure SearchedBranch where
  condition : Criteria
  result : Expr

inductive Criteria where
  | compare (left : Expr) (op : CompareOp) (right : Expr)
  | compound (op : CompoundOp) (operands : List Criteria)
  | not (operand : Criteria)
  | isNull (expr : Expr) (negated : Bool)
  | like (left pattern : Expr) (escape : Option Char) (negated : Bool)
  | inList (expr : Expr) (values : List Expr) (negated : Bool)
  /-- An IN list whose values are fed by the other input of a dependent join. -/
  | dependentSet (expr : Expr) (valueSource : String) (valueExpr : Expr)
  | inSubquery (expr : Expr) (subquery : Subquery) (negated : Bool)
  | existence (subquery : Subquery) (negated : Bool)
  | quantified (left : Expr) (op : CompareOp) (quantifier : Quantifier) (subquery : Subquery)

structure Query where
  select : List Expr
  sources : List GroupSymbol
  criteria : Option Criteria
  groupBy : List Expr
  having : Option Criteria
  isXml : Bool

inductive Command where
  | query (query : Query)
  | other (text : String)

inductive SubqueryPlan where
  | access (command : Option Command) (hasChild : Bool)
  | relational
  | nonRelational

structure CorrelatedReference where
  element : ElementSymbol
  expr : Expr

structure Subquery where
  command : Command
  correlatedReferences : List CorrelatedReference
  plan : Option SubqueryPlan

end

namespace AggregateCall

def countStar : AggregateCall := ⟨.count, none, false⟩

def ofArg (function : AggregateFunction) (arg : Expr) : AggregateCall := ⟨function, some arg, false⟩

def isCountStar (call : AggregateCall) : Bool := call.function == .count && call.arg.isNone

end AggregateCall

namespace Criteria

def eq (left right : Expr) : Criteria := .compare left .eq right

def and (operands : List Criteria) : Criteria := .compound .and operands

def or (operands : List Criteria) : Criteria := .compound .or operands

def conjuncts : Criteria → List Criteria
  | .compound .and operands => conjunctsOf operands
  | criteria => [criteria]
where
  conjunctsOf : List Criteria → List Criteria
    | [] => []
    | criteria :: rest => conjuncts criteria ++ conjunctsOf rest

end Criteria

namespace Query

def ofSelect (select : List Expr) : Query := ⟨select, [], none, [], none, false⟩

def reading (query : Query) (group : GroupSymbol) : Query :=
  { query with sources := query.sources ++ [group] }

def filtered (query : Query) (criteria : Criteria) : Query :=
  { query with criteria := some criteria }

def grouped (query : Query) (exprs : List Expr) : Query := { query with groupBy := exprs }

def restricted (query : Query) (criteria : Criteria) : Query :=
  { query with having := some criteria }

def asXml (query : Query) : Query := { query with isXml := true }

end Query

namespace Command

def query? : Command → Option Query
  | .query body => some body
  | .other _ => none

end Command

namespace Subquery

def ofCommand (command : Command) : Subquery := ⟨command, [], none⟩

def correlatedTo (subquery : Subquery) (element : ElementSymbol) (expr : Expr) : Subquery :=
  { subquery with correlatedReferences := subquery.correlatedReferences ++ [⟨element, expr⟩] }

def planned (subquery : Subquery) (plan : SubqueryPlan) : Subquery :=
  { subquery with plan := some plan }

def plannedAsAccess (subquery : Subquery) : Subquery :=
  subquery.planned (.access (some subquery.command) false)

def isCorrelated (subquery : Subquery) : Bool := !subquery.correlatedReferences.isEmpty

/--
The query of a plan that is nothing but an access: without a child, and for a
query that is no document query and reads from some group.
-/
def accessQuery? (subquery : Subquery) : Option Query :=
  match subquery.plan with
  | some (.access (some (.query query)) false) =>
      if query.isXml || query.sources.isEmpty then none else some query
  | _ => none

end Subquery

end FederatedQuery
