import FederatedQuery.Language.Syntax

/-!
Equality of language objects, constructor by constructor.

Literals are compared as values of the query language, so an object with a float
that is not a number equals nothing, not even itself.
-/

namespace FederatedQuery

mutual

def Expr.beq : Expr → Expr → Bool
  | .column first, .column second => first == second
  | .literal first, .literal second => first == second
  | .function first, .function second => FunctionCall.beq first second
  | .aggregate first, .aggregate second => AggregateCall.beq first second
  | .case operand branches otherwise, .case operand' branches' otherwise' =>
      Expr.beq operand operand' && CaseBranch.beqAll branches branches' &&
        Expr.beqOption otherwise otherwise'
  | .searchedCase branches otherwise, .searchedCase branches' otherwise' =>
      SearchedBranch.beqAll branches branches' && Expr.beqOption otherwise otherwise'
  | .scalarSubquery first, .scalarSubquery second => Subquery.beq first second
  | .xmlElement name namespaces attributes content,
      .xmlElement name' namespaces' attributes' content' =>
      name == name' && namespaces == namespaces' && Expr.beqClause attributes attributes' &&
        Expr.beqAll content content'
  | .xmlForest namespaces items, .xmlForest namespaces' items' =>
      namespaces == namespaces' && Expr.beqAll items items'
  | _, _ => false

def Expr.beqAll : List Expr → List Expr → Bool
  | [], [] => true
  | first :: rest, first' :: rest' => Expr.beq first first' && Expr.beqAll rest rest'
  | _, _ => false

def Expr.beqOption : Option Expr → Option Expr → Bool
  | none, none => true
  | some first, some second => Expr.beq first second
  | _, _ => false

def Expr.beqClause : Option (List Expr) → Option (List Expr) → Bool
  | none, none => true
  | some first, some second => Expr.beqAll first second
  | _, _ => false

def FunctionCall.beq : FunctionCall → FunctionCall → Bool
  | ⟨name, args, returnType, pushdown, determinism⟩,
      ⟨name', args', returnType', pushdown', determinism'⟩ =>
      name == name' && Expr.beqAll args args' && returnType == returnType' &&
        pushdown == pushdown' && determinism == determinism'

def AggregateCall.beq : AggregateCall → AggregateCall → Bool
  | ⟨function, arg, distinct⟩, ⟨function', arg', distinct'⟩ =>
      function == function' && Expr.beqOption arg arg' && distinct == distinct'

def CaseBranch.beqAll : List CaseBranch → List CaseBranch → Bool
  | [], [] => true
  | ⟨value, result⟩ :: rest, ⟨value', result'⟩ :: rest' =>
      Expr.beq value value' && Expr.beq result result' && CaseBranch.beqAll rest rest'
  | _, _ => false

def SearchedBranch.beqAll : List SearchedBranch → List SearchedBranch → Bool
  | [], [] => true
  | ⟨condition, result⟩ :: rest, ⟨condition', result'⟩ :: rest' =>
      Criteria.beq condition condition' && Expr.beq result result' &&
        SearchedBranch.beqAll rest rest'
  | _, _ => false

def Criteria.beq : Criteria → Criteria → Bool
  | .compare left op right, .compare left' op' right' =>
      Expr.beq left left' && op == op' && Expr.beq right right'
  | .compound op operands, .compound op' operands' =>
      op == op' && Criteria.beqAll operands operands'
  | .not operand, .not operand' => Criteria.beq operand operand'
  | .isNull expr negated, .isNull expr' negated' => Expr.beq expr expr' && negated == negated'
  | .like left pattern escape negated, .like left' pattern' escape' negated' =>
      Expr.beq left left' && Expr.beq pattern pattern' && escape == escape' &&
        negated == negated'
  | .inList expr values negated, .inList expr' values' negated' =>
      Expr.beq expr expr' && Expr.beqAll values values' && negated == negated'
  | .dependentSet expr valueSource valueExpr, .dependentSet expr' valueSource' valueExpr' =>
      Expr.beq expr expr' && valueSource == valueSource' && Expr.beq valueExpr valueExpr'
  | .inSubquery expr subquery negated, .inSubquery expr' subquery' negated' =>
      Expr.beq expr expr' && Subquery.beq subquery subquery' && negated == negated'
  | .existence subquery negated, .existence subquery' negated' =>
      Subquery.beq subquery subquery' && negated == negated'
  | .quantified left op quantifier subquery, .quantified left' op' quantifier' subquery' =>
      Expr.beq left left' && op == op' && quantifier == quantifier' &&
        Subquery.beq subquery subquery'
  | _, _ => false

def Criteria.beqAll : List Criteria → List Criteria → Bool
  | [], [] => true
  | first :: rest, first' :: rest' => Criteria.beq first first' && Criteria.beqAll rest rest'
  | _, _ => false

def Criteria.beqOption : Option Criteria → Option Criteria → Bool
  | none, none => true
  | some first, some second => Criteria.beq first second
  | _, _ => false

def Query.beq : Query → Query → Bool
  | ⟨select, sources, criteria, groupBy, having, isXml⟩,
      ⟨select', sources', criteria', groupBy', having', isXml'⟩ =>
      Expr.beqAll select select' && sources == sources' &&
        Criteria.beqOption criteria criteria' && Expr.beqAll groupBy groupBy' &&
        Criteria.beqOption having having' && isXml == isXml'

def Command.beq : Command → Command → Bool
  | .query first, .query second => Query.beq first second
  | .other first, .other second => first == second
  | _, _ => false

def Command.beqOption : Option Command → Option Command → Bool
  | none, none => true
  | some first, some second => Command.beq first second
  | _, _ => false

def SubqueryPlan.beqOption : Option SubqueryPlan → Option SubqueryPlan → Bool
  | none, none => true
  | some (.access command hasChild), some (.access command' hasChild') =>
      Command.beqOption command command' && hasChild == hasChild'
  | some .relational, some .relational => true
  | some .nonRelational, some .nonRelational => true
  | _, _ => false

def CorrelatedReference.beqAll : List CorrelatedReference → List CorrelatedReference → Bool
  | [], [] => true
  | ⟨element, expr⟩ :: rest, ⟨element', expr'⟩ :: rest' =>
      element == element' && Expr.beq expr expr' && CorrelatedReference.beqAll rest rest'
  | _, _ => false

def Subquery.beq : Subquery → Subquery → Bool
  | ⟨command, references, plan⟩, ⟨command', references', plan'⟩ =>
      Command.beq command command' && CorrelatedReference.beqAll references references' &&
        SubqueryPlan.beqOption plan plan'

end

instance : BEq Expr := ⟨Expr.beq⟩

instance : BEq Criteria := ⟨Criteria.beq⟩

end FederatedQuery
