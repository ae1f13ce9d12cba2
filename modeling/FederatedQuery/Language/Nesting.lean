import FederatedQuery.Language.Object

/-!
How deeply subqueries are nested inside a language object.

Only the commands and the correlated references of subqueries count, for those
are what a push-down check of a subquery looks at.
-/

namespace FederatedQuery

mutual

def Expr.nesting : Expr → Nat
  | .column _ | .literal _ => 0
  | .function ⟨_, args, _, _, _⟩ => Expr.nestingOfAll args
  | .aggregate ⟨_, arg, _⟩ => Expr.nestingOfOption arg
  | .case operand branches otherwise =>
      max (Expr.nesting operand)
        (max (CaseBranch.nestingOfAll branches) (Expr.nestingOfOption otherwise))
  | .searchedCase branches otherwise =>
      max (SearchedBranch.nestingOfAll branches) (Expr.nestingOfOption otherwise)
  | .scalarSubquery subquery => Subquery.nesting subquery
  | .xmlElement _ _ attributes content =>
      max (Expr.nestingOfClause attributes) (Expr.nestingOfAll content)
  | .xmlForest _ items => Expr.nestingOfAll items

def Expr.nestingOfAll : List Expr → Nat
  | [] => 0
  | expr :: rest => max (Expr.nesting expr) (Expr.nestingOfAll rest)

def Expr.nestingOfOption : Option Expr → Nat
  | none => 0
  | some expr => Expr.nesting expr

def Expr.nestingOfClause : Option (List Expr) → Nat
  | none => 0
  | some exprs => Expr.nestingOfAll exprs

def CaseBranch.nestingOfAll : List CaseBranch → Nat
  | [] => 0
  | ⟨value, result⟩ :: rest =>
      max (max (Expr.nesting value) (Expr.nesting result)) (CaseBranch.nestingOfAll rest)

def SearchedBranch.nestingOfAll : List SearchedBranch → Nat
  | [] => 0
  | ⟨condition, result⟩ :: rest =>
      max (max (Criteria.nesting condition) (Expr.nesting result))
        (SearchedBranch.nestingOfAll rest)

def Criteria.nesting : Criteria → Nat
  | .compare left _ right => max (Expr.nesting left) (Expr.nesting right)
  | .compound _ operands => Criteria.nestingOfAll operands
  | .not operand => Criteria.nesting operand
  | .isNull expr _ => Expr.nesting expr
  | .like left pattern _ _ => max (Expr.nesting left) (Expr.nesting pattern)
  | .inList expr values _ => max (Expr.nesting expr) (Expr.nestingOfAll values)
  | .dependentSet expr _ _ => Expr.nesting expr
  | .inSubquery expr subquery _ => max (Expr.nesting expr) (Subquery.nesting subquery)
  | .existence subquery _ => Subquery.nesting subquery
  | .quantified left _ _ subquery => max (Expr.nesting left) (Subquery.nesting subquery)

def Criteria.nestingOfAll : List Criteria → Nat
  | [] => 0
  | criteria :: rest => max (Criteria.nesting criteria) (Criteria.nestingOfAll rest)

def Criteria.nestingOfOption : Option Criteria → Nat
  | none => 0
  | some criteria => Criteria.nesting criteria

def Command.nesting : Command → Nat
  | .query ⟨select, _, criteria, groupBy, having, _⟩ =>
      max (max (Expr.nestingOfAll select) (Criteria.nestingOfOption criteria))
        (max (Expr.nestingOfAll groupBy) (Criteria.nestingOfOption having))
  | .other _ => 0

def CorrelatedReference.nestingOfAll : List CorrelatedReference → Nat
  | [] => 0
  | ⟨_, expr⟩ :: rest => max (Expr.nesting expr) (CorrelatedReference.nestingOfAll rest)

def Subquery.nesting : Subquery → Nat
  | ⟨command, references, _⟩ =>
      max (Command.nesting command) (CorrelatedReference.nestingOfAll references) + 1

end

def LanguageObject.nesting : LanguageObject → Nat
  | .expr body => body.nesting
  | .criteria body => body.nesting
  | .command body => body.nesting
  | .namespaces _ => 0
  | .attributes args => Expr.nestingOfAll args

end FederatedQuery
