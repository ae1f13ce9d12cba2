import FederatedQuery.Language.Syntax

/-!
Language objects as text of the query language.

The text is for people: it leaves out GROUP BY and HAVING, the content of
document constructors, and whatever a subquery carries beside its command.
-/

namespace FederatedQuery

def joinDisplays (texts : List String) : String := ", ".intercalate texts

def negation (negated : Bool) : String := if negated then "NOT " else ""

mutual

def Expr.display : Expr → String
  | .column element => element.display
  | .literal value => value.display
  | .function call => FunctionCall.display call
  | .aggregate call => AggregateCall.display call
  | .case operand branches otherwise =>
      "CASE " ++ Expr.display operand ++ String.join (CaseBranch.displays branches) ++
        Expr.displayElse otherwise ++ " END"
  | .searchedCase branches otherwise =>
      "CASE" ++ String.join (SearchedBranch.displays branches) ++ Expr.displayElse otherwise ++
        " END"
  | .scalarSubquery ⟨command, _, _⟩ => "(" ++ Command.display command ++ ")"
  | .xmlElement name _ _ _ => "XMLELEMENT(NAME " ++ name ++ ", ...)"
  | .xmlForest _ _ => "XMLFOREST(...)"

def Expr.displays : List Expr → List String
  | [] => []
  | expr :: rest => Expr.display expr :: Expr.displays rest

def Expr.displayElse : Option Expr → String
  | none => ""
  | some expr => " ELSE " ++ Expr.display expr

def FunctionCall.display : FunctionCall → String
  | ⟨name, args, _, _, _⟩ => name ++ "(" ++ joinDisplays (Expr.displays args) ++ ")"

def AggregateCall.display : AggregateCall → String
  | ⟨function, arg, distinct⟩ =>
      function.symbol ++ "(" ++ (if distinct then "DISTINCT " else "") ++
        (match arg with
        | some expr => Expr.display expr
        | none => "*") ++ ")"

def CaseBranch.displays : List CaseBranch → List String
  | [] => []
  | ⟨value, result⟩ :: rest =>
      (" WHEN " ++ Expr.display value ++ " THEN " ++ Expr.display result) ::
        CaseBranch.displays rest

def SearchedBranch.displays : List SearchedBranch → List String
  | [] => []
  | ⟨condition, result⟩ :: rest =>
      (" WHEN " ++ Criteria.display condition ++ " THEN " ++ Expr.display result) ::
        SearchedBranch.displays rest

def Criteria.display : Criteria → String
  | .compare left op right => Expr.display left ++ " " ++ op.symbol ++ " " ++ Expr.display right
  | .compound op operands =>
      "(" ++ (" " ++ op.symbol ++ " ").intercalate (Criteria.displays operands) ++ ")"
  | .not operand => "NOT (" ++ Criteria.display operand ++ ")"
  | .isNull expr negated => Expr.display expr ++ " IS " ++ negation negated ++ "NULL"
  | .like left pattern escape negated =>
      Expr.display left ++ " " ++ negation negated ++ "LIKE " ++ Expr.display pattern ++
        (match escape with
        | some char => " ESCAPE '" ++ String.ofList [char] ++ "'"
        | none => "")
  | .inList expr values negated =>
      Expr.display expr ++ " " ++ negation negated ++ "IN (" ++
        joinDisplays (Expr.displays values) ++ ")"
  | .dependentSet expr valueSource valueExpr =>
      Expr.display expr ++ " IN <" ++ valueSource ++ ":" ++ Expr.display valueExpr ++ ">"
  | .inSubquery expr ⟨command, _, _⟩ negated =>
      Expr.display expr ++ " " ++ negation negated ++ "IN (" ++ Command.display command ++ ")"
  | .existence ⟨command, _, _⟩ negated =>
      negation negated ++ "EXISTS (" ++ Command.display command ++ ")"
  | .quantified left op quantifier ⟨command, _, _⟩ =>
      Expr.display left ++ " " ++ op.symbol ++ " " ++ quantifier.symbol ++ " (" ++
        Command.display command ++ ")"

def Criteria.displays : List Criteria → List String
  | [] => []
  | criteria :: rest => Criteria.display criteria :: Criteria.displays rest

def Command.display : Command → String
  | .query ⟨select, sources, criteria, _, _, _⟩ =>
      "SELECT " ++ joinDisplays (Expr.displays select) ++
        (if sources.isEmpty then ""
        else " FROM " ++ joinDisplays (sources.map GroupSymbol.display)) ++
        (match criteria with
        | some criteria => " WHERE " ++ Criteria.display criteria
        | none => "")
  | .other text => text

end

end FederatedQuery
