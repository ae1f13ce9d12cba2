import FederatedQuery.Language.Syntax
import FederatedQuery.Text.LowerCase
import FederatedQuery.Translator

/-!
Result types, constant expressions, and the functions that ask more of a source
than to know their name: conversions, and functions with a format pattern.
-/

namespace FederatedQuery

mutual

/-- A CASE has the type of its first result, a subquery that of its first column. -/
def Expr.dataType : Expr → DataType
  | .column element => element.dataType
  | .literal value => value.dataType
  | .function call => call.returnType
  | .aggregate call => AggregateCall.dataType call
  | .case _ branches _ =>
      match branches with
      | [] => .null
      | ⟨_, result⟩ :: _ => Expr.dataType result
  | .searchedCase branches _ =>
      match branches with
      | [] => .null
      | ⟨_, result⟩ :: _ => Expr.dataType result
  | .scalarSubquery subquery => Subquery.dataType subquery
  | .xmlElement _ _ _ _ | .xmlForest _ _ => .xml

def AggregateCall.dataType : AggregateCall → DataType
  | ⟨.count, _, _⟩ => .int64
  | ⟨.avg, _, _⟩ => .float64
  | ⟨_, some arg, _⟩ => Expr.dataType arg
  | ⟨_, none, _⟩ => .null

def Subquery.dataType : Subquery → DataType
  | ⟨.query ⟨expr :: _, _, _, _, _, _⟩, _, _⟩ => Expr.dataType expr
  | _ => .null

end

mutual

/-- Whether the value can be computed once, before the query runs. -/
def Expr.isConstant : Expr → Bool
  | .literal _ => true
  | .function ⟨_, args, _, _, determinism⟩ =>
      determinism == .deterministic && Expr.areConstant args
  | _ => false

def Expr.areConstant : List Expr → Bool
  | [] => true
  | expr :: rest => Expr.isConstant expr && Expr.areConstant rest

end

def Expr.column? : Expr → Option ElementSymbol
  | .column element => some element
  | _ => none

namespace FunctionCall

def isConversion (call : FunctionCall) : Bool :=
  Text.sameIgnoringAsciiCase call.name "convert" || Text.sameIgnoringAsciiCase call.name "cast"

def conversionTypes? (call : FunctionCall) : Option (DataType × DataType) :=
  if call.isConversion then call.args.head?.map fun arg => (arg.dataType, call.returnType)
  else none

def datePatternFunctions : List String :=
  ["formatdate", "formattime", "formattimestamp", "parsedate", "parsetime", "parsetimestamp"]

def numberPatternFunctions : List String :=
  ["formatinteger", "formatlong", "formatdouble", "formatfloat", "formatbiginteger",
    "formatbigdecimal", "parseinteger", "parselong", "parsedouble", "parsefloat",
    "parsebiginteger", "parsebigdecimal"]

def patternKind? (call : FunctionCall) : Option PatternKind :=
  let name := Text.lowerCase call.name
  if datePatternFunctions.contains name then some .date
  else if numberPatternFunctions.contains name then some .number
  else none

def literalPattern? (call : FunctionCall) : Option (String × PatternKind) := do
  let kind ← call.patternKind?
  match call.args with
  | _ :: .literal (.string pattern) :: _ => some (pattern, kind)
  | _ => none

end FunctionCall

end FederatedQuery
