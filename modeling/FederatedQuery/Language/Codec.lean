import FederatedQuery.Language.Object

/-!
The JSON form of language objects.

A record becomes an object, a constructor an object of one member, a pair an
array of two items.  Reading goes level by level: each constructor of the
language takes at least one level of the JSON value, so a reader of as many
levels as the value has reads all of it.
-/

namespace FederatedQuery

namespace XmlNamespace

def toJson (names : XmlNamespace) : Json :=
  .array [.string names.shortName, .string names.identifier]

def ofJson? : Json → Option XmlNamespace
  | .array [shortName, identifier] => do
      return { shortName := ← shortName.text?, identifier := ← identifier.text? }
  | _ => none

def clauseToJson (names : List XmlNamespace) : Json :=
  .object [("namespaces", .array (names.map toJson))]

def clauseOfJson? (json : Json) : Option (List XmlNamespace) := do
  Json.required (← json.members?) "namespaces" (Json.listOf ofJson?)

end XmlNamespace

mutual

def Expr.toJson : Expr → Json
  | .column element => Json.variant "Column" element.toJson
  | .literal value => Json.variant "Literal" value.toJson
  | .function call => Json.variant "Function" (FunctionCall.toJson call)
  | .aggregate call => Json.variant "Aggregate" (AggregateCall.toJson call)
  | .case operand branches otherwise =>
      Json.variant "Case" (.object [("operand", Expr.toJson operand),
        ("branches", .array (CaseBranch.toJsons branches)),
        ("else_expr", Expr.optionToJson otherwise)])
  | .searchedCase branches otherwise =>
      Json.variant "SearchedCase" (.object [("branches", .array (SearchedBranch.toJsons branches)),
        ("else_expr", Expr.optionToJson otherwise)])
  | .scalarSubquery subquery => Json.variant "ScalarSubquery" (Subquery.toJson subquery)
  | .xmlElement name namespaces attributes content =>
      Json.variant "XmlElement" (.object [("name", .string name),
        ("namespaces", Json.ofOption XmlNamespace.clauseToJson namespaces),
        ("attributes", Expr.clauseToJson attributes),
        ("content", .array (Expr.toJsons content))])
  | .xmlForest namespaces items =>
      Json.variant "XmlForest" (.object [
        ("namespaces", Json.ofOption XmlNamespace.clauseToJson namespaces),
        ("args", .array (Expr.toJsons items))])

def Expr.toJsons : List Expr → List Json
  | [] => []
  | expr :: rest => Expr.toJson expr :: Expr.toJsons rest

def Expr.optionToJson : Option Expr → Json
  | none => .null
  | some expr => Expr.toJson expr

def Expr.clauseToJson : Option (List Expr) → Json
  | none => .null
  | some exprs => .object [("args", .array (Expr.toJsons exprs))]

def FunctionCall.toJson : FunctionCall → Json
  | ⟨name, args, returnType, pushdown, determinism⟩ =>
      .object [("name", .string name), ("args", .array (Expr.toJsons args)),
        ("return_type", returnType.toJson),
        ("descriptor",
          .object [("pushdown", pushdown.toJson), ("determinism", determinism.toJson)])]

def AggregateCall.toJson : AggregateCall → Json
  | ⟨function, arg, distinct⟩ =>
      .object [("func", function.toJson), ("arg", Expr.optionToJson arg),
        ("distinct", .bool distinct)]

def CaseBranch.toJsons : List CaseBranch → List Json
  | [] => []
  | ⟨value, result⟩ :: rest =>
      .array [Expr.toJson value, Expr.toJson result] :: CaseBranch.toJsons rest

def SearchedBranch.toJsons : List SearchedBranch → List Json
  | [] => []
  | ⟨condition, result⟩ :: rest =>
      .array [Criteria.toJson condition, Expr.toJson result] :: SearchedBranch.toJsons rest

def Criteria.toJson : Criteria → Json
  | .compare left op right =>
      Json.variant "Compare" (.object [("left", Expr.toJson left), ("op", op.toJson),
        ("right", Expr.toJson right)])
  | .compound op operands =>
      Json.variant "Compound" (.object [("op", op.toJson),
        ("criteria", .array (Criteria.toJsons operands))])
  | .not operand => Json.variant "Not" (Criteria.toJson operand)
  | .isNull expr negated =>
      Json.variant "IsNull" (.object [("expr", Expr.toJson expr), ("negated", .bool negated)])
  | .like left pattern escape negated =>
      Json.variant "Match" (.object [("left", Expr.toJson left), ("right", Expr.toJson pattern),
        ("escape", Json.ofOption (fun char => .string (String.ofList [char])) escape),
        ("negated", .bool negated)])
  | .inList expr values negated =>
      Json.variant "Set" (.object [("expr", Expr.toJson expr),
        ("values", .array (Expr.toJsons values)), ("negated", .bool negated)])
  | .dependentSet expr valueSource valueExpr =>
      Json.variant "DependentSet" (.object [("expr", Expr.toJson expr),
        ("value_source_id", .string valueSource), ("value_expr", Expr.toJson valueExpr)])
  | .inSubquery expr subquery negated =>
      Json.variant "SubquerySet" (.object [("expr", Expr.toJson expr),
        ("subquery", Subquery.toJson subquery), ("negated", .bool negated)])
  | .existence subquery negated =>
      Json.variant "Exists" (.object [("subquery", Subquery.toJson subquery),
        ("negated", .bool negated)])
  | .quantified left op quantifier subquery =>
      Json.variant "SubqueryCompare" (.object [("left", Expr.toJson left), ("op", op.toJson),
        ("quantifier", quantifier.toJson), ("subquery", Subquery.toJson subquery)])

def Criteria.toJsons : List Criteria → List Json
  | [] => []
  | criteria :: rest => Criteria.toJson criteria :: Criteria.toJsons rest

def Criteria.optionToJson : Option Criteria → Json
  | none => .null
  | some criteria => Criteria.toJson criteria

def Query.toJson : Query → Json
  | ⟨select, sources, criteria, groupBy, having, isXml⟩ =>
      .object [("select", .array (Expr.toJsons select)),
        ("from", .array (sources.map GroupSymbol.toJson)),
        ("criteria", Criteria.optionToJson criteria),
        ("group_by", .array (Expr.toJsons groupBy)),
        ("having", Criteria.optionToJson having), ("is_xml", .bool isXml)]

def Command.toJson : Command → Json
  | .query query => Json.variant "Query" (Query.toJson query)
  | .other text => Json.variant "Other" (.string text)

def Command.optionToJson : Option Command → Json
  | none => .null
  | some command => Command.toJson command

def SubqueryPlan.optionToJson : Option SubqueryPlan → Json
  | none => .null
  | some (.access command hasChild) =>
      Json.variant "Access" (.object [("command", Command.optionToJson command),
        ("has_child", .bool hasChild)])
  | some .relational => .string "Relational"
  | some .nonRelational => .string "NonRelational"

def CorrelatedReference.toJsons : List CorrelatedReference → List Json
  | [] => []
  | ⟨element, expr⟩ :: rest =>
      .array [element.toJson, Expr.toJson expr] :: CorrelatedReference.toJsons rest

def Subquery.toJson : Subquery → Json
  | ⟨command, references, plan⟩ =>
      .object [("command", Command.toJson command),
        ("correlated_references", .array (CorrelatedReference.toJsons references)),
        ("plan", SubqueryPlan.optionToJson plan)]

end

/-- Readers of language objects of a bounded number of levels. -/
structure LanguageReader where
  expr : Json → Option Expr
  criteria : Json → Option Criteria
  command : Json → Option Command

namespace LanguageReader

variable (reader : LanguageReader)

def functionCall (json : Json) : Option FunctionCall := do
  let members ← json.members?
  let descriptor ← (← Json.required members "descriptor" some).members?
  return {
    name := ← Json.required members "name" Json.text?
    args := ← Json.required members "args" (Json.listOf reader.expr)
    returnType := ← Json.required members "return_type" DataType.ofJson?
    pushdown := ← Json.required descriptor "pushdown" PushdownMode.ofJson?
    determinism := ← Json.required descriptor "determinism" Determinism.ofJson?
  }

def aggregateCall (json : Json) : Option AggregateCall := do
  let members ← json.members?
  return {
    function := ← Json.required members "func" AggregateFunction.ofJson?
    arg := ← Json.optional members "arg" reader.expr
    distinct := ← Json.required members "distinct" Json.bool?
  }

def caseBranch : Json → Option CaseBranch
  | .array [value, result] => do
      return { value := ← reader.expr value, result := ← reader.expr result }
  | _ => none

def searchedBranch : Json → Option SearchedBranch
  | .array [condition, result] => do
      return { condition := ← reader.criteria condition, result := ← reader.expr result }
  | _ => none

def attributes (json : Json) : Option (List Expr) := do
  Json.required (← json.members?) "args" (Json.listOf reader.expr)

def correlatedReference : Json → Option CorrelatedReference
  | .array [element, expr] => do
      return { element := ← ElementSymbol.ofJson? element, expr := ← reader.expr expr }
  | _ => none

def subqueryPlan (json : Json) : Option SubqueryPlan := do
  match ← json.variant? with
  | ("Access", some payload) =>
      let members ← payload.members?
      return .access (← Json.optional members "command" reader.command)
        (← Json.required members "has_child" Json.bool?)
  | ("Relational", none) | ("Relational", some .null) => some .relational
  | ("NonRelational", none) | ("NonRelational", some .null) => some .nonRelational
  | _ => none

def subquery (json : Json) : Option Subquery := do
  let members ← json.members?
  return {
    command := ← Json.required members "command" reader.command
    correlatedReferences :=
      ← Json.required members "correlated_references" (Json.listOf reader.correlatedReference)
    plan := ← Json.optional members "plan" reader.subqueryPlan
  }

def query (json : Json) : Option Query := do
  let members ← json.members?
  return {
    select := ← Json.required members "select" (Json.listOf reader.expr)
    sources := ← Json.required members "from" (Json.listOf GroupSymbol.ofJson?)
    criteria := ← Json.optional members "criteria" reader.criteria
    groupBy := ← Json.required members "group_by" (Json.listOf reader.expr)
    having := ← Json.optional members "having" reader.criteria
    isXml := ← Json.required members "is_xml" Json.bool?
  }

def exprLevel (json : Json) : Option Expr := do
  let (name, some payload) ← json.variant? | none
  match name with
  | "Column" => return .column (← ElementSymbol.ofJson? payload)
  | "Literal" => return .literal (← Value.ofJson? payload)
  | "Function" => return .function (← reader.functionCall payload)
  | "Aggregate" => return .aggregate (← reader.aggregateCall payload)
  | "Case" =>
      let members ← payload.members?
      return .case (← Json.required members "operand" reader.expr)
        (← Json.required members "branches" (Json.listOf reader.caseBranch))
        (← Json.optional members "else_expr" reader.expr)
  | "SearchedCase" =>
      let members ← payload.members?
      return .searchedCase
        (← Json.required members "branches" (Json.listOf reader.searchedBranch))
        (← Json.optional members "else_expr" reader.expr)
  | "ScalarSubquery" => return .scalarSubquery (← reader.subquery payload)
  | "XmlElement" =>
      let members ← payload.members?
      return .xmlElement (← Json.required members "name" Json.text?)
        (← Json.optional members "namespaces" XmlNamespace.clauseOfJson?)
        (← Json.optional members "attributes" reader.attributes)
        (← Json.required members "content" (Json.listOf reader.expr))
  | "XmlForest" =>
      let members ← payload.members?
      return .xmlForest (← Json.optional members "namespaces" XmlNamespace.clauseOfJson?)
        (← Json.required members "args" (Json.listOf reader.expr))
  | _ => none

def criteriaLevel (json : Json) : Option Criteria := do
  let (name, some payload) ← json.variant? | none
  if name = "Not" then
    return .not (← reader.criteria payload)
  let members ← payload.members?
  let expr (member : String) := Json.required members member reader.expr
  let negated := Json.required members "negated" Json.bool?
  let subquery := Json.required members "subquery" reader.subquery
  match name with
  | "Compare" =>
      return .compare (← expr "left") (← Json.required members "op" CompareOp.ofJson?)
        (← expr "right")
  | "Compound" =>
      return .compound (← Json.required members "op" CompoundOp.ofJson?)
        (← Json.required members "criteria" (Json.listOf reader.criteria))
  | "IsNull" => return .isNull (← expr "expr") (← negated)
  | "Match" =>
      return .like (← expr "left") (← expr "right")
        (← Json.optional members "escape" Json.char?) (← negated)
  | "Set" =>
      return .inList (← expr "expr") (← Json.required members "values" (Json.listOf reader.expr))
        (← negated)
  | "DependentSet" =>
      return .dependentSet (← expr "expr") (← Json.required members "value_source_id" Json.text?)
        (← expr "value_expr")
  | "SubquerySet" => return .inSubquery (← expr "expr") (← subquery) (← negated)
  | "Exists" => return .existence (← subquery) (← negated)
  | "SubqueryCompare" =>
      return .quantified (← expr "left") (← Json.required members "op" CompareOp.ofJson?)
        (← Json.required members "quantifier" Quantifier.ofJson?) (← subquery)
  | _ => none

def commandLevel (json : Json) : Option Command := do
  match ← json.variant? with
  | ("Query", some payload) => return .query (← reader.query payload)
  | ("Other", some payload) => return .other (← payload.text?)
  | _ => none

def ofLevels : Nat → LanguageReader
  | 0 => ⟨fun _ => none, fun _ => none, fun _ => none⟩
  | levels + 1 =>
      let reader := ofLevels levels
      ⟨reader.exprLevel, reader.criteriaLevel, reader.commandLevel⟩

end LanguageReader

namespace Json

mutual

def levels : Json → Nat
  | .array items => levelsOfItems items + 1
  | .object members => levelsOfMembers members + 1
  | _ => 1

def levelsOfItems : List Json → Nat
  | [] => 0
  | item :: rest => max (levels item) (levelsOfItems rest)

def levelsOfMembers : List (String × Json) → Nat
  | [] => 0
  | (_, value) :: rest => max (levels value) (levelsOfMembers rest)

end

def languageReader (json : Json) : LanguageReader := .ofLevels json.levels

end Json

def Expr.ofJson? (json : Json) : Option Expr := json.languageReader.expr json

def Criteria.ofJson? (json : Json) : Option Criteria := json.languageReader.criteria json

def Command.ofJson? (json : Json) : Option Command := json.languageReader.command json

def Subquery.ofJson? (json : Json) : Option Subquery := json.languageReader.subquery json

def FunctionCall.ofJson? (json : Json) : Option FunctionCall :=
  json.languageReader.functionCall json

def AggregateCall.ofJson? (json : Json) : Option AggregateCall :=
  json.languageReader.aggregateCall json

def SubqueryPlan.ofJson? (json : Json) : Option SubqueryPlan :=
  json.languageReader.subqueryPlan json

def LanguageObject.ofMembers? (members : List (String × Json)) : Option LanguageObject := do
  if let some body ← Json.optional members "expr" Expr.ofJson? then
    return .expr body
  if let some body ← Json.optional members "criteria" Criteria.ofJson? then
    return .criteria body
  if let some body ← Json.optional members "command" Command.ofJson? then
    return .command body
  if let some names ← Json.optional members "namespaces" XmlNamespace.clauseOfJson? then
    return .namespaces names
  return .attributes (← Json.required members "attributes" fun json =>
    json.languageReader.attributes json)

end FederatedQuery
