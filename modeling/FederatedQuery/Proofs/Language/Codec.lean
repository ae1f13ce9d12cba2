import FederatedQuery.Language.Codec
import FederatedQuery.Proofs.Json.Decode

/-!
# Decoding language objects

A reader of so many levels reads every language object whose encoding has no more of them.
This is an induction on the levels, not on the object: one more level takes one step into
each of the types, which refer to each other, and what lies below has a level less.
-/

namespace FederatedQuery

open Json

/-! ## Words, values and symbols -/

@[simp] theorem CompareOp.ofJson?_toJson (op : CompareOp) : ofJson? op.toJson = some op :=
  tagged?_of_find (by cases op <;> rfl)

@[simp] theorem CompoundOp.ofJson?_toJson (op : CompoundOp) : ofJson? op.toJson = some op :=
  tagged?_of_find (by cases op <;> rfl)

@[simp] theorem Quantifier.ofJson?_toJson (quantifier : Quantifier) :
    Quantifier.ofJson? quantifier.toJson = Option.some quantifier :=
  tagged?_of_find (by cases quantifier <;> rfl)

@[simp] theorem AggregateFunction.ofJson?_toJson (function : AggregateFunction) :
    ofJson? function.toJson = some function :=
  tagged?_of_find (by cases function <;> rfl)

@[simp] theorem PushdownMode.ofJson?_toJson (mode : PushdownMode) :
    ofJson? mode.toJson = some mode :=
  tagged?_of_find (by cases mode <;> rfl)

@[simp] theorem Determinism.ofJson?_toJson (determinism : Determinism) :
    ofJson? determinism.toJson = some determinism :=
  tagged?_of_find (by cases determinism <;> rfl)

@[simp] theorem DataType.ofJson?_toJson (type : DataType) : ofJson? type.toJson = some type :=
  tagged?_of_find (by cases type <;> rfl)

@[simp] theorem Value.ofJson?_toJson (value : Value) : ofJson? value.toJson = some value := by
  cases value with
  | null => rfl
  | bool value => rfl
  | int64 value => simp [ofJson?, toJson, int64?_int]
  | float64 value => rfl
  | string text => rfl
  | date days => simp [ofJson?, toJson, int32?_int]
  | timestamp milliseconds => simp [ofJson?, toJson, int64?_int]

@[simp] theorem GroupSymbol.ofJson?_toJson (group : GroupSymbol) :
    ofJson? group.toJson = some group := by
  simp [ofJson?, toJson, members?]

@[simp] theorem ElementSymbol.ofJson?_toJson (element : ElementSymbol) :
    ofJson? element.toJson = some element := by
  simp [ofJson?, toJson, members?]

namespace XmlNamespace

@[simp] theorem ofJson?_toJson (names : XmlNamespace) : ofJson? names.toJson = some names := by
  simp [ofJson?, toJson]

@[simp] theorem clauseOfJson?_clauseToJson (clause : List XmlNamespace) :
    clauseOfJson? (clauseToJson clause) = some clause := by
  simp [clauseOfJson?, clauseToJson, members?]

@[simp] theorem clauseToJson_ne_null (clause : List XmlNamespace) :
    clauseToJson clause ≠ .null := nofun

end XmlNamespace

/-! ## Lists and options of language objects -/

theorem Expr.toJsons_eq (exprs : List Expr) : toJsons exprs = exprs.map toJson :=
  eq_map_of_cons (by rw [toJsons]) (fun _ _ => by rw [toJsons]) exprs

theorem Criteria.toJsons_eq (criteria : List Criteria) :
    toJsons criteria = criteria.map toJson :=
  eq_map_of_cons (by rw [toJsons]) (fun _ _ => by rw [toJsons]) criteria

def CaseBranch.toJson (branch : CaseBranch) : Json :=
  .array [branch.value.toJson, branch.result.toJson]

theorem CaseBranch.toJsons_eq (branches : List CaseBranch) :
    toJsons branches = branches.map toJson :=
  eq_map_of_cons (by rw [toJsons]) (fun ⟨_, _⟩ _ => by rw [toJsons, toJson]) branches

def SearchedBranch.toJson (branch : SearchedBranch) : Json :=
  .array [branch.condition.toJson, branch.result.toJson]

theorem SearchedBranch.toJsons_eq (branches : List SearchedBranch) :
    toJsons branches = branches.map toJson :=
  eq_map_of_cons (by rw [toJsons]) (fun ⟨_, _⟩ _ => by rw [toJsons, toJson]) branches

def CorrelatedReference.toJson (reference : CorrelatedReference) : Json :=
  .array [reference.element.toJson, reference.expr.toJson]

theorem CorrelatedReference.toJsons_eq (references : List CorrelatedReference) :
    toJsons references = references.map toJson :=
  eq_map_of_cons (by rw [toJsons]) (fun ⟨_, _⟩ _ => by rw [toJsons, toJson]) references

def Expr.argsToJson (exprs : List Expr) : Json := .object [("args", .array (exprs.map toJson))]

theorem Expr.clauseToJson_eq (clause : Option (List Expr)) :
    clauseToJson clause = ofOption argsToJson clause := by
  cases clause with
  | none => rfl
  | some exprs => rw [clauseToJson, ofOption, argsToJson, toJsons_eq]

theorem Expr.optionToJson_eq (expr? : Option Expr) :
    optionToJson expr? = ofOption toJson expr? := by
  cases expr? <;> rfl

theorem Criteria.optionToJson_eq (criteria? : Option Criteria) :
    optionToJson criteria? = ofOption toJson criteria? := by
  cases criteria? <;> rfl

theorem Command.optionToJson_eq (command? : Option Command) :
    optionToJson command? = ofOption toJson command? := by
  cases command? <;> rfl

def SubqueryPlan.toJson (plan : SubqueryPlan) : Json := optionToJson (some plan)

theorem SubqueryPlan.optionToJson_eq (plan? : Option SubqueryPlan) :
    optionToJson plan? = ofOption toJson plan? := by
  cases plan? <;> rfl

/-! ## Levels -/

namespace Json

variable {α : Type} {encode : α → Json} {decode : Json → Option α} {levels : Nat}

theorem levels_le_of_mem_items {items : List Json} {item : Json} (member : item ∈ items) :
    item.levels ≤ levelsOfItems items := by
  induction items with
  | nil => cases member
  | cons head rest ih =>
      rw [levelsOfItems]
      rcases List.mem_cons.mp member with rfl | h
      · exact Nat.le_max_left _ _
      · exact Nat.le_trans (ih h) (Nat.le_max_right _ _)

theorem levelsOfMembers_eq (members : List (String × Json)) :
    levelsOfMembers members = levelsOfItems (members.map Prod.snd) := by
  induction members with
  | nil => rfl
  | cons member rest ih =>
      obtain ⟨name, value⟩ := member
      rw [levelsOfMembers, ih, List.map_cons, levelsOfItems]

theorem levels_item_le {items : List Json} {item : Json} (deep : (array items).levels ≤ levels)
    (member : item ∈ items) : item.levels ≤ levels := by
  rw [Json.levels] at deep
  exact Nat.le_trans (levels_le_of_mem_items member) (Nat.le_of_succ_le deep)

theorem levels_member_le {members : List (String × Json)} {value : Json}
    (deep : (object members).levels ≤ levels) (name : String)
    (found : findMember name members = some (some value)) : value.levels ≤ levels := by
  rw [Json.levels, levelsOfMembers_eq] at deep
  have member := List.mem_map_of_mem (f := Prod.snd) (mem_of_findMember found)
  exact Nat.le_trans (levels_le_of_mem_items member) (Nat.le_of_succ_le deep)

theorem levels_variant_le {name : String} {payload : Json} :
    (variant name payload).levels ≤ levels + 1 ↔ payload.levels ≤ levels := by
  simp [variant, Json.levels, levelsOfMembers]

def Reads (levels : Nat) (encode : α → Json) (decode : Json → Option α) : Prop :=
  ∀ value, (encode value).levels ≤ levels → decode (encode value) = some value

theorem Reads.listOf (reads : Reads levels encode decode) {values : List α}
    (deep : (array (values.map encode)).levels ≤ levels) :
    listOf decode (.array (values.map encode)) = some values :=
  listOf_map fun _ member => reads _ (levels_item_le deep (List.mem_map_of_mem member))

theorem Reads.nullable (reads : Reads levels encode decode) (notNull : ∀ own, encode own ≠ .null)
    {value : Option α} (deep : (ofOption encode value).levels ≤ levels) :
    nullable decode (ofOption encode value) = some value := by
  refine nullable_ofOption (fun own hown => reads own ?_) notNull
  cases hown
  exact deep

end Json

theorem Expr.toJson_ne_null (expr : Expr) : expr.toJson ≠ .null := by
  cases expr <;> nofun

theorem Criteria.toJson_ne_null (criteria : Criteria) : criteria.toJson ≠ .null := by
  cases criteria <;> nofun

theorem Command.toJson_ne_null (command : Command) : command.toJson ≠ .null := by
  cases command <;> nofun

theorem SubqueryPlan.toJson_ne_null (plan : SubqueryPlan) : plan.toJson ≠ .null := by
  cases plan <;> nofun

namespace LanguageReader

/-- A reader of so many levels reads every language object that has no more. -/
structure Faithful (reader : LanguageReader) (levels : Nat) : Prop where
  expr : Reads levels Expr.toJson reader.expr
  criteria : Reads levels Criteria.toJson reader.criteria
  command : Reads levels Command.toJson reader.command

variable {reader : LanguageReader} {levels : Nat}

namespace Faithful

theorem functionCall (faithful : reader.Faithful levels) :
    Reads levels FunctionCall.toJson reader.functionCall := by
  rintro ⟨name, args, returnType, pushdown, determinism⟩ deep
  rw [FunctionCall.toJson, Expr.toJsons_eq] at deep ⊢
  have hargs := faithful.expr.listOf (levels_member_le deep "args" rfl)
  simp [LanguageReader.functionCall, members?, hargs]

theorem aggregateCall (faithful : reader.Faithful levels) :
    Reads levels AggregateCall.toJson reader.aggregateCall := by
  rintro ⟨function, arg, distinct⟩ deep
  rw [AggregateCall.toJson, Expr.optionToJson_eq] at deep ⊢
  have harg := faithful.expr.nullable Expr.toJson_ne_null (levels_member_le deep "arg" rfl)
  simp [LanguageReader.aggregateCall, members?, harg]

theorem caseBranch (faithful : reader.Faithful levels) :
    Reads levels CaseBranch.toJson reader.caseBranch := by
  rintro ⟨value, result⟩ deep
  have hvalue := faithful.expr value (levels_item_le deep (by simp))
  have hresult := faithful.expr result (levels_item_le deep (by simp))
  simp [CaseBranch.toJson, LanguageReader.caseBranch, hvalue, hresult]

theorem searchedBranch (faithful : reader.Faithful levels) :
    Reads levels SearchedBranch.toJson reader.searchedBranch := by
  rintro ⟨condition, result⟩ deep
  have hcondition := faithful.criteria condition (levels_item_le deep (by simp))
  have hresult := faithful.expr result (levels_item_le deep (by simp))
  simp [SearchedBranch.toJson, LanguageReader.searchedBranch, hcondition, hresult]

theorem correlatedReference (faithful : reader.Faithful levels) :
    Reads levels CorrelatedReference.toJson reader.correlatedReference := by
  rintro ⟨element, expr⟩ deep
  have hexpr := faithful.expr expr (levels_item_le deep (by simp))
  simp [CorrelatedReference.toJson, LanguageReader.correlatedReference, hexpr]

theorem attributes (faithful : reader.Faithful levels) :
    Reads levels Expr.argsToJson reader.attributes := by
  intro exprs deep
  have hexprs := faithful.expr.listOf (levels_member_le deep "args" rfl)
  simp [Expr.argsToJson, LanguageReader.attributes, members?, hexprs]

theorem subqueryPlan (faithful : reader.Faithful levels) :
    Reads levels SubqueryPlan.toJson reader.subqueryPlan := by
  rintro (⟨command, hasChild⟩ | _ | _) deep
  · rw [SubqueryPlan.toJson, SubqueryPlan.optionToJson, Command.optionToJson_eq] at deep ⊢
    have payload := levels_member_le deep "Access" rfl
    have hcommand := faithful.command.nullable Command.toJson_ne_null
      (levels_member_le payload "command" rfl)
    simp [LanguageReader.subqueryPlan, members?, hcommand]
  · rfl
  · rfl

theorem subquery (faithful : reader.Faithful levels) :
    Reads levels Subquery.toJson reader.subquery := by
  rintro ⟨command, references, plan⟩ deep
  rw [Subquery.toJson, CorrelatedReference.toJsons_eq, SubqueryPlan.optionToJson_eq] at deep ⊢
  have hcommand := faithful.command _ (levels_member_le deep "command" rfl)
  have hreferences := faithful.correlatedReference.listOf
    (levels_member_le deep "correlated_references" rfl)
  have hplan := faithful.subqueryPlan.nullable SubqueryPlan.toJson_ne_null
    (levels_member_le deep "plan" rfl)
  simp [LanguageReader.subquery, members?, hcommand, hreferences, hplan]

theorem query (faithful : reader.Faithful levels) :
    Reads levels Query.toJson reader.query := by
  rintro ⟨select, sources, criteria, groupBy, having, isXml⟩ deep
  rw [Query.toJson, Expr.toJsons_eq, Expr.toJsons_eq, Criteria.optionToJson_eq,
    Criteria.optionToJson_eq] at deep ⊢
  have hselect := faithful.expr.listOf (levels_member_le deep "select" rfl)
  have hcriteria := faithful.criteria.nullable Criteria.toJson_ne_null
    (levels_member_le deep "criteria" rfl)
  have hgroup := faithful.expr.listOf (levels_member_le deep "group_by" rfl)
  have hhaving := faithful.criteria.nullable Criteria.toJson_ne_null
    (levels_member_le deep "having" rfl)
  simp [LanguageReader.query, members?, hselect, hcriteria, hgroup, hhaving]

theorem exprLevel (faithful : reader.Faithful levels) :
    Reads (levels + 1) Expr.toJson reader.exprLevel := by
  intro expr deep
  cases expr with
  | column element => simp [Expr.toJson, LanguageReader.exprLevel]
  | literal value => simp [Expr.toJson, LanguageReader.exprLevel]
  | function call =>
      rw [Expr.toJson, levels_variant_le] at deep
      simp [Expr.toJson, LanguageReader.exprLevel, faithful.functionCall call deep]
  | aggregate call =>
      rw [Expr.toJson, levels_variant_le] at deep
      simp [Expr.toJson, LanguageReader.exprLevel, faithful.aggregateCall call deep]
  | case operand branches otherwise =>
      rw [Expr.toJson, CaseBranch.toJsons_eq, Expr.optionToJson_eq] at deep ⊢
      rw [levels_variant_le] at deep
      have hoperand := faithful.expr operand (levels_member_le deep "operand" rfl)
      have hbranches := faithful.caseBranch.listOf (levels_member_le deep "branches" rfl)
      have hotherwise := faithful.expr.nullable Expr.toJson_ne_null
        (levels_member_le deep "else_expr" rfl)
      simp [LanguageReader.exprLevel, members?, hoperand, hbranches, hotherwise]
  | searchedCase branches otherwise =>
      rw [Expr.toJson, SearchedBranch.toJsons_eq, Expr.optionToJson_eq] at deep ⊢
      rw [levels_variant_le] at deep
      have hbranches := faithful.searchedBranch.listOf (levels_member_le deep "branches" rfl)
      have hotherwise := faithful.expr.nullable Expr.toJson_ne_null
        (levels_member_le deep "else_expr" rfl)
      simp [LanguageReader.exprLevel, members?, hbranches, hotherwise]
  | scalarSubquery subquery =>
      rw [Expr.toJson, levels_variant_le] at deep
      simp [Expr.toJson, LanguageReader.exprLevel, faithful.subquery subquery deep]
  | xmlElement name namespaces attributes content =>
      rw [Expr.toJson, Expr.clauseToJson_eq, Expr.toJsons_eq] at deep ⊢
      rw [levels_variant_le] at deep
      have hattributes := faithful.attributes.nullable (fun _ => nofun)
        (levels_member_le deep "attributes" rfl)
      have hcontent := faithful.expr.listOf (levels_member_le deep "content" rfl)
      simp [LanguageReader.exprLevel, members?, hattributes, hcontent]
  | xmlForest namespaces items =>
      rw [Expr.toJson, Expr.toJsons_eq] at deep ⊢
      rw [levels_variant_le] at deep
      have hitems := faithful.expr.listOf (levels_member_le deep "args" rfl)
      simp [LanguageReader.exprLevel, members?, hitems]

theorem criteriaLevel (faithful : reader.Faithful levels) :
    Reads (levels + 1) Criteria.toJson reader.criteriaLevel := by
  intro criteria deep
  cases criteria with
  | not operand =>
      rw [Criteria.toJson, levels_variant_le] at deep
      simp [Criteria.toJson, LanguageReader.criteriaLevel, faithful.criteria operand deep]
  | compare left op right =>
      rw [Criteria.toJson, levels_variant_le] at deep
      have hleft := faithful.expr left (levels_member_le deep "left" rfl)
      have hright := faithful.expr right (levels_member_le deep "right" rfl)
      simp [Criteria.toJson, LanguageReader.criteriaLevel, members?, hleft, hright]
  | compound op operands =>
      rw [Criteria.toJson, Criteria.toJsons_eq] at deep ⊢
      rw [levels_variant_le] at deep
      have hoperands := faithful.criteria.listOf (levels_member_le deep "criteria" rfl)
      simp [LanguageReader.criteriaLevel, members?, hoperands]
  | isNull expr negated =>
      rw [Criteria.toJson, levels_variant_le] at deep
      have hexpr := faithful.expr expr (levels_member_le deep "expr" rfl)
      simp [Criteria.toJson, LanguageReader.criteriaLevel, members?, hexpr]
  | like left pattern escape negated =>
      rw [Criteria.toJson, levels_variant_le] at deep
      have hleft := faithful.expr left (levels_member_le deep "left" rfl)
      have hpattern := faithful.expr pattern (levels_member_le deep "right" rfl)
      simp [Criteria.toJson, LanguageReader.criteriaLevel, members?, hleft, hpattern]
  | inList expr values negated =>
      rw [Criteria.toJson, Expr.toJsons_eq] at deep ⊢
      rw [levels_variant_le] at deep
      have hexpr := faithful.expr expr (levels_member_le deep "expr" rfl)
      have hvalues := faithful.expr.listOf (levels_member_le deep "values" rfl)
      simp [LanguageReader.criteriaLevel, members?, hexpr, hvalues]
  | dependentSet expr valueSource valueExpr =>
      rw [Criteria.toJson, levels_variant_le] at deep
      have hexpr := faithful.expr expr (levels_member_le deep "expr" rfl)
      have hvalue := faithful.expr valueExpr (levels_member_le deep "value_expr" rfl)
      simp [Criteria.toJson, LanguageReader.criteriaLevel, members?, hexpr, hvalue]
  | inSubquery expr subquery negated =>
      rw [Criteria.toJson, levels_variant_le] at deep
      have hexpr := faithful.expr expr (levels_member_le deep "expr" rfl)
      have hsubquery := faithful.subquery subquery (levels_member_le deep "subquery" rfl)
      simp [Criteria.toJson, LanguageReader.criteriaLevel, members?, hexpr, hsubquery]
  | existence subquery negated =>
      rw [Criteria.toJson, levels_variant_le] at deep
      have hsubquery := faithful.subquery subquery (levels_member_le deep "subquery" rfl)
      simp [Criteria.toJson, LanguageReader.criteriaLevel, members?, hsubquery]
  | quantified left op quantifier subquery =>
      rw [Criteria.toJson, levels_variant_le] at deep
      have hleft := faithful.expr left (levels_member_le deep "left" rfl)
      have hsubquery := faithful.subquery subquery (levels_member_le deep "subquery" rfl)
      simp [Criteria.toJson, LanguageReader.criteriaLevel, members?, hleft, hsubquery]

theorem commandLevel (faithful : reader.Faithful levels) :
    Reads (levels + 1) Command.toJson reader.commandLevel := by
  intro command deep
  cases command with
  | query query =>
      rw [Command.toJson, levels_variant_le] at deep
      simp [Command.toJson, LanguageReader.commandLevel, faithful.query query deep]
  | other text => simp [Command.toJson, LanguageReader.commandLevel]

end Faithful

theorem faithful_ofLevels (levels : Nat) : (ofLevels levels).Faithful levels := by
  induction levels with
  | zero =>
      have none_fits {json : Json} : ¬ json.levels ≤ 0 := by
        cases json <;> simp [Json.levels]
      exact ⟨fun _ h => absurd h none_fits, fun _ h => absurd h none_fits,
        fun _ h => absurd h none_fits⟩
  | succ levels ih => exact ⟨ih.exprLevel, ih.criteriaLevel, ih.commandLevel⟩

end LanguageReader

@[simp] theorem Expr.ofJson?_toJson (expr : Expr) : Expr.ofJson? expr.toJson = some expr :=
  (LanguageReader.faithful_ofLevels _).expr _ (Nat.le_refl _)

@[simp] theorem Criteria.ofJson?_toJson (criteria : Criteria) :
    Criteria.ofJson? criteria.toJson = some criteria :=
  (LanguageReader.faithful_ofLevels _).criteria _ (Nat.le_refl _)

@[simp] theorem Command.ofJson?_toJson (command : Command) :
    Command.ofJson? command.toJson = some command :=
  (LanguageReader.faithful_ofLevels _).command _ (Nat.le_refl _)

@[simp] theorem Subquery.ofJson?_toJson (subquery : Subquery) :
    Subquery.ofJson? subquery.toJson = some subquery :=
  (LanguageReader.faithful_ofLevels _).subquery _ (Nat.le_refl _)

@[simp] theorem SubqueryPlan.ofJson?_toJson (plan : SubqueryPlan) :
    SubqueryPlan.ofJson? plan.toJson = some plan :=
  (LanguageReader.faithful_ofLevels _).subqueryPlan _ (Nat.le_refl _)

end FederatedQuery
