import FederatedQuery.Language.Typing
import FederatedQuery.Proofs.Text.LowerCase
import FederatedQuery.Pushdown.Federation

/-!
What calls of functions and of aggregates ask of a source, told by their form, and
what a record says of capabilities and of functions.

A constant call is asked of nobody.  Any other is a conversion, a formatting or a
parsing by a pattern, or neither, and the first two have to be confirmed.  Without a
translator all conversions are confirmed, and no patterns.
-/

namespace FederatedQuery

/-! ### Records -/

namespace SourceCapabilities

variable {record : SourceCapabilities}

def Offers (record : SourceCapabilities) (capability : Capability) : Prop :=
  record.capabilities.get? capability = some true

def Lists (record : SourceCapabilities) (name : String) : Prop :=
  record.functions.get? (Text.lowerCase name) = some true

instance : DecidablePred record.Offers := fun _ => inferInstanceAs (Decidable (_ = _))

instance : DecidablePred record.Lists := fun _ => inferInstanceAs (Decidable (_ = _))

theorem supports_iff {capability : Capability} :
    record.supports capability ↔ record.Offers capability := by
  rw [supports, Offers]
  cases record.capabilities.get? capability <;> simp

theorem supportsFunction_iff_lists {name : String} :
    record.supportsFunction name ↔ record.Lists name := by
  rw [supportsFunction, Lists]
  cases record.functions.get? (Text.lowerCase name) <;> simp

theorem supportsConvert_iff {source target : DataType} :
    record.supportsConvert source target ↔
      ∀ translator, record.translator = some translator → translator.converts source target := by
  rw [supportsConvert]
  cases record.translator <;> simp

theorem supportsPattern_iff {pattern : String} {kind : PatternKind} :
    record.supportsPattern pattern kind ↔
      ∃ translator, record.translator = some translator ∧
        translator.acceptsPattern pattern kind := by
  rw [supportsPattern]
  cases record.translator <;> simp

end SourceCapabilities

/-! ### Constant calls -/

/-- Built from literals by deterministic functions. -/
inductive Expr.Foldable : Expr → Prop
  | literal (value : Value) : Foldable (.literal value)
  | function {call : FunctionCall} (deterministic : call.determinism = .deterministic)
      (args : ∀ arg ∈ call.args, Foldable arg) : Foldable (.function call)

theorem Expr.areConstant_iff {exprs : List Expr} :
    areConstant exprs ↔ ∀ expr ∈ exprs, expr.isConstant := by
  induction exprs with
  | nil => simp [areConstant]
  | cons expr rest ih => rw [areConstant, Bool.and_eq_true, ih, List.forall_mem_cons]

theorem Expr.Foldable.isConstant {expr : Expr} (foldable : expr.Foldable) : expr.isConstant := by
  induction foldable with
  | literal value => rfl
  | @function call deterministic _ ih =>
      obtain ⟨name, args, returnType, pushdown, determinism⟩ := call
      rw [Expr.isConstant, Bool.and_eq_true, Expr.areConstant_iff]
      exact ⟨beq_iff_eq.mpr deterministic, ih⟩

mutual

theorem Expr.foldable_of_isConstant : ∀ {expr : Expr}, expr.isConstant → expr.Foldable
  | .literal value, _ => .literal value
  | .function ⟨_, args, _, _, _⟩, constant => by
      rw [isConstant, Bool.and_eq_true, beq_iff_eq] at constant
      exact .function constant.1 (foldable_of_areConstant constant.2)

theorem Expr.foldable_of_areConstant :
    ∀ {exprs : List Expr}, areConstant exprs → ∀ expr ∈ exprs, expr.Foldable
  | [], _ => nofun
  | expr :: rest, constant => by
      rw [areConstant, Bool.and_eq_true] at constant
      exact List.forall_mem_cons.mpr
        ⟨foldable_of_isConstant constant.1, foldable_of_areConstant constant.2⟩

end

theorem Expr.isConstant_iff {expr : Expr} : expr.isConstant ↔ expr.Foldable :=
  ⟨Expr.foldable_of_isConstant, Expr.Foldable.isConstant⟩

instance (expr : Expr) : Decidable expr.Foldable := decidable_of_iff _ Expr.isConstant_iff

/-! ### Aggregates -/

def AggregateFunction.ofExpression : AggregateFunction → Capability
  | .count => .queryAggregatesCount
  | .sum => .queryAggregatesSum
  | .avg => .queryAggregatesAvg
  | .min => .queryAggregatesMin
  | .max => .queryAggregatesMax

/-- COUNT without an argument counts rows, which is a capability of its own. -/
def AggregateCall.needs (call : AggregateCall) : List Capability :=
  [.queryAggregates, if call.function = .count ∧ call.arg.isNone then .queryAggregatesCountStar
    else call.function.ofExpression] ++
      if call.distinct then [.queryAggregatesDistinct] else []

theorem SourceCapabilities.supportsAggregate_iff {record : SourceCapabilities}
    {call : AggregateCall} :
    record.supportsAggregate call ↔ ∀ capability ∈ call.needs, record.Offers capability := by
  simp only [← supports_iff]
  obtain ⟨function, arg, distinct⟩ := call
  cases function <;> cases arg <;> cases distinct <;>
    simp [supportsAggregate, AggregateCall.capability, AggregateCall.needs,
      AggregateFunction.ofExpression, and_assoc]

/-! ### Conversions and patterns -/

def PatternKind.nouns : PatternKind → List String
  | .date => ["date", "time", "timestamp"]
  | .number => ["integer", "long", "double", "float", "biginteger", "bigdecimal"]

namespace FunctionCall

structure Converts (call : FunctionCall) (source target : DataType) : Prop where
  named : Text.sameIgnoringAsciiCase call.name "convert" ∨
    Text.sameIgnoringAsciiCase call.name "cast"
  source : ∃ value rest, call.args = value :: rest ∧ value.dataType = source
  target : call.returnType = target

/-- The function formats or parses values of this kind, by a pattern that is a literal. -/
structure FormatsBy (call : FunctionCall) (kind : PatternKind) (pattern : String) : Prop where
  named : ∃ verb ∈ ["format", "parse"], ∃ noun ∈ kind.nouns, Text.lowerCase call.name = verb ++ noun
  literal : ∃ value rest, call.args = value :: .literal (.string pattern) :: rest

/-- The translator confirms what a conversion converts, and what a format is given by. -/
structure ConfirmedBy (call : FunctionCall) (record : SourceCapabilities) : Prop where
  conversion : ∀ {source target}, call.Converts source target →
    ∀ translator, record.translator = some translator → translator.converts source target
  format : ∀ {kind pattern}, call.FormatsBy kind pattern →
    ∃ translator, record.translator = some translator ∧ translator.acceptsPattern pattern kind

variable {call : FunctionCall} {source target : DataType} {kind : PatternKind} {pattern : String}

theorem conversionTypes?_eq_some_iff :
    call.conversionTypes? = some (source, target) ↔ call.Converts source target := by
  simp only [conversionTypes?, isConversion, Option.ite_none_right_eq_some, Bool.or_eq_true]
  constructor
  · rintro ⟨named, types⟩
    obtain ⟨value, hvalue, ⟨⟩⟩ := Option.map_eq_some_iff.mp types
    obtain ⟨rest, hargs⟩ := List.head?_eq_some_iff.mp hvalue
    exact ⟨named, ⟨value, rest, hargs, rfl⟩, rfl⟩
  · rintro ⟨named, ⟨value, rest, hargs, rfl⟩, rfl⟩
    exact ⟨named, by rw [hargs]; rfl⟩

theorem mem_patternFunctions_iff {name : String} :
    (match kind with
      | .date => datePatternFunctions
      | .number => numberPatternFunctions).contains name ↔
      ∃ verb ∈ ["format", "parse"], ∃ noun ∈ kind.nouns, name = verb ++ noun := by
  have spelled : (match kind with
      | .date => datePatternFunctions
      | .number => numberPatternFunctions) =
        ["format", "parse"].flatMap fun verb => kind.nouns.map (verb ++ ·) := by
    cases kind <;> decide
  rw [spelled, List.contains_iff_mem, List.mem_flatMap]
  simp only [List.mem_map, eq_comm]

theorem patternKind?_eq_some_iff : call.patternKind? = some kind ↔
    ∃ verb ∈ ["format", "parse"], ∃ noun ∈ kind.nouns, Text.lowerCase call.name = verb ++ noun := by
  rw [← mem_patternFunctions_iff, patternKind?]
  have apart (number : numberPatternFunctions.contains (Text.lowerCase call.name)) :
      datePatternFunctions.contains (Text.lowerCase call.name) = false := by
    have disjoint : ∀ name ∈ numberPatternFunctions,
      datePatternFunctions.contains name = false := by decide
    exact disjoint _ (List.contains_iff_mem.mp number)
  cases kind with
  | date => cases datePatternFunctions.contains (Text.lowerCase call.name) <;> simp
  | number =>
      cases number : numberPatternFunctions.contains (Text.lowerCase call.name) with
      | false => simp
      | true =>
          rw [apart number]
          simp

theorem literalPattern?_eq_some_iff :
    call.literalPattern? = some (pattern, kind) ↔ call.FormatsBy kind pattern := by
  rw [literalPattern?, Option.bind_eq_bind, Option.bind_eq_some_iff]
  constructor
  · rintro ⟨kind', hkind, found⟩
    split at found
    · next value pattern' rest hargs =>
        cases found
        exact ⟨patternKind?_eq_some_iff.mp hkind, value, rest, hargs⟩
    · cases found
  · rintro ⟨named, value, rest, hargs⟩
    exact ⟨kind, patternKind?_eq_some_iff.mpr named, by rw [hargs]⟩

theorem Converts.not_formatsBy (converts : call.Converts source target) :
    ¬ call.FormatsBy kind pattern := by
  rintro ⟨⟨verb, hverb, noun, hnoun, name⟩, -⟩
  have asciiConvert : Text.IsAscii "convert" := by simp [Text.IsAscii]
  have asciiCast : Text.IsAscii "cast" := by simp [Text.IsAscii]
  have others : ∀ verb ∈ ["format", "parse"], ∀ noun ∈ kind.nouns,
      verb ++ noun ≠ Text.lowerCase "convert" ∧ verb ++ noun ≠ Text.lowerCase "cast" := by
    cases kind <;> decide
  obtain ⟨notConvert, notCast⟩ := others verb hverb noun hnoun
  rcases converts.named with same | same
  · exact notConvert (name.symm.trans (asciiConvert.lowerCase_variant same))
  · exact notCast (name.symm.trans (asciiCast.lowerCase_variant same))

end FunctionCall

theorem SourceCapabilities.supportsCall_iff {record : SourceCapabilities} {call : FunctionCall} :
    record.supportsCall call ↔
      call.pushdown = .must ∨ record.Lists call.name ∧ call.ConfirmedBy record := by
  rw [supportsCall, Bool.or_eq_true, beq_iff_eq, Bool.and_eq_true, supportsFunction_iff_lists]
  refine or_congr_right (and_congr_right fun _ => ?_)
  cases hconversion : call.conversionTypes? with
  | some types =>
      have converts := FunctionCall.conversionTypes?_eq_some_iff.mp hconversion
      refine ⟨fun confirmed => ⟨fun converts' => ?_, fun formats => ?_⟩,
        fun confirmed => supportsConvert_iff.mpr (confirmed.conversion converts)⟩
      · cases hconversion.symm.trans (FunctionCall.conversionTypes?_eq_some_iff.mpr converts')
        exact supportsConvert_iff.mp confirmed
      · exact (converts.not_formatsBy formats).elim
  | none =>
      have unconverted {source target : DataType} (converts : call.Converts source target) :
          False := by
        cases hconversion.symm.trans (FunctionCall.conversionTypes?_eq_some_iff.mpr converts)
      cases hpattern : call.literalPattern? with
      | some format =>
          have formats := FunctionCall.literalPattern?_eq_some_iff.mp hpattern
          refine ⟨fun confirmed => ⟨fun converts => (unconverted converts).elim,
            fun formats' => ?_⟩,
            fun confirmed => supportsPattern_iff.mpr (confirmed.format formats)⟩
          cases hpattern.symm.trans (FunctionCall.literalPattern?_eq_some_iff.mpr formats')
          exact supportsPattern_iff.mp confirmed
      | none =>
          refine iff_of_true rfl ⟨fun converts => (unconverted converts).elim, fun formats => ?_⟩
          cases hpattern.symm.trans (FunctionCall.literalPattern?_eq_some_iff.mpr formats)

instance (record : SourceCapabilities) (call : FunctionCall) :
    Decidable (call.pushdown = .must ∨
      record.Lists call.name ∧ call.ConfirmedBy record) :=
  decidable_of_iff _ SourceCapabilities.supportsCall_iff

end FederatedQuery
