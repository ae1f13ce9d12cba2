import FederatedQuery.Config
import FederatedQuery.Proofs.Json.Edits
import FederatedQuery.Proofs.Json.Text

/-!
# Texts of settings

A text decodes to the settings that it names, with defaults for the others, in whatever order
they stand and whatever else stands beside them.  The ranges are checked afterwards.
-/

namespace FederatedQuery

variable {omitted : List String} {edited : Json}

namespace OptimizerConfig

/-- The settings, those that are omitted at their defaults. -/
def reset (omitted : List String) (config : OptimizerConfig) : OptimizerConfig :=
  let default : OptimizerConfig := {}
  { maxRuleExecutions := if "max_rule_executions" ∈ omitted then default.maxRuleExecutions
      else config.maxRuleExecutions
    enableTrace := if "enable_trace" ∈ omitted then default.enableTrace else config.enableTrace
    recordDebug := if "record_debug" ∈ omitted then default.recordDebug else config.recordDebug }

theorem word?_toNat (most : UInt64) :
    (Json.int most.toNat).word?.map UInt64.ofNat = some most := by
  have inside : (0 : Int) ≤ most.toNat ∧ (most.toNat : Int) ≤ UInt64.size - 1 := by
    have bound := most.toNat_lt_size
    omega
  rw [Json.word?, Json.intWithin?, if_pos inside]
  simp

theorem ofJson?_revised {config : OptimizerConfig}
    (revises : Json.Revises omitted config.toJson edited) :
    ofJson? edited = some (config.reset omitted) := by
  obtain ⟨members, found, revises⟩ := revises.exists_fields
  have most := revises.defaulted (by simp) (.head _)
    (fun value => value.word?.map UInt64.ofNat) (word?_toNat _)
  have trace := revises.defaulted (by simp) (.tail _ (.head _)) Json.bool? (Json.bool?_bool _)
  have debug := revises.defaulted (by simp) (.tail _ (.tail _ (.head _))) Json.bool?
    (Json.bool?_bool _)
  rw [ofJson?, show edited.fields? fields = some members from found]
  simp only [Option.bind_eq_bind, Option.bind_some, most, trace, debug]
  rfl

end OptimizerConfig

namespace DependentJoinConfig

def reset (omitted : List String) (config : DependentJoinConfig) : DependentJoinConfig :=
  let default : DependentJoinConfig := {}
  { independentCardinalityThreshold :=
      if "independent_cardinality_threshold" ∈ omitted then default.independentCardinalityThreshold
      else config.independentCardinalityThreshold }

theorem ofJson?_revised {config : DependentJoinConfig}
    (revises : Json.Revises omitted config.toJson edited) :
    ofJson? edited = some (config.reset omitted) := by
  obtain ⟨members, found, revises⟩ := revises.exists_fields
  have threshold := revises.defaulted (by simp) (.head _) Json.float? (Json.float?_float _)
  rw [ofJson?, show edited.fields? fields = some members from found]
  simp only [Option.bind_eq_bind, Option.bind_some, threshold]
  rfl

end DependentJoinConfig

namespace Config

variable {config : Config} {text : String}

def reset (omitted : List String) (config : Config) : Config :=
  let default : Config := {}
  { optimizer := if "optimizer" ∈ omitted then default.optimizer
      else config.optimizer.reset omitted
    dependentJoin := if "dependent_join" ∈ omitted then default.dependentJoin
      else config.dependentJoin.reset omitted }

/-- The settings as an object, with settings and sections omitted and members added, or listed up
to the omitted ones. -/
def Revised (config : Config) (omitted : List String) (edited : Json) : Prop :=
  ∃ optimizer dependentJoin, Json.Revises omitted config.optimizer.toJson optimizer ∧
    Json.Revises omitted config.dependentJoin.toJson dependentJoin ∧
    Json.Revises omitted
      (.object [("optimizer", optimizer), ("dependent_join", dependentJoin)]) edited

theorem ofJson?_revised (revised : config.Revised omitted edited) :
    ofJson? edited = some (config.reset omitted) := by
  obtain ⟨optimizer, dependentJoin, hoptimizer, hdependentJoin, revises⟩ := revised
  obtain ⟨members, found, revises⟩ := revises.exists_fields
  have first := revises.defaulted (by simp) (.head _) _
    (OptimizerConfig.ofJson?_revised hoptimizer)
  have second := revises.defaulted (by simp) (.tail _ (.head _)) _
    (DependentJoinConfig.ofJson?_revised hdependentJoin)
  rw [ofJson?, show edited.fields? fields = some members from found]
  simp only [Option.bind_eq_bind, Option.bind_some, first, second]
  rfl

theorem revised_self (config : Config) : config.Revised [] config.toJson :=
  ⟨_, _, .self _, .self _, .self _⟩

/-! ## Ranges -/

structure Valid (config : Config) : Prop where
  executions : config.optimizer.maxRuleExecutions ≠ 0
  finite : config.dependentJoin.independentCardinalityThreshold.isFinite = true
  notNegative : ¬ config.dependentJoin.independentCardinalityThreshold < 0

theorem validate_cases (config : Config) : config.Valid ∧ config.validate = .ok () ∨
    ¬ config.Valid ∧ ∃ detail, config.validate = .error (.invalidParameter detail) := by
  unfold validate
  dsimp only
  by_cases zero : config.optimizer.maxRuleExecutions = 0
  · rw [if_pos zero]
    exact .inr ⟨fun valid => valid.executions zero, _, rfl⟩
  · rw [if_neg zero]
    cases finite : config.dependentJoin.independentCardinalityThreshold.isFinite
    · exact .inr ⟨fun valid => by simp [valid.finite] at finite, _, rfl⟩
    · by_cases negative : config.dependentJoin.independentCardinalityThreshold < 0
      · rw [decide_eq_true negative]
        exact .inr ⟨fun valid => valid.notNegative negative, _, rfl⟩
      · rw [decide_eq_false negative]
        exact .inl ⟨⟨zero, finite, negative⟩, rfl⟩

theorem validate_eq_ok_iff : config.validate = .ok () ↔ config.Valid := by
  rcases config.validate_cases with ⟨valid, ok⟩ | ⟨invalid, detail, error⟩
  · exact iff_of_true ok valid
  · exact iff_of_false (by simp [error]) invalid

theorem maxRuleExecutions_reset (config : Config) (omitted : List String) :
    (config.reset omitted).optimizer.maxRuleExecutions = 100 ∨
      (config.reset omitted).optimizer.maxRuleExecutions =
        config.optimizer.maxRuleExecutions := by
  by_cases whole : "optimizer" ∈ omitted <;> by_cases own : "max_rule_executions" ∈ omitted <;>
    simp [reset, OptimizerConfig.reset, whole, own]

theorem threshold_reset (config : Config) (omitted : List String) :
    (config.reset omitted).dependentJoin.independentCardinalityThreshold = 10 ∨
      (config.reset omitted).dependentJoin.independentCardinalityThreshold =
        config.dependentJoin.independentCardinalityThreshold := by
  by_cases whole : "dependent_join" ∈ omitted <;>
    by_cases own : "independent_cardinality_threshold" ∈ omitted <;>
      simp [reset, DependentJoinConfig.reset, whole, own]

theorem Valid.reset (valid : config.Valid) (omitted : List String) :
    (config.reset omitted).Valid where
  executions := by
    rcases config.maxRuleExecutions_reset omitted with same | same <;> rw [same]
    · decide
    · exact valid.executions
  finite := by
    rcases config.threshold_reset omitted with same | same <;> rw [same]
    · decide
    · exact valid.finite
  notNegative := by
    rcases config.threshold_reset omitted with same | same <;> rw [same]
    · decide
    · exact valid.notNegative

/-! ## Reading -/

theorem parse_of_decodes (decodes : (Json.parse text).bind ofJson? = some config) :
    parse text = config.validate.map fun _ => config := by
  rw [parse, decodes]
  dsimp only
  rcases config.validate_cases with ⟨-, ok⟩ | ⟨-, detail, error⟩
  · rw [ok]
    rfl
  · rw [error]
    rfl

theorem parse_eq_ok_iff : parse text = .ok config ↔
    (Json.parse text).bind ofJson? = some config ∧ config.Valid := by
  cases decodes : (Json.parse text).bind ofJson? with
  | none =>
      rw [parse, decodes]
      exact iff_of_false nofun (by simp)
  | some found =>
      rw [parse_of_decodes decodes, Option.some.injEq]
      rcases found.validate_cases with ⟨valid, ok⟩ | ⟨invalid, detail, error⟩
      · rw [ok]
        exact ⟨fun same => by cases same; exact ⟨rfl, valid⟩, fun ⟨same, _⟩ => congrArg _ same⟩
      · rw [error]
        exact iff_of_false nofun fun ⟨same, valid⟩ => invalid (same ▸ valid)

/-! ## Written settings -/

theorem readable_toJson (config : Config)
    (back : Json.ReadsBack config.dependentJoin.independentCardinalityThreshold) :
    config.toJson.Readable := by
  have least : Int64.minValue.toInt ≤ (config.optimizer.maxRuleExecutions.toNat : Int) :=
    Int.le_trans (by decide) (Int.natCast_nonneg _)
  have greatest : (config.optimizer.maxRuleExecutions.toNat : Int) ≤ Json.significandLimit :=
    Int.ofNat_le.mpr (Nat.le_sub_one_of_lt config.optimizer.maxRuleExecutions.toNat_lt_size)
  have optimizer : config.optimizer.toJson.Readable := by
    refine .object ?_
    simp [Json.Readable.bool, Json.Readable.int least greatest]
  have dependentJoin : config.dependentJoin.toJson.Readable := by
    refine .object ?_
    simp [Json.Readable.float back]
  refine .object ?_
  simp [optimizer, dependentJoin]

theorem ofJson?_render
    (back : Json.ReadsBack config.dependentJoin.independentCardinalityThreshold) :
    (Json.parse config.render).bind ofJson? = some config := by
  rw [render, Json.parse_pretty (config.readable_toJson back), Option.bind_some,
    ofJson?_revised config.revised_self]
  rfl

theorem parse_revised (valid : config.Valid) (revised : config.Revised omitted edited)
    (read : Json.parse text = some edited) : parse text = .ok (config.reset omitted) := by
  have decodes : (Json.parse text).bind ofJson? = some (config.reset omitted) := by
    rw [read, Option.bind_some, ofJson?_revised revised]
  exact parse_eq_ok_iff.mpr ⟨decodes, valid.reset omitted⟩

/-- Settings are read back as they were written, and with defaults for what was taken out of the
text, whatever else was put in.  All that is read is valid, and a text with a value out of range
is refused for that. -/
theorem text_roundTrips :
    (∀ config : Config, config.validate = .ok () →
      (Json.ReadsBack config.dependentJoin.independentCardinalityThreshold →
        parse config.render = .ok config) ∧
      ∀ omitted edited, config.Revised omitted edited →
        (∀ text, Json.parse text = some edited → parse text = .ok (config.reset omitted)) ∧
        (edited.Readable → parse edited.pretty = .ok (config.reset omitted))) ∧
    (∀ text config, parse text = .ok config → config.validate = .ok ()) ∧
    ∀ text config, (Json.parse text).bind ofJson? = some config →
      config.optimizer.maxRuleExecutions = 0 ∨
        config.dependentJoin.independentCardinalityThreshold < 0 →
      ∃ detail, parse text = .error (.invalidParameter detail) := by
  refine ⟨fun config valid => ?_, fun text config read => ?_, fun text config decodes outside => ?_⟩
  · rw [validate_eq_ok_iff] at valid
    refine ⟨fun back => parse_eq_ok_iff.mpr ⟨ofJson?_render back, valid⟩, ?_⟩
    exact fun omitted edited revised => ⟨fun text read => parse_revised valid revised read,
      fun readable => parse_revised valid revised (Json.parse_pretty readable)⟩
  · exact validate_eq_ok_iff.mpr (parse_eq_ok_iff.mp read).2
  · rcases config.validate_cases with ⟨valid, -⟩ | ⟨-, detail, error⟩
    · exact absurd outside (not_or.mpr ⟨valid.executions, valid.notNegative⟩)
    · exact ⟨detail, by rw [parse_of_decodes decodes, error]; rfl⟩

def traced : Config :=
  { optimizer := { maxRuleExecutions := 7, enableTrace := true, recordDebug := true }
    dependentJoin := { independentCardinalityThreshold := 250 } }

def tracedNotes : Json :=
  .object [("optimizer", .object [("note", .null), ("enable_trace", .bool true)]),
    ("enable_trace", .string "yes")]

def tracedList : Json := .array [.array [.int 7, .bool true]]

def unexecuted : Config := { traced with optimizer := traced.optimizer.withMaxRuleExecutions 0 }

theorem readsBack_traced :
    Json.ReadsBack traced.dependentJoin.independentCardinalityThreshold := by
  have written : Decimal.render .json 250 = "250.0" := by decide +kernel
  have value : Json.NumberText.float? ⟨false, [2, 5, 0], some [0], none⟩ = some 250 := by
    decide +kernel
  have json : Json.NumberText.toJson ⟨false, [2, 5, 0], some [0], none⟩ = .float 250 := by
    rw [Json.NumberText.toJson, value]
    rfl
  have number : Json.readNumber (Json.skipSpace "250.0".toList) = some (.float 250, []) := by
    rw [← json]
    rfl
  rw [Json.ReadsBack, Json.render]
  change Json.parse (Decimal.render .json 250) = some (.float 250)
  rw [written]
  exact (Json.ReadsAs.of_readNumber number rfl).parse

theorem traced_roundTrips :
    traced.validate = .ok () ∧
      Json.ReadsBack traced.dependentJoin.independentCardinalityThreshold ∧
      traced.Revised ["max_rule_executions", "record_debug", "dependent_join"] tracedNotes ∧
      tracedNotes.Readable ∧
      traced.Revised ["record_debug", "dependent_join"] tracedList ∧
      tracedList.Readable ∧
      parse traced.render = .ok traced ∧
      parse tracedNotes.pretty = .ok { optimizer := { enableTrace := true } } ∧
      parse tracedList.pretty =
        .ok { optimizer := { maxRuleExecutions := 7, enableTrace := true } } ∧
      ∃ detail, parse unexecuted.render = .error (.invalidParameter detail) := by
  have valid : traced.validate = .ok () := rfl
  obtain ⟨back, edits⟩ := text_roundTrips.1 traced valid
  have revised : traced.Revised ["max_rule_executions", "record_debug", "dependent_join"]
      tracedNotes := by
    refine ⟨.object [("note", .null), ("enable_trace", .bool true)], traced.dependentJoin.toJson,
      .object ?_, .object ?_, .object ?_⟩
    · exact .refl _
    · exact .refl _
    · exact .refl _
  have readable : tracedNotes.Readable := by
    have notes : Json.Readable (.object [("note", .null), ("enable_trace", .bool true)]) :=
      .object (by simp [Json.Readable.null, Json.Readable.bool])
    exact .object (by simp [notes, Json.Readable.string])
  have listed : traced.Revised ["record_debug", "dependent_join"] tracedList := by
    refine ⟨.array [.int 7, .bool true], traced.dependentJoin.toJson, ?_, .object (.refl _), ?_⟩
    · exact .list 2 (by simp) (by simp)
    · exact .list 1 (by simp) (by simp)
  have listReadable : tracedList.Readable := by
    have settings : Json.Readable (.array [.int 7, .bool true]) :=
      .array (by
        simp only [List.mem_cons, List.not_mem_nil, or_false, forall_eq_or_imp, forall_eq]
        exact ⟨.int (by decide) (by decide), .bool true⟩)
    exact .array (by simp [settings])
  refine ⟨valid, readsBack_traced, revised, readable, listed, listReadable, back readsBack_traced,
    (edits _ _ revised).2 readable, (edits _ _ listed).2 listReadable, ?_⟩
  exact text_roundTrips.2.2 _ unexecuted (ofJson?_render readsBack_traced) (.inl rfl)

end Config

end FederatedQuery
