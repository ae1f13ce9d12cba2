import FederatedQuery.Proofs.Text.LowerCase
import FederatedQuery.SourceCapabilities

/-!
# The names of functions

Functions are looked up in lower case.  Every write keeps a record fit for that: it enters the
lower case of the name it is given, and takes no entry away.  A decoded record enters names as
they are spelled.  So its functions are found whatever the case of their names just if the
encoding spelled them in lower case, and no write makes up for a spelling that is not.
-/

namespace FederatedQuery

open Text

namespace OrderedMap

variable {κ ν : Type} [Ord κ] {key probe : κ} {value other : ν} {entries : List (κ × ν)}

def keys (map : OrderedMap κ ν) : List κ := map.toList.map Prod.fst

@[simp] theorem keys_empty : (empty : OrderedMap κ ν).keys = [] := rfl

theorem mem_keys_of_mem_toList {map : OrderedMap κ ν} (member : (key, value) ∈ map.toList) :
    key ∈ map.keys :=
  List.mem_map_of_mem member

section

variable [Std.LawfulEqOrd κ]

theorem mem_keys_insertEntry : probe ∈ (insertEntry key value entries).map Prod.fst ↔
    probe = key ∨ probe ∈ entries.map Prod.fst := by
  induction entries with
  | nil => simp [insertEntry]
  | cons entry rest ih =>
      rw [insertEntry]
      split
      · simp
      · rename_i order
        simp [← Std.compare_eq_iff_eq.mp order]
      · simp only [List.map_cons, List.mem_cons, ih]
        exact or_left_comm

theorem findEntry_eq_some_iff [Std.TransOrd κ]
    (increasing : entries.Pairwise fun first second => compare first.1 second.1 = .lt) :
    findEntry probe entries = some value ↔ (probe, value) ∈ entries := by
  induction entries with
  | nil => simp [findEntry]
  | cons entry rest ih =>
      obtain ⟨below, sorted⟩ := List.pairwise_cons.mp increasing
      rw [findEntry, List.mem_cons]
      split
      · rename_i order
        obtain rfl := Std.compare_eq_iff_eq.mp order
        have later : (entry.1, value) ∉ rest := fun member => by
          simpa using below _ member
        simp [later, Prod.ext_iff, eq_comm]
      · rename_i order
        have ne : probe ≠ entry.1 := fun same => order (Std.compare_eq_iff_eq.mpr same)
        simp [ih sorted, Prod.ext_iff, ne]

variable [Std.TransOrd κ]

theorem get?_eq_some_iff {map : OrderedMap κ ν} :
    map.get? probe = some value ↔ (probe, value) ∈ map.toList :=
  findEntry_eq_some_iff map.increasing

@[simp] theorem mem_keys_insert {map : OrderedMap κ ν} :
    probe ∈ (map.insert key value).keys ↔ probe = key ∨ probe ∈ map.keys :=
  mem_keys_insertEntry

theorem mem_keys_ofList {bindings : List (κ × ν)} :
    probe ∈ (ofList bindings).keys ↔ probe ∈ bindings.map Prod.fst := by
  have enters (map : OrderedMap κ ν) : probe ∈
      (bindings.foldl (fun map binding => map.insert binding.1 binding.2) map).keys ↔
        probe ∈ map.keys ∨ probe ∈ bindings.map Prod.fst := by
    induction bindings generalizing map with
    | nil => simp
    | cons binding rest ih =>
        rw [List.foldl_cons, ih, mem_keys_insert, List.map_cons, List.mem_cons, or_left_comm,
          or_assoc]
  rw [ofList, enters]
  simp

end

end OrderedMap

namespace SourceCapabilities

/-! ## Writes -/

inductive Write where
  | support (capability : Capability) (supported : Bool)
  | aggregates
  | function (name : String) (supported : Bool)
  | property (key : Capability) (value : Value)
  | translator (translator : Translator)

def write (record : SourceCapabilities) : Write → SourceCapabilities
  | .support capability supported => record.setSupport capability supported
  | .aggregates => record.enableAggregates
  | .function name supported => record.setFunction name supported
  | .property key value => record.setProperty key value
  | .translator translator => record.bindTranslator translator

def writeAll (record : SourceCapabilities) (writes : List Write) : SourceCapabilities :=
  writes.foldl write record

variable {record start : SourceCapabilities} {name : String} {writes : List Write} {json : Json}

def functionNames (record : SourceCapabilities) : List String := record.functions.keys

def Write.functionNames : Write → List String
  | .function name _ => [lowerCase name]
  | .support .. | .aggregates | .property .. | .translator _ => []

theorem functions_setSupport (capability : Capability) (supported : Bool) :
    (record.setSupport capability supported).functions = record.functions := by
  rw [setSupport]
  split <;> rfl

theorem mem_functionNames_write {written : Write} :
    name ∈ (record.write written).functionNames ↔
      name ∈ record.functionNames ∨ name ∈ written.functionNames := by
  cases written with
  | support capability supported =>
      simp [write, functionNames, Write.functionNames, functions_setSupport]
  | function spelled supported =>
      simp [write, setFunction, functionNames, Write.functionNames, or_comm]
  | aggregates | property | translator =>
      simp [write, enableAggregates, writeFlag, setProperty, bindTranslator, functionNames,
        Write.functionNames]

theorem mem_functionNames_writeAll :
    name ∈ (record.writeAll writes).functionNames ↔
      name ∈ record.functionNames ∨ ∃ written ∈ writes, name ∈ written.functionNames := by
  induction writes generalizing record with
  | nil => simp [writeAll]
  | cons written rest ih =>
      rw [writeAll, List.foldl_cons, ← writeAll, ih, mem_functionNames_write, or_assoc,
        List.exists_mem_cons_iff]

/-! ## Lower case -/

/-- Every function the record lists is listed in lower case. -/
def LowerCased (record : SourceCapabilities) : Prop :=
  ∀ name ∈ record.functionNames, lowerCase name = name

theorem Write.lowerCase_of_mem {written : Write} (member : name ∈ written.functionNames) :
    lowerCase name = name := by
  cases written with
  | function spelled _ => rw [List.mem_singleton.mp member, lowerCase_lowerCase]
  | support | aggregates | property | translator => cases member

theorem lowerCased_writeAll_iff : (record.writeAll writes).LowerCased ↔ record.LowerCased := by
  constructor
  · exact fun lowered name member => lowered name (mem_functionNames_writeAll.mpr (.inl member))
  · intro lowered name member
    rcases mem_functionNames_writeAll.mp member with earlier | ⟨written, -, entered⟩
    · exact lowered name earlier
    · exact Write.lowerCase_of_mem entered

theorem lowerCased_empty : empty.LowerCased := fun _ member => by cases member

/-- The names under which an encoded record lists functions. -/
def spelledFunctions (json : Json) : List String :=
  (((json.fields? fields).bind (Json.required · "functions" Json.members?)).getD []).map Prod.fst

theorem map_fst_of_mapM {ν : Type} {value? : Json → Option ν} {members : List (String × Json)}
    {bindings : List (String × ν)}
    (decoded : (members.mapM fun (name, value) => do return (← some name, ← value? value)) =
      some bindings) :
    bindings.map Prod.fst = members.map Prod.fst := by
  induction members generalizing bindings with
  | nil =>
      cases decoded
      rfl
  | cons member rest ih =>
      simp only [List.mapM_cons, Option.bind_eq_bind, Option.bind_eq_some_iff, Option.pure_def,
        Option.some.injEq] at decoded
      obtain ⟨_, ⟨_, rfl, value, -, rfl⟩, bindings, others, rfl⟩ := decoded
      rw [List.map_cons, List.map_cons, ih others]

theorem mem_keys_of_mapOfJson? {ν : Type} {value? : Json → Option ν} {map : OrderedMap String ν}
    (decoded : mapOfJson? some value? json = some map) :
    ∃ members, json.members? = some members ∧
      ∀ name, name ∈ map.keys ↔ name ∈ members.map Prod.fst := by
  simp only [mapOfJson?, Option.bind_eq_bind, Option.bind_eq_some_iff, Option.pure_def,
    Option.some.injEq] at decoded
  obtain ⟨members, hmembers, bindings, hbindings, rfl⟩ := decoded
  refine ⟨members, hmembers, fun name => ?_⟩
  rw [OrderedMap.mem_keys_ofList, map_fst_of_mapM (by simpa using hbindings)]

theorem mem_functionNames_of_ofJson? (decoded : ofJson? json = some record) :
    name ∈ record.functionNames ↔ name ∈ spelledFunctions json := by
  simp only [ofJson?, Option.bind_eq_bind, Option.bind_eq_some_iff, Option.pure_def,
    Option.some.injEq] at decoded
  obtain ⟨members, hmembers, capabilities, -, functions, hfunctions, properties, -, rfl⟩ := decoded
  simp only [Json.required, Option.bind_eq_bind, Option.bind_eq_some_iff] at hfunctions
  obtain ⟨_, hfound, value, rfl, hvalue⟩ := hfunctions
  obtain ⟨bindings, hbindings, same⟩ := mem_keys_of_mapOfJson? hvalue
  simp [functionNames, spelledFunctions, Json.required, hmembers, hfound, hbindings, same]

/-! ## Looking up -/

/-- Whatever the case of its ASCII letters, the name is one of a supported function. -/
def FoundInAnyCase (record : SourceCapabilities) (name : String) : Prop :=
  ∀ variant, sameIgnoringAsciiCase variant name → record.supportsFunction variant

theorem supportsFunction_iff :
    record.supportsFunction name ↔ (lowerCase name, true) ∈ record.functions.toList := by
  rw [supportsFunction, ← OrderedMap.get?_eq_some_iff]
  rcases record.functions.get? (lowerCase name) with _ | supported <;> simp

theorem foundInAnyCase_iff (ascii : IsAscii name) :
    record.FoundInAnyCase name ↔ (lowerCase name, true) ∈ record.functions.toList := by
  constructor
  · exact fun found => supportsFunction_iff.mp (found name (beq_self_eq_true _))
  · intro listed variant same
    rw [supportsFunction_iff, ascii.lowerCase_variant same]
    exact listed

theorem LowerCased.found (lowered : record.LowerCased)
    (listed : (name, true) ∈ record.functions.toList) (ascii : IsAscii name) :
    record.FoundInAnyCase name := by
  rw [foundInAnyCase_iff ascii, lowered name (OrderedMap.mem_keys_of_mem_toList listed)]
  exact listed

/-- Whatever is written to a record, its functions are listed in lower case just if it was new or
its encoding spelled them so.  All that are listed as supported are then found in any case; else
one is found just if it is listed in lower case as well. -/
theorem lowerCased_iff_spelled (decoded : ofJson? json = some start) (writes : List Write) :
    (empty.writeAll writes).LowerCased ∧
      ((start.writeAll writes).LowerCased ↔
        ∀ name ∈ spelledFunctions json, lowerCase name = name) ∧
      ∀ (record : SourceCapabilities) (name : String), (name, true) ∈ record.functions.toList →
        IsAscii name → (record.LowerCased → record.FoundInAnyCase name) ∧
          (record.FoundInAnyCase name ↔ (lowerCase name, true) ∈ record.functions.toList) := by
  refine ⟨lowerCased_writeAll_iff.mpr lowerCased_empty, ?_, fun record name listed ascii =>
    ⟨fun lowered => lowered.found listed ascii, foundInAnyCase_iff ascii⟩⟩
  rw [lowerCased_writeAll_iff, LowerCased]
  simp only [mem_functionNames_of_ofJson? decoded]

def listing (name : String) : Json :=
  .object [("capabilities", .object []), ("functions", .object [(name, .bool true)]),
    ("properties", .object [])]

theorem listing_lcase_found : ∃ start, ofJson? (listing "lcase") = some start ∧
    (start.writeAll [.function "UCase" true, .aggregates]).LowerCased ∧
      ("ucase", true) ∈ (start.writeAll [.function "UCase" true, .aggregates]).functions.toList ∧
        (start.writeAll [.function "UCase" true, .aggregates]).FoundInAnyCase "ucase" := by
  have decoded : ofJson? (listing "lcase") =
      some ⟨.empty, .ofList [("lcase", true)], .empty, none⟩ := rfl
  have settled : lowerCase "lcase" = "lcase" := by cbv
  have written : lowerCase "UCase" = "ucase" := by cbv
  obtain ⟨-, lowered, found⟩ := lowerCased_iff_spelled decoded [.function "UCase" true, .aggregates]
  have lowerCased := lowered.mpr fun name member => by
    obtain rfl := List.mem_singleton.mp (show name ∈ ["lcase"] from member)
    exact settled
  have listed : ("ucase", true) ∈ (writeAll ⟨.empty, .ofList [("lcase", true)], .empty, none⟩
      [.function "UCase" true, .aggregates]).functions.toList := by
    change ("ucase", true) ∈ (OrderedMap.insert _ (lowerCase "UCase") true).toList
    rw [written, ← OrderedMap.get?_eq_some_iff, OrderedMap.get?_insert,
      if_pos Std.ReflCmp.compare_self]
  exact ⟨_, decoded, lowerCased, listed,
    (found _ "ucase" listed (by simp [IsAscii])).1 lowerCased⟩

theorem listing_UCASE_lost : ∃ record, ofJson? (listing "UCASE") = some record ∧
    ("UCASE", true) ∈ record.functions.toList ∧ IsAscii "UCASE" ∧ ¬ record.LowerCased ∧
      record.supportsFunction "UCASE" = false ∧ record.supportsFunction "ucase" = false := by
  have written : lowerCase "UCASE" = "ucase" := by cbv
  have settled : lowerCase "ucase" = "ucase" := by cbv
  have listed : ("UCASE", true) ∈ (OrderedMap.ofList [("UCASE", true)]).toList := .head _
  have unlisted : ((OrderedMap.ofList [("UCASE", true)]).get? "ucase").getD false = false := by cbv
  refine ⟨_, rfl, listed, by simp [IsAscii], fun lowered => ?_, ?_, ?_⟩
  · have same := lowered "UCASE" (OrderedMap.mem_keys_of_mem_toList listed)
    rw [written] at same
    exact absurd same (by decide)
  · rw [supportsFunction, written]
    exact unlisted
  · rw [supportsFunction, settled]
    exact unlisted

end SourceCapabilities

end FederatedQuery
