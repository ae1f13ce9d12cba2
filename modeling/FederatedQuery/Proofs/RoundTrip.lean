import FederatedQuery.Proofs.Plan.Codec
import FederatedQuery.SourceCapabilities
import Mathlib.Data.List.Induction

/-!
# Round trips

What a source supports is encoded as objects with one member for each key, in the order of
the keys.  With that, everything that is encoded can be decoded to what it was.
-/

namespace FederatedQuery

open Json

namespace OrderedMap

variable {κ ν : Type} [Ord κ] [Std.TransOrd κ]

theorem insertEntry_append {key : κ} {value : ν} {entries : List (κ × ν)}
    (last : ∀ entry ∈ entries, compare entry.1 key = .lt) :
    insertEntry key value entries = entries ++ [(key, value)] := by
  induction entries with
  | nil => rfl
  | cons entry rest ih =>
      obtain ⟨below, others⟩ := List.forall_mem_cons.mp last
      rw [insertEntry, Std.OrientedCmp.gt_of_lt below, ih others]
      rfl

theorem entries_ofList {entries : List (κ × ν)}
    (increasing : entries.Pairwise fun first second => compare first.1 second.1 = .lt) :
    (ofList entries).entries = entries := by
  induction entries using List.reverseRecOn with
  | nil => rfl
  | append_singleton before binding ih =>
      obtain ⟨sorted, -, last⟩ := List.pairwise_append.mp increasing
      rw [ofList, List.foldl_append]
      change insertEntry binding.1 binding.2 (ofList before).entries = _
      rw [ih sorted, insertEntry_append fun entry member => last entry member binding (by simp)]

@[simp] theorem ofList_toList (map : OrderedMap κ ν) : ofList map.toList = map := by
  have same := entries_ofList map.increasing
  rw [toList]
  generalize ofList map.entries = read at same
  cases map
  cases read
  cases same
  rfl

end OrderedMap

@[simp] theorem Capability.ofTag?_tag (capability : Capability) :
    ofTag? capability.tag = some capability := by
  cases capability <;> rfl

namespace SourceCapabilities

theorem mapOfJson?_object {κ ν : Type} [Ord κ] [Std.TransOrd κ] {key? : String → Option κ}
    {value? : Json → Option ν} {name : κ → String} {encode : ν → Json}
    (named : ∀ key, key? (name key) = some key)
    (decodes : ∀ value, value? (encode value) = some value) (map : OrderedMap κ ν) :
    mapOfJson? key? value?
      (.object (map.toList.map fun entry => (name entry.1, encode entry.2))) = some map := by
  have bindings : (map.toList.map fun entry => (name entry.1, encode entry.2)).mapM
      (fun binding => do return (← key? binding.1, ← value? binding.2)) = some map.toList :=
    mapM_map fun entry _ => by simp [named, decodes]
  refine (congrArg (Option.bind · (some ∘ OrderedMap.ofList)) bindings).trans ?_
  rw [Option.bind_some, Function.comp_apply, OrderedMap.ofList_toList]

theorem ofJson?_toJson (record : SourceCapabilities) :
    ofJson? record.toJson = some { record with translator := none } := by
  have capabilities := mapOfJson?_object Capability.ofTag?_tag bool?_bool record.capabilities
  have functions := mapOfJson?_object (fun name : String => rfl) bool?_bool record.functions
  have properties := mapOfJson?_object Capability.ofTag?_tag Value.ofJson?_toJson record.properties
  simp [ofJson?, toJson, fields?, capabilities, functions, properties]

end SourceCapabilities

/-- Whatever can be encoded is decoded to what it was, and encoded as before; a source loses
its translator. -/
theorem codecs_roundTrip :
    RoundTrips Expr.toJson Expr.ofJson? ∧ RoundTrips Criteria.toJson Criteria.ofJson? ∧
      RoundTrips Command.toJson Command.ofJson? ∧ RoundTrips Subquery.toJson Subquery.ofJson? ∧
      RoundTrips SubqueryPlan.toJson SubqueryPlan.ofJson? ∧
      RoundTrips NodeKind.toJson NodeKind.ofJson? ∧ RoundTrips Plan.toJson Plan.ofJson? ∧
      ∀ record : SourceCapabilities,
        SourceCapabilities.ofJson? record.toJson = some { record with translator := none } ∧
        ({ record with translator := none } : SourceCapabilities).toJson = record.toJson :=
  ⟨.of_decode_encode Expr.ofJson?_toJson, .of_decode_encode Criteria.ofJson?_toJson,
    .of_decode_encode Command.ofJson?_toJson, .of_decode_encode Subquery.ofJson?_toJson,
    .of_decode_encode SubqueryPlan.ofJson?_toJson, .of_decode_encode NodeKind.ofJson?_toJson,
    .of_decode_encode Plan.ofJson?_toJson, fun record => ⟨record.ofJson?_toJson, rfl⟩⟩

end FederatedQuery
