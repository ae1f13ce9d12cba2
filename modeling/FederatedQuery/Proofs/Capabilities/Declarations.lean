import FederatedQuery.Proofs.Capabilities.FunctionNames

/-!
# Declared capabilities

Every declaration binds capabilities to flags: turning aggregates on binds three of them, and
any other declaration binds one.  A record answers for a capability with the flag that it was
bound to last, however the declarations of GROUP BY and HAVING are mixed with those of
aggregates.  Declarations of different capabilities can change places, and what is no
capability is left alone.
-/

namespace FederatedQuery

namespace OrderedMap

variable {κ ν : Type} [Ord κ] [Std.TransOrd κ] {first second : OrderedMap κ ν}

def insertAll (map : OrderedMap κ ν) (bindings : List (κ × ν)) : OrderedMap κ ν :=
  bindings.foldl (fun map binding => map.insert binding.1 binding.2) map

theorem insertAll_append (map : OrderedMap κ ν) (before after : List (κ × ν)) :
    map.insertAll (before ++ after) = (map.insertAll before).insertAll after :=
  List.foldl_append

variable [Std.LawfulEqOrd κ]

theorem eq_of_get? (same : ∀ key, first.get? key = second.get? key) : first = second := by
  have nodup (map : OrderedMap κ ν) : map.entries.Nodup :=
    map.increasing.imp fun below equal => by simp [equal] at below
  have listed (map : OrderedMap κ ν) (entry : κ × ν) :
      entry ∈ map.entries ↔ map.get? entry.1 = some entry.2 := get?_eq_some_iff.symm
  have perm : first.entries.Perm second.entries := by
    rw [List.perm_ext_iff_of_nodup (nodup first) (nodup second)]
    simp [listed, same]
  have entries : first.entries = second.entries := by
    apply perm.eq_of_pairwise _ first.increasing second.increasing
    intro entry other _ _ below above
    simp [Std.OrientedCmp.gt_of_lt below] at above
  cases first
  cases second
  cases entries
  rfl

variable [BEq κ] [LawfulBEq κ]

omit [Ord κ] [Std.TransOrd κ] [Std.LawfulEqOrd κ] in
theorem lookup_reverse_eq_none {bindings : List (κ × ν)} {key : κ}
    (unbound : key ∉ bindings.map Prod.fst) : bindings.reverse.lookup key = none := by
  rw [List.lookup_eq_none_iff]
  intro binding member
  simp only [bne_iff_ne, ne_eq]
  rintro rfl
  exact unbound (List.mem_map_of_mem (List.mem_reverse.mp member))

theorem get?_insertAll (map : OrderedMap κ ν) (bindings : List (κ × ν)) (probe : κ) :
    (map.insertAll bindings).get? probe =
      (bindings.reverse.lookup probe).or (map.get? probe) := by
  induction bindings generalizing map with
  | nil => simp [insertAll]
  | cons binding rest ih =>
      have inserted : map.insertAll (binding :: rest) =
          (map.insert binding.1 binding.2).insertAll rest := rfl
      rw [inserted, ih, get?_insert, List.reverse_cons, List.lookup_append, Option.or_assoc]
      by_cases same : probe = binding.1
      · simp [List.lookup, same]
      · simp [List.lookup, beq_eq_false_iff_ne.mpr same, same]

theorem insertAll_comm {before after : List (κ × ν)}
    (apart : (before.map Prod.fst).Disjoint (after.map Prod.fst)) (map : OrderedMap κ ν) :
    map.insertAll (before ++ after) = map.insertAll (after ++ before) := by
  refine eq_of_get? fun key => ?_
  simp only [get?_insertAll, List.reverse_append, List.lookup_append]
  by_cases bound : key ∈ before.map Prod.fst
  · simp [lookup_reverse_eq_none (apart bound)]
  · simp [lookup_reverse_eq_none bound]

end OrderedMap

instance : Std.LawfulEqOrd Capability where
  eq_of_compare := Capability.compare_eq_iff.mp

namespace SourceCapabilities

variable {record start : SourceCapabilities} {writes : List Write}

def Write.flags : Write → List (Capability × Bool)
  | .aggregates | .support .queryAggregates true =>
      [(.queryAggregates, true), (.queryGroupBy, true), (.queryHaving, true)]
  | .support capability supported => [(capability, supported)]
  | .function .. | .property .. | .translator _ => []

def Write.isDeclaration : Write → Bool
  | .support .. | .aggregates => true
  | .function .. | .property .. | .translator _ => false

theorem Write.flags_support {capability : Capability} {supported : Bool}
    (single : ¬ (capability = .queryAggregates ∧ supported = true)) :
    (Write.support capability supported).flags = [(capability, supported)] := by
  cases supported with
  | false => cases capability <;> rfl
  | true => cases capability <;> first | rfl | simp at single

/-- The last flag that the writes give a capability, if any of them declares it. -/
def declared? (writes : List Write) (capability : Capability) : Option Bool :=
  (writes.flatMap Write.flags).reverse.lookup capability

def declaredKeys (writes : List Write) : List Capability :=
  (writes.flatMap Write.flags).map Prod.fst

theorem writeAll_append (record : SourceCapabilities) (before after : List Write) :
    record.writeAll (before ++ after) = (record.writeAll before).writeAll after :=
  List.foldl_append

def withCapabilities (record : SourceCapabilities) (capabilities : OrderedMap Capability Bool) :
    SourceCapabilities :=
  { record with capabilities := capabilities }

theorem write_of_isDeclaration {written : Write} (declares : written.isDeclaration = true) :
    record.write written =
      record.withCapabilities (record.capabilities.insertAll written.flags) := by
  cases written with
  | support capability supported =>
      rw [write, setSupport]
      split
      · rename_i cascade
        obtain ⟨rfl, rfl⟩ := cascade
        rfl
      · rename_i single
        rw [Write.flags_support single]
        rfl
  | aggregates => rfl
  | function | property | translator => cases declares

theorem writeAll_of_isDeclaration (declares : ∀ written ∈ writes, written.isDeclaration = true) :
    record.writeAll writes =
      record.withCapabilities (record.capabilities.insertAll (writes.flatMap Write.flags)) := by
  induction writes generalizing record with
  | nil => rfl
  | cons written rest ih =>
      obtain ⟨first, others⟩ := List.forall_mem_cons.mp declares
      rw [List.flatMap_cons, OrderedMap.insertAll_append]
      change (record.write written).writeAll rest = _
      rw [ih others, write_of_isDeclaration first]
      rfl

theorem supports_writeAll (declares : ∀ written ∈ writes, written.isDeclaration = true)
    (probe : Capability) :
    (record.writeAll writes).supports probe =
      (declared? writes probe).getD (record.supports probe) := by
  rw [writeAll_of_isDeclaration declares, supports, withCapabilities, OrderedMap.get?_insertAll,
    ← declared?]
  cases declared? writes probe <;> simp [supports]

theorem writeAll_comm {first second : List Write}
    (declares : ∀ written ∈ first ++ second, written.isDeclaration = true)
    (apart : (declaredKeys first).Disjoint (declaredKeys second)) :
    record.writeAll (first ++ second) = record.writeAll (second ++ first) := by
  have exchanged : ∀ written ∈ second ++ first, written.isDeclaration = true :=
    fun written member => declares written (List.perm_append_comm.mem_iff.mp member)
  rw [writeAll_of_isDeclaration declares, writeAll_of_isDeclaration exchanged,
    List.flatMap_append, List.flatMap_append, OrderedMap.insertAll_comm apart]

/-- After declarations in any order a record supports what was declared supported last, and
keeps its answers for all else.  Declarations that have no capability in common can be
exchanged anywhere among the others.  Functions, settings and the translator stay. -/
theorem supports_last_declared (start : SourceCapabilities) (writes : List Write)
    (declares : ∀ written ∈ writes, written.isDeclaration = true) :
    (∀ probe, (start.writeAll writes).supports probe =
        (declared? writes probe).getD (start.supports probe)) ∧
      (∀ probe, (empty.writeAll writes).supports probe =
        (declared? writes probe).getD false) ∧
      (∀ before first second after, writes = before ++ (first ++ second) ++ after →
        (declaredKeys first).Disjoint (declaredKeys second) →
          start.writeAll (before ++ (second ++ first) ++ after) = start.writeAll writes) ∧
      (start.writeAll writes).functions = start.functions ∧
      (start.writeAll writes).properties = start.properties ∧
      (start.writeAll writes).translator = start.translator := by
  refine ⟨supports_writeAll declares, supports_writeAll declares, ?_, ?_⟩
  · rintro before first second after rfl apart
    have inner : ∀ written ∈ first ++ second, written.isDeclaration = true := by
      intro written member
      apply declares
      simp only [List.mem_append] at member ⊢
      tauto
    rw [writeAll_append, writeAll_append, writeAll_append start, writeAll_append start before,
      writeAll_comm inner apart]
  · simp [writeAll_of_isDeclaration declares, withCapabilities]

def mixedDeclarations : List Write :=
  [.support .queryGroupBy false, .support .queryAggregates true, .support .queryHaving false,
    .support .criteriaLike true, .support .queryAggregates false]

def negating : SourceCapabilities := (empty.setFunction "abs" true).writeFlag .criteriaNot true

theorem mixedDeclarations_supported :
    (∀ written ∈ mixedDeclarations, written.isDeclaration = true) ∧
      (negating.writeAll mixedDeclarations).supports .queryGroupBy = true ∧
      (negating.writeAll mixedDeclarations).supports .queryHaving = false ∧
      (negating.writeAll mixedDeclarations).supports .queryAggregates = false ∧
      (negating.writeAll mixedDeclarations).supports .criteriaNot = true ∧
      (empty.writeAll mixedDeclarations).supports .criteriaNot = false ∧
      negating.writeAll [.support .queryGroupBy false, .support .criteriaLike true,
          .support .queryAggregates true, .support .queryHaving false,
          .support .queryAggregates false] = negating.writeAll mixedDeclarations ∧
      (negating.writeAll mixedDeclarations).functions = negating.functions := by
  have declares : ∀ written ∈ mixedDeclarations, written.isDeclaration = true := by decide
  obtain ⟨answers, fresh, exchanged, functions, -⟩ :=
    supports_last_declared negating mixedDeclarations declares
  have apart : (declaredKeys [.support .queryAggregates true, .support .queryHaving false]).Disjoint
      (declaredKeys [.support .criteriaLike true]) := by simp [declaredKeys, Write.flags]
  exact ⟨declares, (answers _).trans rfl, (answers _).trans rfl, (answers _).trans rfl,
    (answers _).trans rfl, (fresh _).trans rfl,
    exchanged [.support .queryGroupBy false] _ _ [.support .queryAggregates false] rfl apart,
    functions⟩

end SourceCapabilities

end FederatedQuery
