import FederatedQuery.Proofs.Json.Decode
import Mathlib.Data.List.Perm.Basic

/-!
# Edited objects

An object whose members are decoded by name does not depend on their order, nor on members under
names that nobody asks for.  A member with a default may also be left out.  The same record may
be written as the list of its members, of which the last ones may be left out.
-/

namespace FederatedQuery.Json

variable {α : Type} {name : String} {omitted : List String}
  {members members' : List (String × Json)}

/-- Members under omitted names are gone, and members under other names may have joined; or the
members are listed up to the omitted ones. -/
inductive Revises (omitted : List String) : Json → Json → Prop
  | object {members members' : List (String × Json)}
      (same : (members'.filter (·.1 ∈ members.map Prod.fst)).Perm
        (members.filter (·.1 ∉ omitted))) :
      Revises omitted (.object members) (.object members')
  | list {members : List (String × Json)} (count : Nat)
      (present : ∀ member ∈ members.take count, member.1 ∉ omitted)
      (absent : ∀ member ∈ members.drop count, member.1 ∈ omitted) :
      Revises omitted (.object members) (.array ((members.take count).map Prod.snd))

theorem Revises.self (members : List (String × Json)) :
    Revises [] (.object members) (.object members) := by
  refine .object ?_
  rw [List.filter_eq_self.mpr fun member hmember => by simpa using ⟨_, hmember⟩]
  simp

theorem Revises.exists_fields {edited : Json} (revises : Revises omitted (.object members) edited) :
    ∃ members', edited.fields? (members.map Prod.fst) = some members' ∧
      Revises omitted (.object members) (.object members') := by
  cases revises with
  | object same => exact ⟨_, rfl, .object same⟩
  | list count present absent =>
      have listed : members.map Prod.fst =
          (members.take count).map Prod.fst ++ (members.drop count).map Prod.fst := by
        rw [← List.map_append, List.take_append_drop]
      refine ⟨members.take count, ?_, .object ?_⟩
      · rw [fields?, if_pos (by simp only [List.length_map, List.length_take_le']), listed,
          ← List.append_nil (List.map Prod.snd _), List.zip_append (by simp), List.zip_nil_right,
          List.append_nil, ← List.zip_of_prod rfl rfl]
      · have named : (members.take count).filter (·.1 ∈ members.map Prod.fst) =
            members.take count := List.filter_eq_self.mpr fun member taken =>
          decide_eq_true (List.mem_map_of_mem (List.mem_of_mem_take taken))
        have stays : (members.take count).filter (·.1 ∉ omitted) = members.take count :=
          List.filter_eq_self.mpr fun member taken => decide_eq_true (present member taken)
        have ends : (members.drop count).filter (·.1 ∉ omitted) = [] :=
          List.filter_eq_nil_iff.mpr fun member left => by simpa using absent member left
        rw [named, ← List.take_append_drop count members, List.filter_append, ends,
          List.take_append_drop, stays, List.append_nil]

theorem valuesNamed_filter (keep : String → Bool) (members : List (String × Json)) :
    valuesNamed name (members.filter (keep ·.1)) =
      if keep name then valuesNamed name members else [] := by
  rw [valuesNamed, List.filter_filter]
  split
  · rename_i kept
    congr 1
    refine List.filter_congr fun member _ => ?_
    rcases eq_or_ne member.1 name with rfl | other
    · simp [kept]
    · simp [other]
  · rename_i dropped
    rw [List.map_eq_nil_iff, List.filter_eq_nil_iff]
    intro member _ both
    rw [Bool.and_eq_true, beq_iff_eq] at both
    exact dropped (both.1 ▸ both.2)

theorem findMember_filter (keep : String → Bool) (members : List (String × Json)) :
    findMember name (members.filter (keep ·.1)) =
      if keep name then findMember name members else some none := by
  rw [findMember, valuesNamed_filter, findMember]
  cases keep name <;> rfl

theorem findMember_perm (same : members.Perm members') :
    findMember name members = findMember name members' := by
  have values : (valuesNamed name members).Perm (valuesNamed name members') :=
    (same.filter _).map _
  have length := values.length_eq
  rw [findMember, findMember]
  generalize valuesNamed name members = found at values length
  generalize valuesNamed name members' = found' at values length
  cases found with
  | nil => rw [values.nil_eq]
  | cons first rest =>
      cases rest with
      | nil => rw [values.singleton_eq]
      | cons second rest =>
          obtain ⟨first', others, rfl⟩ := List.exists_of_length_succ found' length.symm
          obtain ⟨second', rest', rfl⟩ :=
            List.exists_of_length_succ others (Nat.succ.inj length).symm
          rfl

theorem Revises.findMember (revises : Revises omitted (.object members) (.object members'))
    (known : name ∈ members.map Prod.fst) :
    findMember name members' = if name ∈ omitted then some none else findMember name members := by
  obtain ⟨same⟩ := revises
  calc Json.findMember name members'
      = Json.findMember name (members'.filter (·.1 ∈ members.map Prod.fst)) := by
        rw [findMember_filter fun name => decide (name ∈ members.map Prod.fst),
          if_pos (decide_eq_true known)]
    _ = Json.findMember name (members.filter (·.1 ∉ omitted)) := findMember_perm same
    _ = _ := by
        rw [findMember_filter fun name => decide (name ∉ omitted)]
        by_cases gone : name ∈ omitted <;> simp [gone]

theorem findMember_of_mem {value : Json} (member : (name, value) ∈ members)
    (distinct : (members.map Prod.fst).Nodup) : findMember name members = some (some value) := by
  induction members with
  | nil => cases member
  | cons first rest ih =>
      obtain ⟨fresh, distinct⟩ := List.nodup_cons.mp distinct
      rcases List.mem_cons.mp member with rfl | member
      · exact findMember_cons_self fresh value
      · have other : first.1 ≠ name := by
          rintro rfl
          exact fresh (List.mem_map.mpr ⟨_, member, rfl⟩)
        rw [findMember_cons_of_ne other, ih member distinct]

/-- A member that is omitted takes its default, and any other is decoded. -/
theorem Revises.defaulted (revises : Revises omitted (.object members) (.object members'))
    (distinct : (members.map Prod.fst).Nodup) {value : Json} (member : (name, value) ∈ members)
    (decode : Json → Option α) {own : α} (decodes : decode value = some own) (default : α) :
    defaulted members' name default decode =
      some (if name ∈ omitted then default else own) := by
  rw [Json.defaulted, revises.findMember (List.mem_map_of_mem member),
    findMember_of_mem member distinct]
  split
  · rfl
  · exact decodes

end FederatedQuery.Json
