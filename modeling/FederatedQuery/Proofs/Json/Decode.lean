import FederatedQuery.Json.Decode
import Mathlib.Data.List.Basic

/-!
# Decoding what was encoded

The members of an encoded record are found under their names, and the items of an
encoded list in their order.  A member that may be missing is encoded as null, and
nothing else is.
-/

namespace FederatedQuery.Json

variable {α : Type} {encode : α → Json} {decode : Json → Option α} {name : String}
  {rest : List (String × Json)}

/-- What is encoded can be decoded, and encoding it again makes no difference. -/
structure RoundTrips (encode : α → Json) (decode : Json → Option α) : Prop where
  decode_encode : ∀ value, decode (encode value) = some value
  encode_again : ∀ {value decoded}, decode (encode value) = some decoded →
    encode decoded = encode value

theorem RoundTrips.of_decode_encode (h : ∀ value, decode (encode value) = some value) :
    RoundTrips encode decode :=
  ⟨h, fun hdecoded => congrArg encode (Option.some.inj (hdecoded.symm.trans (h _)))⟩

/-! ## Texts and numbers -/

@[simp] theorem text?_string (text : String) : (Json.string text).text? = some text := by
  rw [text?]

@[simp] theorem char?_string (char : Char) :
    (Json.string (String.singleton char)).char? = some char := by
  simp [char?]

@[simp] theorem bool?_bool (value : Bool) : (Json.bool value).bool? = some value := by
  rw [bool?]

@[simp] theorem float?_float (value : Float) : (Json.float value).float? = some value := by
  rw [float?]

theorem int64?_int (value : Int64) : (Json.int value.toInt).int64? = some value.toInt :=
  if_pos ⟨value.le_toInt, value.toInt_le⟩

theorem int32?_int (value : Int32) : (Json.int value.toInt).int32? = some value.toInt :=
  if_pos ⟨value.minValue_le_toInt, value.toInt_le⟩

@[simp] theorem isNull_eq_false_iff {json : Json} : json.isNull = false ↔ json ≠ .null := by
  cases json <;> simp [isNull]

/-! ## Records -/

theorem findMember_cons_self (unique : name ∉ rest.map Prod.fst) (value : Json) :
    findMember name ((name, value) :: rest) = some (some value) := by
  have others : valuesNamed name rest = [] := by
    rw [valuesNamed, List.map_eq_nil_iff, List.filter_eq_nil_iff]
    intro member hmember same
    exact unique (List.mem_map.mpr ⟨member, hmember, beq_iff_eq.mp same⟩)
  have own : valuesNamed name ((name, value) :: rest) = value :: valuesNamed name rest := by
    simp [valuesNamed]
  rw [findMember, own, others]

theorem findMember_cons_of_ne {other : String} (ne : other ≠ name) (value : Json) :
    findMember name ((other, value) :: rest) = findMember name rest := by
  have skipped : valuesNamed name ((other, value) :: rest) = valuesNamed name rest := by
    simp [valuesNamed, ne]
  rw [findMember, skipped]
  rfl

theorem mem_of_findMember {members : List (String × Json)} {value : Json}
    (found : findMember name members = some (some value)) : (name, value) ∈ members := by
  have named : value ∈ valuesNamed name members := by
    rw [findMember] at found
    split at found
    · cases found
    · rename_i own
      cases found
      rw [own]
      exact List.mem_singleton_self _
    · cases found
  obtain ⟨member, hmember, rfl⟩ := List.mem_map.mp named
  obtain ⟨inside, same⟩ := List.mem_filter.mp hmember
  rwa [← beq_iff_eq.mp same]

@[simp] theorem required_cons_self (unique : name ∉ rest.map Prod.fst) (value : Json) :
    required ((name, value) :: rest) name decode = decode value := by
  rw [required, findMember_cons_self unique]
  rfl

@[simp] theorem required_cons_of_ne {other : String} (ne : other ≠ name) (value : Json) :
    required ((other, value) :: rest) name decode = required rest name decode := by
  rw [required, required, findMember_cons_of_ne ne]

def nullable (decode : Json → Option α) (json : Json) : Option (Option α) :=
  if json.isNull then some none else (decode json).map some

@[simp] theorem optional_cons_self (unique : name ∉ rest.map Prod.fst) (value : Json) :
    optional ((name, value) :: rest) name decode = nullable decode value := by
  rw [optional, findMember_cons_self unique, nullable]
  cases value with
  | null => rfl
  | _ => exact Option.map_eq_bind.symm

@[simp] theorem optional_cons_of_ne {other : String} (ne : other ≠ name) (value : Json) :
    optional ((other, value) :: rest) name decode = optional rest name decode := by
  rw [optional, optional, findMember_cons_of_ne ne]

/-! ## Lists, options and constructors -/

theorem mapM_map {β : Type} {encode : α → β} {decode : β → Option α} {values : List α}
    (decodes : ∀ value ∈ values, decode (encode value) = some value) :
    (values.map encode).mapM decode = some values := by
  induction values with
  | nil => rfl
  | cons value rest ih =>
      obtain ⟨own, others⟩ := List.forall_mem_cons.mp decodes
      rw [List.map_cons, List.mapM_cons, own, ih others]
      rfl

/-- An encoding of lists that goes item by item. -/
theorem eq_map_of_cons {encodes : List α → List Json} (nil : encodes [] = [])
    (cons : ∀ value rest, encodes (value :: rest) = encode value :: encodes rest)
    (values : List α) : encodes values = values.map encode := by
  induction values with
  | nil => exact nil
  | cons value rest ih => rw [cons, ih, List.map_cons]

@[simp] theorem listOf_map {values : List α}
    (decodes : ∀ value ∈ values, decode (encode value) = some value) :
    listOf decode (.array (values.map encode)) = some values := mapM_map decodes

@[simp] theorem nullable_ofOption {value : Option α}
    (decodes : ∀ own ∈ value, decode (encode own) = some own)
    (notNull : ∀ own, encode own ≠ .null) :
    nullable decode (ofOption encode value) = some value := by
  cases value with
  | none => rfl
  | some own =>
      rw [nullable, ofOption, isNull_eq_false_iff.mpr (notNull own), decodes own rfl]
      rfl

theorem tagged?_of_find {all : List α} {tag : α → String} {value : α}
    (found : all.find? (tag · == tag value) = some value) :
    tagged? all tag (.string (tag value)) = some value := found

@[simp] theorem variant?_variant (name : String) (payload : Json) :
    (variant name payload).variant? = some (name, some payload) := rfl

end FederatedQuery.Json
