/-!
Finite maps listed in the order of their keys.

The entries are kept strictly increasing, so two maps with the same bindings are
equal, and every listing of a map is in key order.
-/

namespace FederatedQuery

structure OrderedMap (κ ν : Type) [Ord κ] where
  entries : List (κ × ν)
  increasing : entries.Pairwise fun first second => compare first.1 second.1 = .lt

namespace OrderedMap

variable {κ ν : Type} [Ord κ]

def empty : OrderedMap κ ν := ⟨[], .nil⟩

def findEntry (key : κ) : List (κ × ν) → Option ν
  | [] => none
  | (other, value) :: rest => if compare key other = .eq then some value else findEntry key rest

def get? (map : OrderedMap κ ν) (key : κ) : Option ν := findEntry key map.entries

def insertEntry (key : κ) (value : ν) : List (κ × ν) → List (κ × ν)
  | [] => [(key, value)]
  | (other, old) :: rest =>
      match compare key other with
      | .lt => (key, value) :: (other, old) :: rest
      | .eq => (key, value) :: rest
      | .gt => (other, old) :: insertEntry key value rest

theorem mem_insertEntry {key : κ} {value : ν} {entries : List (κ × ν)} {entry : κ × ν}
    (member : entry ∈ insertEntry key value entries) :
    entry = (key, value) ∨ entry ∈ entries := by
  induction entries with
  | nil => exact .inl (by simpa [insertEntry] using member)
  | cons head rest ih =>
      simp only [insertEntry] at member
      split at member
      · rcases List.mem_cons.mp member with h | h
        · exact .inl h
        · exact .inr h
      · rcases List.mem_cons.mp member with h | h
        · exact .inl h
        · exact .inr (List.mem_cons_of_mem _ h)
      · rcases List.mem_cons.mp member with h | h
        · exact .inr (h ▸ List.mem_cons_self)
        · rcases ih h with h | h
          · exact .inl h
          · exact .inr (List.mem_cons_of_mem _ h)

theorem insertEntry_increasing [Std.TransOrd κ] (key : κ) (value : ν) {entries : List (κ × ν)}
    (increasing : entries.Pairwise fun first second => compare first.1 second.1 = .lt) :
    (insertEntry key value entries).Pairwise
      fun first second => compare first.1 second.1 = .lt := by
  induction entries with
  | nil => exact List.pairwise_singleton _ _
  | cons head rest ih =>
      obtain ⟨below, tail⟩ := List.pairwise_cons.mp increasing
      simp only [insertEntry]
      split
      · rename_i order
        refine List.pairwise_cons.mpr ⟨fun entry member => ?_, increasing⟩
        rcases List.mem_cons.mp member with h | h
        · exact h ▸ order
        · exact Std.TransCmp.lt_trans order (below entry h)
      · rename_i order
        exact List.pairwise_cons.mpr
          ⟨fun entry member => Std.TransCmp.lt_of_eq_of_lt order (below entry member), tail⟩
      · rename_i order
        refine List.pairwise_cons.mpr ⟨fun entry member => ?_, ih tail⟩
        rcases mem_insertEntry member with h | h
        · exact h ▸ Std.OrientedCmp.lt_of_gt order
        · exact below entry h

def insert [Std.TransOrd κ] (map : OrderedMap κ ν) (key : κ) (value : ν) : OrderedMap κ ν :=
  ⟨insertEntry key value map.entries, insertEntry_increasing key value map.increasing⟩

/-- Binds the keys of a list from left to right; a later binding of a key wins. -/
def ofList [Std.TransOrd κ] (bindings : List (κ × ν)) : OrderedMap κ ν :=
  bindings.foldl (fun map binding => map.insert binding.1 binding.2) empty

def toList (map : OrderedMap κ ν) : List (κ × ν) := map.entries

theorem findEntry_insertEntry [Std.TransOrd κ] (key probe : κ) (value : ν)
    (entries : List (κ × ν)) :
    findEntry probe (insertEntry key value entries) =
      if compare probe key = .eq then some value else findEntry probe entries := by
  induction entries with
  | nil => simp [insertEntry, findEntry]
  | cons head rest ih =>
      simp only [insertEntry]
      split
      · simp [findEntry]
      · rename_i order
        by_cases hit : compare probe key = .eq
        · simp [findEntry, hit]
        · have miss : ¬ compare probe head.1 = .eq := fun same =>
            hit (Std.TransCmp.eq_trans same (Std.OrientedCmp.eq_symm order))
          simp [findEntry, hit, miss]
      · rename_i order
        simp only [findEntry, ih]
        by_cases hit : compare probe key = .eq
        · have miss : ¬ compare probe head.1 = .eq := fun same => by
            have := Std.TransCmp.eq_trans (Std.OrientedCmp.eq_symm hit) same
            rw [order] at this
            exact absurd this (by decide)
          simp [hit, miss]
        · simp [hit]

theorem get?_insert [Std.TransOrd κ] (map : OrderedMap κ ν) (key probe : κ) (value : ν) :
    (map.insert key value).get? probe =
      if compare probe key = .eq then some value else map.get? probe :=
  findEntry_insertEntry key probe value map.entries

@[simp] theorem get?_empty (probe : κ) : (empty : OrderedMap κ ν).get? probe = none := rfl

end OrderedMap

end FederatedQuery
