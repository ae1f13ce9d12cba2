import FederatedQuery.Text.LowerCase
import Mathlib

/-!
# Lower case is final

Lower-casing a text in lower case changes nothing, and texts that differ in the case of ASCII
letters only have one lower case.

The first needs a fact about the table of runs: no lower-case form it yields is listed for
lowering again.  That is checked run against run, by bounds and strides, instead of character
by character.
-/

namespace FederatedQuery.Text

/-! ## The table of runs -/

namespace LowerRun

def low (run : LowerRun) : Nat := ((run.first : Int) + run.offset).toNat

def high (run : LowerRun) : Nat := ((run.last : Int) + run.offset).toNat

/-- No lower-case form of the run is covered by the other one: they lie apart, or out of step. -/
def avoids (run other : LowerRun) : Bool :=
  Nat.blt run.high other.first || Nat.blt other.last run.low ||
    Nat.ble other.first run.low &&
      (Nat.beq run.first run.last || Nat.beq (run.stride % other.stride) 0) &&
        !Nat.beq ((run.low - other.first) % other.stride) 0

def isPlain (run : LowerRun) : Bool :=
  decide (0 ≤ (run.first : Int) + run.offset) && decide (90 < run.low) &&
    (decide (run.high < 0x130) || decide (0x130 < run.low)) &&
      (decide (run.high < 0xD800) || decide (0xDFFF < run.low) && decide (run.high < 0x110000))

variable {run other : LowerRun} {code : Nat}

theorem isPlain_of_mem (member : run ∈ lowerRuns) : run.isPlain := by
  have checked : (lowerRuns.all isPlain) = true := by decide +kernel
  exact List.all_eq_true.mp checked run member

theorem avoids_of_mem (member : run ∈ lowerRuns) (member' : other ∈ lowerRuns) :
    run.avoids other := by
  have checked : (lowerRuns.all fun run => lowerRuns.all run.avoids) = true := by decide +kernel
  exact List.all_eq_true.mp (List.all_eq_true.mp checked run member) other member'

theorem covers_iff : run.covers code ↔
    run.first ≤ code ∧ code ≤ run.last ∧ (code - run.first) % run.stride = 0 := by
  simp [covers, and_assoc]

theorem exists_eq_low_add (member : run ∈ lowerRuns) (covered : run.covers code) :
    ∃ steps, ((code : Int) + run.offset).toNat = run.low + steps ∧
      run.low + steps ≤ run.high ∧ steps % run.stride = 0 ∧
        (run.first = run.last → steps = 0) := by
  have plain := isPlain_of_mem member
  obtain ⟨above, below, inStep⟩ := covers_iff.mp covered
  simp only [isPlain, Bool.and_eq_true, decide_eq_true_eq] at plain
  refine ⟨code - run.first, ?_, ?_, inStep, fun single => by omega⟩ <;>
    simp only [low, high] <;> omega

theorem not_covers_of_avoids {steps : Nat} (avoids : run.avoids other)
    (bounded : run.low + steps ≤ run.high) (inStep : steps % run.stride = 0)
    (single : run.first = run.last → steps = 0) : ¬ other.covers (run.low + steps) := by
  rw [covers_iff]
  rintro ⟨above, below, covered⟩
  simp only [LowerRun.avoids, Bool.or_eq_true, Bool.and_eq_true, Nat.blt_eq, Nat.beq_eq,
    Nat.ble_eq, Bool.not_eq_true', ← Bool.not_eq_true] at avoids
  rcases avoids with (apart | apart) | ⟨⟨later, steady⟩, offBeat⟩
  · omega
  · omega
  -- Every step is a multiple of the other stride, so no form falls in step if the first does not.
  · have even : steps % other.stride = 0 := by
      rcases steady with alone | steady
      · rw [single alone, Nat.zero_mod]
      · exact Nat.mod_eq_zero_of_dvd
          ((Nat.dvd_of_mod_eq_zero steady).trans (Nat.dvd_of_mod_eq_zero inStep))
    rw [Nat.sub_add_comm later, Nat.add_mod, even, Nat.add_zero, Nat.mod_mod] at covered
    exact offBeat covered

end LowerRun

/-! ## Single characters -/

variable {char lowered : Char}

theorem lowerChar_of_ascii (ascii : char.toNat < 128) : lowerChar char = [char.toLower] := by
  rw [lowerChar, if_pos ascii]

theorem lowerChar_of_uncovered (beyond : 128 ≤ char.toNat) (undotted : char.toNat ≠ 0x130)
    (uncovered : ∀ run ∈ lowerRuns, ¬ run.covers char.toNat) : lowerChar char = [char] := by
  rw [lowerChar, if_neg (by omega), if_neg undotted, List.find?_eq_none.mpr uncovered]

theorem isUpper_iff : char.isUpper ↔ 65 ≤ char.toNat ∧ char.toNat ≤ 90 := by
  rw [Char.isUpper, decide_eq_true_eq, ge_iff_le, UInt32.le_iff_toNat_le, UInt32.le_iff_toNat_le]
  rfl

theorem toNat_toLower_lt_iff : char.toLower.toNat < 128 ↔ char.toNat < 128 := by
  by_cases upper : char.isUpper
  · have letter := isUpper_iff.mp upper
    rw [Char.toLower_eq_of_isUpper upper, Char.toNat_ofNat]
    split <;> omega
  · rw [Char.toLower_eq_of_not_isUpper upper]

theorem lowerChar_of_above_capitals (above : 90 < char.toNat) (undotted : char.toNat ≠ 0x130)
    (uncovered : ∀ run ∈ lowerRuns, ¬ run.covers char.toNat) : lowerChar char = [char] := by
  by_cases ascii : char.toNat < 128
  · have small : ¬ char.isUpper := fun upper => by
      have letter := isUpper_iff.mp upper
      omega
    rw [lowerChar_of_ascii ascii, Char.toLower_eq_of_not_isUpper small]
  · exact lowerChar_of_uncovered (by omega) undotted uncovered

theorem lowerChar_of_run {run : LowerRun} (member : run ∈ lowerRuns)
    (covered : run.covers char.toNat)
    (isForm : lowered = Char.ofNat ((char.toNat : Int) + run.offset).toNat) :
    lowerChar lowered = [lowered] := by
  obtain ⟨steps, form, bounded, inStep, single⟩ := LowerRun.exists_eq_low_add member covered
  have plain := LowerRun.isPlain_of_mem member
  simp only [LowerRun.isPlain, Bool.and_eq_true, Bool.or_eq_true, decide_eq_true_eq] at plain
  have valid : (run.low + steps).isValidChar := by
    rw [Nat.isValidChar]
    omega
  have code : lowered.toNat = run.low + steps := by
    rw [isForm, form, Char.toNat_ofNat, if_pos valid]
  refine lowerChar_of_above_capitals (by omega) (by omega) fun other member' => ?_
  rw [code]
  exact LowerRun.not_covers_of_avoids (LowerRun.avoids_of_mem member member') bounded inStep single

theorem lowerChar_of_mem_marks (member : lowered ∈ [Char.ofNat 0x307, finalSigma, smallSigma]) :
    lowerChar lowered = [lowered] := by
  have codes : lowered.toNat ∈ [0x307, 0x3C2, 0x3C3] := by
    simpa [finalSigma, smallSigma] using List.mem_map_of_mem (f := Char.toNat) member
  have uncovered : ∀ code ∈ [0x307, 0x3C2, 0x3C3], ∀ run ∈ lowerRuns, ¬ run.covers code := by
    decide +kernel
  have beyond : ∀ code ∈ [0x307, 0x3C2, 0x3C3], 128 ≤ code ∧ code ≠ 0x130 := by decide
  exact lowerChar_of_uncovered (beyond _ codes).1 (beyond _ codes).2 (uncovered _ codes)

/-- What a character is lowered to is not lowered further. -/
theorem lowerChar_of_mem_lowerChar (member : lowered ∈ lowerChar char) :
    lowerChar lowered = [lowered] := by
  rw [lowerChar] at member
  split at member
  · next ascii =>
    obtain rfl := List.mem_singleton.mp member
    rw [lowerChar_of_ascii (toNat_toLower_lt_iff.mpr ascii), Char.toLower_toLower_eq_toLower]
  split at member
  · rcases List.mem_cons.mp member with rfl | dot
    · exact lowerChar_of_ascii (by decide)
    · exact lowerChar_of_mem_marks (List.mem_cons.mpr (.inl (List.mem_singleton.mp dot)))
  split at member
  · next run found =>
    have covered := List.find?_some found
    exact lowerChar_of_run (List.mem_of_find?_eq_some found) covered (List.mem_singleton.mp member)
  · next beyond undotted _ uncovered =>
    obtain rfl := List.mem_singleton.mp member
    exact lowerChar_of_uncovered (by omega) undotted (List.find?_eq_none.mp uncovered)

/-! ## Texts -/

theorem lowerFrom_of_final {text : List Char} (before : List Char)
    (final : ∀ char ∈ text, lowerChar char = [char]) : lowerFrom before text = text := by
  induction text generalizing before with
  | nil => rfl
  | cons char rest ih =>
      have own := final char (by simp)
      have noSigma : char ≠ capitalSigma := by
        rintro rfl
        have small : lowerChar capitalSigma = [smallSigma] := by cbv
        exact absurd (List.singleton_inj.mp (small.symm.trans own)) (by decide)
      rw [lowerFrom, if_neg noSigma, own, ih _ fun other member => final other (by simp [member])]
      rfl

theorem lowerChar_of_mem_lowerFrom {before text : List Char}
    (member : lowered ∈ lowerFrom before text) : lowerChar lowered = [lowered] := by
  induction text generalizing before with
  | nil => cases member
  | cons char rest ih =>
      rw [lowerFrom, List.mem_append] at member
      rcases member with own | later
      · split at own
        · refine lowerChar_of_mem_marks ?_
          rw [List.mem_singleton.mp own]
          split <;> simp
        · exact lowerChar_of_mem_lowerChar own
      · exact ih later

@[simp] theorem lowerCase_lowerCase (text : String) :
    lowerCase (lowerCase text) = lowerCase text := by
  rw [lowerCase, lowerCase, String.toList_ofList,
    lowerFrom_of_final _ fun _ => lowerChar_of_mem_lowerFrom]

def IsAscii (text : String) : Prop := ∀ char ∈ text.toList, char.toNat < 128

theorem IsAscii.lowerCase {text : String} (ascii : IsAscii text) :
    lowerCase text = String.ofList (text.toList.map Char.toLower) := by
  rw [Text.lowerCase, lowerFrom_of_ascii _ _ ascii]

theorem IsAscii.variant {text variant : String} (ascii : IsAscii text)
    (same : sameIgnoringAsciiCase variant text) : IsAscii variant := by
  intro char member
  have lowered : char.toLower ∈ text.toList.map Char.toLower := by
    rw [← beq_iff_eq.mp same]
    exact List.mem_map_of_mem member
  obtain ⟨other, hother, form⟩ := List.mem_map.mp lowered
  rw [← toNat_toLower_lt_iff, ← form, toNat_toLower_lt_iff]
  exact ascii other hother

theorem IsAscii.lowerCase_variant {text variant : String} (ascii : IsAscii text)
    (same : sameIgnoringAsciiCase variant text) :
    Text.lowerCase variant = Text.lowerCase text := by
  rw [(ascii.variant same).lowerCase, ascii.lowerCase, beq_iff_eq.mp same]

end FederatedQuery.Text
