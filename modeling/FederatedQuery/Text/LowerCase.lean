import FederatedQuery.Text.CaseTable

/-!
Lower-casing of whole texts.

Two characters do not follow the one-to-one table: a dotted capital I becomes
two characters, and a capital sigma becomes a final sigma at the end of a word,
where characters that case ignores are skipped when looking for the word's
letters.
-/

namespace FederatedQuery.Text

def inRanges (ranges : List (Nat × Nat)) (code : Nat) : Bool :=
  ranges.any fun range => decide (range.1 ≤ code) && decide (code ≤ range.2)

def isCased (char : Char) : Bool := inRanges casedRanges char.toNat

def isCaseIgnorable (char : Char) : Bool := inRanges ignorableRanges char.toNat

def meetsCased (text : List Char) : Bool :=
  match text.dropWhile isCaseIgnorable with
  | [] => false
  | char :: _ => isCased char

/-- Whether a capital sigma between these texts ends a word; `before` is reversed. -/
def endsWord (before after : List Char) : Bool := meetsCased before && !meetsCased after

def LowerRun.covers (run : LowerRun) (code : Nat) : Bool :=
  decide (run.first ≤ code) && decide (code ≤ run.last) && (code - run.first) % run.stride == 0

def lowerChar (char : Char) : List Char :=
  if char.toNat < 128 then [char.toLower]
  else if char.toNat = 0x130 then ['i', Char.ofNat 0x307]
  else
    match lowerRuns.find? (·.covers char.toNat) with
    | some run => [Char.ofNat ((char.toNat : Int) + run.offset).toNat]
    | none => [char]

def capitalSigma : Char := Char.ofNat 0x3A3

def finalSigma : Char := Char.ofNat 0x3C2

def smallSigma : Char := Char.ofNat 0x3C3

def lowerFrom : List Char → List Char → List Char
  | _, [] => []
  | before, char :: after =>
      (if char = capitalSigma then
        [if endsWord before after then finalSigma else smallSigma]
      else lowerChar char) ++ lowerFrom (char :: before) after

def lowerCase (text : String) : String := String.ofList (lowerFrom [] text.toList)

/-- Equality of texts that ignores the case of ASCII letters only. -/
def sameIgnoringAsciiCase (left right : String) : Bool :=
  left.toList.map Char.toLower == right.toList.map Char.toLower

theorem lowerFrom_of_ascii (text before : List Char) (ascii : ∀ char ∈ text, char.toNat < 128) :
    lowerFrom before text = text.map Char.toLower := by
  induction text generalizing before with
  | nil => rfl
  | cons char rest ih =>
      have hascii := ascii char (by simp)
      have hsigma : char ≠ capitalSigma := by
        intro h
        rw [h] at hascii
        exact absurd hascii (by decide)
      rw [lowerFrom, if_neg hsigma, lowerChar, if_pos hascii,
        ih _ fun other hother => ascii other (by simp [hother])]
      rfl

end FederatedQuery.Text
