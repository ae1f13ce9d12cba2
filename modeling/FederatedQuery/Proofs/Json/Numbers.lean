import FederatedQuery.Json.Parser
import Mathlib.Data.List.TakeWhile

/-!
# Numbers in a text

A number ends where no character can go on with it, so what follows does not change how it is
read.  The decimal digits of a whole number of 64 bits are read as that number.
-/

namespace FederatedQuery.Json

def EndsNumber (text : List Char) : Prop :=
  ∀ char ∈ text.head?, char.isDigit = false ∧ char ≠ '.' ∧ char ≠ 'e' ∧ char ≠ 'E'

/-- What is read does not depend on what follows where a number ends. -/
structure ReadsAhead {α : Type} (read : List Char → Option (α × List Char)) : Prop where
  append : ∀ {text value left more}, read text = some (value, left) → EndsNumber more →
    read (text ++ more) = some (value, left ++ more)

theorem ReadsAhead.bind {α β : Type} {read : List Char → Option (α × List Char)}
    {next : α → List Char → Option (β × List Char)} (hread : ReadsAhead read)
    (hnext : ∀ value, ReadsAhead (next value)) :
    ReadsAhead fun text => (read text).bind fun found => next found.1 found.2 where
  append found ends := by
    obtain ⟨first, hfirst, hrest⟩ := Option.bind_eq_some_iff.mp found
    rw [hread.append hfirst ends, Option.bind_some]
    exact (hnext first.1).append hrest ends

variable {text more : List Char}

/-! ## Digits -/

theorem takeDigits_append (text : List Char) (ends : EndsNumber more) :
    takeDigits (text ++ more) = ((takeDigits text).1, (takeDigits text).2 ++ more) := by
  induction text with
  | nil =>
      cases more with
      | nil => rfl
      | cons char rest => simp [takeDigits, (ends char rfl).1]
  | cons char rest ih =>
      cases digit : char.isDigit <;> simp_all [takeDigits]

theorem takeDigits_of_isDigit (digits : ∀ char ∈ text, char.isDigit = true) :
    takeDigits text = (text.map digitValue, []) := by
  rw [takeDigits, List.takeWhile_eq_self_iff.mpr digits, List.dropWhile_eq_nil_iff.mpr digits]

theorem ReadsAhead.of_digits {α : Type} {read : List Char → Option (α × List Char)}
    (meaning : List Nat → Option α)
    (reads : ∀ text, read text = (meaning (takeDigits text).1).map (·, (takeDigits text).2)) :
    ReadsAhead read where
  append found ends := by
    rw [reads, Option.map_eq_some_iff] at found
    obtain ⟨own, meant, pair⟩ := found
    cases pair
    rw [reads, takeDigits_append _ ends, meant, Option.map_some]

def whole? : List Nat → Option (List Nat)
  | [] => none
  | 0 :: _ :: _ => none
  | digits => some digits

theorem readWhole_eq (text : List Char) :
    readWhole text = (whole? (takeDigits text).1).map (·, (takeDigits text).2) := by
  rw [readWhole]
  split <;> simp_all [whole?]

def someDigits? (digits : List Nat) : Option (List Nat) :=
  if digits = [] then none else some digits

theorem readFraction_point (text : List Char) :
    readFraction ('.' :: text) =
      ((someDigits? (takeDigits text).1).map some).map (·, (takeDigits text).2) := by
  rw [readFraction]
  split <;> simp_all [someDigits?]

def exponent? (negative : Bool) (digits : List Nat) : Option (Option Int) :=
  (someDigits? digits).map fun digits =>
    let magnitude : Nat := digits.foldl (fun value digit => value * 10 + digit) 0
    some (if negative then -magnitude else magnitude)

theorem readExponentDigits_eq (negative : Bool) (text : List Char) :
    readExponentDigits negative text =
      (exponent? negative (takeDigits text).1).map (·, (takeDigits text).2) := by
  rw [readExponentDigits]
  split <;> simp_all [exponent?, someDigits?]

/-! ## Numbers -/

theorem readFraction_of_ne (noPoint : ∀ char ∈ text.head?, char ≠ '.') :
    readFraction text = some (none, text) := by
  rw [readFraction]
  rintro rest rfl
  exact noPoint '.' rfl rfl

theorem readExponent_of_ne (noMark : ∀ char ∈ text.head?, char ≠ 'e' ∧ char ≠ 'E') :
    readExponent text = some (none, text) := by
  cases text with
  | nil => rfl
  | cons char rest => simp [readExponent, noMark char rfl]

theorem readExponent_mark {mark : Char} (isMark : mark = 'e' ∨ mark = 'E') (sign : Char)
    (digits : List Char) :
    readExponent (mark :: sign :: digits) = readExponentDigits (decide (sign = '-'))
      (if sign = '+' ∨ sign = '-' then digits else sign :: digits) := by
  rw [readExponent.eq_def]
  simp only [if_pos isMark]
  split <;> simp_all

theorem readsAhead_readFraction : ReadsAhead readFraction where
  append {text value left more} found ends := by
    have behind : ReadsAhead fun rest => readFraction ('.' :: rest) :=
      .of_digits (fun digits => (someDigits? digits).map some) readFraction_point
    cases text with
    | nil =>
        cases found
        exact readFraction_of_ne fun char first => (ends char first).2.1
    | cons char rest =>
        by_cases point : char = '.'
        · subst point
          exact behind.append found ends
        · rw [readFraction_of_ne (by simp [point])] at found
          cases found
          exact readFraction_of_ne (by simp [point])

theorem readsAhead_readExponentDigits (negative : Bool) :
    ReadsAhead (readExponentDigits negative) :=
  .of_digits (exponent? negative) (readExponentDigits_eq negative)

theorem readsAhead_readExponent : ReadsAhead readExponent where
  append {text value left more} found ends := by
    cases text with
    | nil =>
        cases found
        exact readExponent_of_ne fun char first => (ends char first).2.2
    | cons char rest =>
        by_cases mark : char = 'e' ∨ char = 'E'
        · cases rest with
          | nil => simp [readExponent, mark, readExponentDigits, takeDigits] at found
          | cons sign digits =>
              rw [readExponent_mark mark] at found
              rw [List.cons_append, List.cons_append, readExponent_mark mark]
              split at found
              · rename_i signed
                rw [if_pos signed]
                exact (readsAhead_readExponentDigits _).append found ends
              · rename_i unsigned
                rw [if_neg unsigned]
                exact (readsAhead_readExponentDigits _).append found ends
        · rw [not_or] at mark
          rw [readExponent_of_ne (by simp [mark])] at found
          cases found
          exact readExponent_of_ne (by simp [mark])

theorem readsAhead_readMagnitude (negative : Bool) : ReadsAhead (readMagnitude negative) := by
  have number (whole : List Nat) (fraction : Option (List Nat)) (exponent : Option Int) :
      ReadsAhead fun rest =>
        some (NumberText.toJson ⟨negative, whole, fraction, exponent⟩, rest) :=
    ⟨fun found _ => by rw [Option.some.injEq, Prod.mk.injEq] at found ⊢; simp [found]⟩
  have whole : ReadsAhead readWhole := .of_digits whole? readWhole_eq
  exact whole.bind fun whole => readsAhead_readFraction.bind fun fraction =>
    readsAhead_readExponent.bind (number whole fraction)

theorem readNumber_of_ne (unsigned : ∀ char ∈ text.head?, char ≠ '-') :
    readNumber text = readMagnitude false text := by
  rw [readNumber]
  rintro rest rfl
  exact unsigned '-' rfl rfl

theorem readsAhead_readNumber : ReadsAhead readNumber where
  append {text value left more} found ends := by
    cases text with
    | nil => cases found
    | cons char rest =>
        by_cases minus : char = '-'
        · subst minus
          exact (readsAhead_readMagnitude true).append found ends
        · rw [readNumber_of_ne (by simp [minus])] at found
          rw [readNumber_of_ne (by simp [minus])]
          exact (readsAhead_readMagnitude false).append found ends

/-! ## Whole numbers -/

theorem appendDigits_concat {start value last : Nat} {digits : List Nat}
    (fits : appendDigits start digits = (value, []))
    (small : value * 10 + last ≤ significandLimit) :
    appendDigits start (digits ++ [last]) = (value * 10 + last, []) := by
  induction digits generalizing start with
  | nil =>
      cases fits
      simp [appendDigits, Nat.not_lt.mpr small]
  | cons digit rest ih =>
      rw [appendDigits] at fits
      rw [List.cons_append, appendDigits]
      split at fits
      · cases fits
      · rename_i inside
        rw [if_neg inside]
        exact ih fits

def digitsOf (number : Nat) : List Nat := (Nat.toDigits 10 number).map digitValue

theorem digitValue_digitChar {digit : Nat} (small : digit < 10) :
    digitValue digit.digitChar = digit := by
  revert digit
  decide

theorem digitsOf_of_lt {number : Nat} (small : number < 10) : digitsOf number = [number] := by
  rw [digitsOf, Nat.toDigits_of_lt_base small, List.map_singleton, digitValue_digitChar small]

theorem digitsOf_of_le {number : Nat} (large : 10 ≤ number) :
    digitsOf number = digitsOf (number / 10) ++ [number % 10] := by
  have digits := Nat.toDigits_append_toDigits (by decide : 1 < 10)
    (Nat.div_pos large (by decide)) (Nat.mod_lt number (by decide))
  rw [Nat.div_add_mod] at digits
  rw [← digitsOf_of_lt (Nat.mod_lt number (by decide)), digitsOf, ← digits, List.map_append]
  rfl

theorem appendDigits_digitsOf {number : Nat} (small : number ≤ significandLimit) :
    appendDigits 0 (digitsOf number) = (number, []) := by
  induction number using Nat.strongRecOn with
  | ind number ih =>
      by_cases large : 10 ≤ number
      · have whole : number / 10 * 10 + number % 10 = number := by omega
        rw [digitsOf_of_le large, appendDigits_concat (ih (number / 10) (by omega) (by omega))
          (by omega), whole]
      · rw [digitsOf_of_lt (by omega)]
        simp [appendDigits, Nat.not_lt.mpr small]

theorem exists_digitsOf_eq_cons {number : Nat} (positive : 0 < number) :
    ∃ first rest, digitsOf number = (first + 1) :: rest := by
  induction number using Nat.strongRecOn with
  | ind number ih =>
      by_cases large : 10 ≤ number
      · obtain ⟨first, rest, digits⟩ := ih (number / 10) (by omega) (by omega)
        exact ⟨first, rest ++ [number % 10], by rw [digitsOf_of_le large, digits, List.cons_append]⟩
      · exact ⟨number - 1, [], by rw [digitsOf_of_lt (by omega)]; congr; omega⟩

theorem whole?_digitsOf (number : Nat) : whole? (digitsOf number) = some (digitsOf number) := by
  rcases Nat.eq_zero_or_pos number with rfl | positive
  · rfl
  · obtain ⟨first, rest, digits⟩ := exists_digitsOf_eq_cons positive
    rw [digits]
    rfl

theorem readMagnitude_toDigits (negative : Bool) (number : Nat) :
    readMagnitude negative (Nat.toDigits 10 number) =
      some (NumberText.toJson ⟨negative, digitsOf number, none, none⟩, []) := by
  have digits : takeDigits (Nat.toDigits 10 number) = (digitsOf number, []) :=
    takeDigits_of_isDigit fun _ => Nat.isDigit_of_mem_toDigits (by decide) (by decide)
  simp [readMagnitude, readWhole_eq, digits, whole?_digitsOf, readFraction, readExponent]

theorem readNumber_toString {number : Int} (least : Int64.minValue.toInt ≤ number)
    (greatest : number ≤ significandLimit) :
    readNumber (toString number).toList = some (.int number, []) := by
  cases number with
  | ofNat number =>
      have small : number ≤ significandLimit := by simpa using greatest
      have digits : (toString (Int.ofNat number)).toList = Nat.toDigits 10 number :=
        Nat.toList_repr
      have unsigned : ∀ char ∈ (Nat.toDigits 10 number).head?, char ≠ '-' := by
        intro char first minus
        have digit := Nat.isDigit_of_mem_toDigits (by decide) (by decide)
          (List.mem_of_mem_head? first)
        rw [minus] at digit
        exact absurd digit (by decide)
      rw [digits, readNumber_of_ne unsigned, readMagnitude_toDigits]
      simp [NumberText.toJson, NumberText.int?, appendDigits_digitsOf small]
  | negSucc number =>
      have small : number + 1 ≤ significandLimit := by
        have bound : (-(number + 1 : Int)) ≥ Int64.minValue.toInt := least
        simp [significandLimit] at bound ⊢
        omega
      have digits : (toString (Int.negSucc number)).toList =
          '-' :: Nat.toDigits 10 (number + 1) := by
        change ("-" ++ Nat.repr (number + 1)).toList = _
        rw [String.toList_append, Nat.toList_repr]
        rfl
      have inside : Int64.minValue.toInt ≤ -((number + 1 : Nat) : Int) := least
      rw [digits, readNumber, readMagnitude_toDigits]
      simp only [NumberText.toJson, NumberText.int?, appendDigits_digitsOf small, Bool.not_true,
        Bool.false_eq_true, if_false, if_pos (And.intro (Nat.succ_pos number) inside)]
      rfl

end FederatedQuery.Json
