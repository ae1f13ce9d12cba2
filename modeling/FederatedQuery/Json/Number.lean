import FederatedQuery.Json.Basic

/-!
Numbers of a JSON text.

A number without fraction and exponent that fits 64 bits is a whole number.
Every other number is read in binary64 arithmetic: the leading digits that fit
64 bits form a significand, the digits after them are dropped, and the
significand is multiplied or divided once by a power of ten.  A whole zero with
a minus sign is the float negative zero.
-/

namespace FederatedQuery.Json

structure NumberText where
  negative : Bool
  whole : List Nat
  fraction : Option (List Nat)
  exponent : Option Int
  deriving DecidableEq, Repr

def significandLimit : Nat := UInt64.size - 1

/--
Appends digits to a significand while it fits; the second component is what is
left from the first digit that does not.
-/
def appendDigits : Nat → List Nat → Nat × List Nat
  | significand, [] => (significand, [])
  | significand, digit :: rest =>
      if significandLimit < significand * 10 + digit then (significand, digit :: rest)
      else appendDigits (significand * 10 + digit) rest

def powerOfTen (power : Nat) : Float := Float.ofScientific 1 false power

def powerLimit : Nat := 308

def scale (value : Float) (power : Int) : Option Float :=
  if 0 ≤ power then
    if power ≤ powerLimit then
      let scaled := value * powerOfTen power.toNat
      if scaled.isInf then none else some scaled
    else if value == 0 then some value
    else none
  else if -(powerLimit : Int) ≤ power then some (value / powerOfTen (-power).toNat)
  else if value == 0 then some value
  else scale (value / powerOfTen powerLimit) (power + powerLimit)
termination_by (-power).toNat
decreasing_by
  simp only [powerLimit] at *
  omega

namespace NumberText

def float? (number : NumberText) : Option Float :=
  let (wholePart, dropped) := appendDigits 0 number.whole
  let fraction := number.fraction.getD []
  let (significand, unread) := appendDigits wholePart fraction
  let power : Int :=
    dropped.length - (fraction.length - unread.length : Nat) + number.exponent.getD 0
  (scale (Float.ofNat significand) power).map fun magnitude =>
    if number.negative then -magnitude else magnitude

def int? (number : NumberText) : Option Int :=
  match number.fraction, number.exponent with
  | none, none =>
      match appendDigits 0 number.whole with
      | (magnitude, []) =>
          if !number.negative then some magnitude
          else if 0 < magnitude ∧ Int64.minValue.toInt ≤ -(magnitude : Int) then
            some (-(magnitude : Int))
          else none
      | _ => none
  | _, _ => none

def toJson (number : NumberText) : Json :=
  match number.int? with
  | some value => .int value
  | none => match number.float? with
    | some value => .float value
    | none => .unreadable

end NumberText

end FederatedQuery.Json
