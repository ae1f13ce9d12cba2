import FederatedQuery.Decimal.Shortest

/-!
How shortest digits are laid out as text.

`Style.plain` is the form of floats in messages and displays: always positional
and without a fraction part when the value is a whole number.  `Style.json` is
the form of floats in configuration text: a whole number keeps `.0`, and very
small or very large values are written with an exponent.
-/

namespace FederatedQuery.Decimal

structure Style where
  tie : Tie
  positional : Int → Bool
  wholeSuffix : String
  notANumber : String
  infinity : String

def Style.plain : Style where
  tie := .upward
  positional := fun _ => true
  wholeSuffix := ""
  notANumber := "NaN"
  infinity := "inf"

def Style.json : Style where
  tie := .toEven
  positional := fun power => decide (-5 ≤ power) && decide (power < 16)
  wholeSuffix := ".0"
  notANumber := "null"
  infinity := "null"

private def zeros (count : Nat) : String := String.ofList (List.replicate count '0')

def layPositional (style : Style) (digits : Digits) : String :=
  let count : Int := digits.digits.length
  if digits.point ≤ 0 then
    "0." ++ zeros (-digits.point).toNat ++ String.ofList digits.digits
  else if count ≤ digits.point then
    String.ofList digits.digits ++ zeros (digits.point - count).toNat ++ style.wholeSuffix
  else
    String.ofList (digits.digits.take digits.point.toNat) ++ "." ++
      String.ofList (digits.digits.drop digits.point.toNat)

def layScientific (digits : Digits) : String :=
  let power := digits.point - 1
  let fraction := digits.digits.drop 1
  String.ofList (digits.digits.take 1) ++
    (if fraction.isEmpty then "" else "." ++ String.ofList fraction) ++
    "e" ++ (if power < 0 then "-" else "+") ++ toString power.natAbs

def layMagnitude (style : Style) (value : Binary64) : String :=
  let digits := shortest style.tie value
  if style.positional (digits.point - 1) then layPositional style digits
  else layScientific digits

def render (style : Style) (value : Float) : String :=
  if value.isNaN then style.notANumber
  else
    let sign := if Binary64.signBit value then "-" else ""
    if value.isInf then
      if style.infinity = "null" then style.infinity else sign ++ style.infinity
    else
      let magnitude := Binary64.ofFloat value
      if magnitude.significand = 0 then sign ++ "0" ++ style.wholeSuffix
      else sign ++ layMagnitude style magnitude

end FederatedQuery.Decimal
