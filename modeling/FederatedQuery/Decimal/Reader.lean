/-!
Reading the decimal text of a float.

A numeral has digits before or after a point, and perhaps an exponent; it is
rounded once, to the nearest float.  Infinities and the value that is no number
are read by their names, in any case.
-/

namespace FederatedQuery.Decimal

def digitsValue (digits : List Char) : Nat :=
  digits.foldl (fun value digit => value * 10 + (digit.toNat - '0'.toNat)) 0

def splitSign : List Char → Bool × List Char
  | '-' :: rest => (true, rest)
  | '+' :: rest => (false, rest)
  | rest => (false, rest)

def exponent? : List Char → Option Int
  | [] => some 0
  | mark :: rest =>
      let (negative, digits) := splitSign rest
      if (mark = 'e' ∨ mark = 'E') ∧ digits ≠ [] ∧ digits.all Char.isDigit then
        some (if negative then -digitsValue digits else digitsValue digits)
      else none

def splitFraction : List Char → List Char × List Char
  | '.' :: rest => rest.span Char.isDigit
  | rest => ([], rest)

def numeral? (text : List Char) : Option Float := do
  let (whole, rest) := text.span Char.isDigit
  let (fraction, rest) := splitFraction rest
  let exponent ← exponent? rest
  if whole.isEmpty && fraction.isEmpty then
    none
  let power := exponent - fraction.length
  return Float.ofScientific (digitsValue (whole ++ fraction)) (power < 0) power.natAbs

def magnitude? (text : List Char) : Option Float :=
  let name := String.ofList (text.map Char.toLower)
  if name = "inf" ∨ name = "infinity" then some (1.0 / 0.0)
  else if name = "nan" then some (0.0 / 0.0)
  else numeral? text

def read? (text : String) : Option Float :=
  let (negative, magnitude) := splitSign text.toList
  (magnitude? magnitude).map fun value => if negative then -value else value

end FederatedQuery.Decimal
