/-!
Finite binary64 values as whole numbers.

The finest binary64 value is `2 ^ (-1074)`, so every finite magnitude, and every
midpoint between two neighbouring magnitudes, is a whole number of units
`10 ^ (-unitPlaces)`.  Reading a float in these units lets all later digit
selection happen on natural numbers, without rounding.
-/

namespace FederatedQuery.Decimal

def unitPlaces : Nat := 1076

/--
A positive finite binary64 magnitude `significand * 2 ^ (scale - 1074)`.
The gap to the next smaller magnitude is halved when `narrowBelow` holds, which
is the case at the powers of two above the finest binade.
-/
structure Binary64 where
  significand : Nat
  scale : Nat
  narrowBelow : Bool
  deriving DecidableEq, Repr

namespace Binary64

def leadingBit : Nat := 1 <<< 52

def signBit (value : Float) : Bool := value.toBits.toNat >>> 63 == 1

def ofFloat (value : Float) : Binary64 :=
  let bits := value.toBits.toNat
  let exponent := bits >>> 52 % 2048
  let fraction := bits % leadingBit
  if exponent = 0 then ⟨fraction, 0, false⟩
  else ⟨leadingBit + fraction, exponent - 1, fraction == 0 && exponent != 1⟩

def quarterGap (value : Binary64) : Nat := Nat.pow 2 value.scale * Nat.pow 5 unitPlaces

def units (value : Binary64) : Nat := 4 * value.significand * value.quarterGap

def lowerMidpoint (value : Binary64) : Nat :=
  (4 * value.significand - if value.narrowBelow then 1 else 2) * value.quarterGap

def upperMidpoint (value : Binary64) : Nat :=
  (4 * value.significand + 2) * value.quarterGap

/--
Whether a number of units reads back to this magnitude under rounding to
nearest with ties to an even significand.
-/
def readsBack (value : Binary64) (count : Nat) : Bool :=
  if value.significand % 2 = 0 then
    decide (value.lowerMidpoint ≤ count) && decide (count ≤ value.upperMidpoint)
  else
    decide (value.lowerMidpoint < count) && decide (count < value.upperMidpoint)

end Binary64

end FederatedQuery.Decimal
