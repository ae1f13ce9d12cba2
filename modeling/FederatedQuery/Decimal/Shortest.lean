import FederatedQuery.Decimal.Binary64

/-!
The fewest decimal digits that read back to a binary64 magnitude.

For one digit, then two, and so on, the two neighbours of the magnitude on the
grid of that many digits are tested.  The first grid with a hit decides the
number of digits; of two hits the nearer one wins, and an exact tie is settled
by the caller's rule.  Seventeen digits always suffice.
-/

namespace FederatedQuery.Decimal

inductive Tie where
  | upward
  | toEven
  deriving DecidableEq, Repr

/-- The decimal `coefficient * 10 ^ (digits of the grid)`, counted in units. -/
structure Candidate where
  coefficient : Nat
  gridPlaces : Nat
  deriving DecidableEq, Repr

def digitsOf (value : Nat) : List Char := Nat.toDigits 10 value

def nearestOnGrid (tie : Tie) (value : Binary64) (gridPlaces : Nat) : Option Candidate :=
  let grid := Nat.pow 10 gridPlaces
  let below := value.units / grid
  let above := below + 1
  let preferAbove :=
    match compare (2 * value.units) ((below + above) * grid) with
    | .lt => false
    | .gt => true
    | .eq => match tie with
      | .upward => true
      | .toEven => above % 2 == 0
  match value.readsBack (below * grid), value.readsBack (above * grid) with
  | false, false => none
  | true, false => some ⟨below, gridPlaces⟩
  | false, true => some ⟨above, gridPlaces⟩
  | true, true => some ⟨if preferAbove then above else below, gridPlaces⟩

/-- Tries grids of one more digit each; `remaining` grids are left to try. -/
def searchGrids (tie : Tie) (value : Binary64) : Nat → Nat → Candidate
  | 0, gridPlaces => ⟨value.units / Nat.pow 10 gridPlaces, gridPlaces⟩
  | remaining + 1, gridPlaces =>
      match nearestOnGrid tie value gridPlaces with
      | some candidate => candidate
      | none => searchGrids tie value remaining (gridPlaces - 1)

structure Digits where
  digits : List Char
  point : Int
  deriving DecidableEq, Repr

def dropTrailingZeros (digits : List Char) : List Char :=
  (digits.reverse.dropWhile (· == '0')).reverse

def Candidate.toDigits (candidate : Candidate) : Digits :=
  let digits := digitsOf candidate.coefficient
  ⟨dropTrailingZeros digits,
    (digits.length : Int) + candidate.gridPlaces - unitPlaces⟩

def shortest (tie : Tie) (value : Binary64) : Digits :=
  (searchGrids tie value 17 ((digitsOf value.units).length - 1)).toDigits

end FederatedQuery.Decimal
