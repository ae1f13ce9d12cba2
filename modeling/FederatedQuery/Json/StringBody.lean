import FederatedQuery.Json.Basic

/-!
Strings of a JSON text.

A body is read in two steps: escapes are resolved to characters and 16-bit code
units, then pairs of surrogates are joined.  A surrogate without its partner
leaves the string unreadable, which is no fault of the grammar.
-/

namespace FederatedQuery.Json

/-- What one character or one escape of a string contributes. -/
inductive StringUnit where
  | char (char : Char)
  | codeUnit (value : Nat)
  deriving DecidableEq, Repr

def hexDigit? (char : Char) : Option Nat :=
  if '0' ≤ char ∧ char ≤ '9' then some (char.toNat - '0'.toNat)
  else if 'a' ≤ char ∧ char ≤ 'f' then some (char.toNat - 'a'.toNat + 10)
  else if 'A' ≤ char ∧ char ≤ 'F' then some (char.toNat - 'A'.toNat + 10)
  else none

def hexValue? (digits : List Char) : Option Nat :=
  digits.foldl (fun value? digit => do return (← value?) * 16 + (← hexDigit? digit)) (some 0)

def shortEscape? : Char → Option Char
  | '"' => some '"'
  | '\\' => some '\\'
  | '/' => some '/'
  | 'b' => some (Char.ofNat 8)
  | 'f' => some (Char.ofNat 12)
  | 'n' => some '\n'
  | 'r' => some '\r'
  | 't' => some '\t'
  | _ => none

def stringUnits : List Char → Option (List StringUnit × List Char)
  | [] => none
  | '"' :: rest => some ([], rest)
  | '\\' :: 'u' :: a :: b :: c :: d :: rest => do
      let value ← hexValue? [a, b, c, d]
      let (units, rest) ← stringUnits rest
      return (.codeUnit value :: units, rest)
  | '\\' :: letter :: rest => do
      let char ← shortEscape? letter
      let (units, rest) ← stringUnits rest
      return (.char char :: units, rest)
  | char :: rest =>
      if char = '\\' ∨ char.toNat < 0x20 then none
      else do
        let (units, rest) ← stringUnits rest
        return (.char char :: units, rest)

def isLeadingSurrogate (value : Nat) : Bool := decide (0xD800 ≤ value) && decide (value < 0xDC00)

def isTrailingSurrogate (value : Nat) : Bool := decide (0xDC00 ≤ value) && decide (value < 0xE000)

/-- Joins pairs of surrogates; nothing when one stands alone. -/
def joinSurrogates : List StringUnit → Option (List Char)
  | [] => some []
  | .char char :: rest => (joinSurrogates rest).map (char :: ·)
  | .codeUnit lead :: .codeUnit trail :: rest =>
      if isLeadingSurrogate lead then
        if isTrailingSurrogate trail then
          let code := 0x10000 + (lead - 0xD800) * 0x400 + (trail - 0xDC00)
          (joinSurrogates rest).map (Char.ofNat code :: ·)
        else none
      else if isTrailingSurrogate lead then none
      else (joinSurrogates (.codeUnit trail :: rest)).map (Char.ofNat lead :: ·)
  | .codeUnit lead :: rest =>
      if isLeadingSurrogate lead ∨ isTrailingSurrogate lead then none
      else (joinSurrogates rest).map (Char.ofNat lead :: ·)

def stringBody (text : List Char) : Option (Option String × List Char) :=
  (stringUnits text).map fun (units, rest) => ((joinSurrogates units).map String.ofList, rest)

end FederatedQuery.Json
