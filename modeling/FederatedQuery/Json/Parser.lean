import FederatedQuery.Json.Number
import FederatedQuery.Json.StringBody

/-!
Reading JSON texts by the strict grammar of RFC 8259.

Every value takes at least one character, so the length of the text bounds the
nesting and the number of elements: the readers below carry it as fuel, and
`parse` supplies it.
-/

namespace FederatedQuery.Json

def isSpace (char : Char) : Bool :=
  char == ' ' || char == '\n' || char == '\t' || char == '\r'

def skipSpace (text : List Char) : List Char := text.dropWhile isSpace

def digitValue (char : Char) : Nat := char.toNat - '0'.toNat

def takeDigits (text : List Char) : List Nat × List Char :=
  ((text.takeWhile Char.isDigit).map digitValue, text.dropWhile Char.isDigit)

def readWhole (text : List Char) : Option (List Nat × List Char) :=
  match takeDigits text with
  | ([], _) => none
  | (0 :: _ :: _, _) => none
  | (digits, rest) => some (digits, rest)

def readFraction : List Char → Option (Option (List Nat) × List Char)
  | '.' :: rest =>
      match takeDigits rest with
      | ([], _) => none
      | (digits, rest) => some (some digits, rest)
  | text => some (none, text)

def readExponentDigits (negative : Bool) (text : List Char) : Option (Option Int × List Char) :=
  match takeDigits text with
  | ([], _) => none
  | (digits, rest) =>
      let magnitude : Nat := digits.foldl (fun value digit => value * 10 + digit) 0
      some (some (if negative then -magnitude else magnitude), rest)

def readExponent : List Char → Option (Option Int × List Char)
  | mark :: rest =>
      if mark = 'e' ∨ mark = 'E' then
        match rest with
        | '+' :: rest => readExponentDigits false rest
        | '-' :: rest => readExponentDigits true rest
        | rest => readExponentDigits false rest
      else some (none, mark :: rest)
  | [] => some (none, [])

def readMagnitude (negative : Bool) (text : List Char) : Option (Json × List Char) := do
  let (whole, rest) ← readWhole text
  let (fraction, rest) ← readFraction rest
  let (exponent, rest) ← readExponent rest
  return (NumberText.toJson ⟨negative, whole, fraction, exponent⟩, rest)

def readNumber : List Char → Option (Json × List Char)
  | '-' :: rest => readMagnitude true rest
  | text => readMagnitude false text

abbrev ReadMember := Option String × Json

def objectOf (members : List ReadMember) : Json :=
  match members.mapM fun member => member.1.map (·, member.2) with
  | some members => .object members
  | none => .unreadable

mutual

def readValue : Nat → List Char → Option (Json × List Char)
  | 0, _ => none
  | fuel + 1, text =>
      match skipSpace text with
      | 'n' :: 'u' :: 'l' :: 'l' :: rest => some (.null, rest)
      | 't' :: 'r' :: 'u' :: 'e' :: rest => some (.bool true, rest)
      | 'f' :: 'a' :: 'l' :: 's' :: 'e' :: rest => some (.bool false, rest)
      | '"' :: rest => do
          let (text?, rest) ← stringBody rest
          return (match text? with | some text => .string text | none => .unreadable, rest)
      | '[' :: rest =>
          match skipSpace rest with
          | ']' :: rest => some (.array [], rest)
          | rest => (readItems fuel rest).map fun (items, rest) => (.array items, rest)
      | '\x7b' :: rest =>
          match skipSpace rest with
          | '\x7d' :: rest => some (.object [], rest)
          | rest => (readMembers fuel rest).map fun (members, rest) => (objectOf members, rest)
      | text => readNumber text

def readItems : Nat → List Char → Option (List Json × List Char)
  | 0, _ => none
  | fuel + 1, text => do
      let (item, rest) ← readValue fuel text
      match skipSpace rest with
      | ',' :: rest =>
          let (items, rest) ← readItems fuel rest
          return (item :: items, rest)
      | ']' :: rest => return ([item], rest)
      | _ => none

def readMembers : Nat → List Char → Option (List ReadMember × List Char)
  | 0, _ => none
  | fuel + 1, text =>
      match skipSpace text with
      | '"' :: rest => do
          let (name, rest) ← stringBody rest
          match skipSpace rest with
          | ':' :: rest =>
              let (value, rest) ← readValue fuel rest
              match skipSpace rest with
              | ',' :: rest =>
                  let (members, rest) ← readMembers fuel rest
                  return ((name, value) :: members, rest)
              | '\x7d' :: rest => return ([(name, value)], rest)
              | _ => none
          | _ => none
      | _ => none

end

def parse (text : String) : Option Json := do
  let chars := text.toList
  let (value, rest) ← readValue (chars.length + 1) chars
  if (skipSpace rest).isEmpty then some value else none

end FederatedQuery.Json
