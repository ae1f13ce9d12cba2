import FederatedQuery.Json.Printer
import FederatedQuery.Proofs.Json.Numbers
import Mathlib.Data.List.DropRight
import Mathlib.Data.List.Forall2

/-!
# Reading back what was written

A value laid out over lines is read as that value, as long as its whole numbers fit 64 bits and
its other numbers are read back one by one.  Spaces between the parts of a value are skipped, and
a value takes fuel for each of its characters at most.
-/

namespace FederatedQuery.Json

variable {fuel : Nat} {text more left : List Char}

/-! ## Strings -/

inductive StringUnit.StandsFor : StringUnit → Char → Prop
  | char (char : Char) : StandsFor (.char char) char
  | control {char : Char} (control : char.toNat < 0x20) : StandsFor (.codeUnit char.toNat) char

theorem hexValue?_hexChar {code : Nat} (small : code < 0x20) :
    hexValue? ['0', '0', hexChar (code / 16), hexChar (code % 16)] = some code := by
  revert code
  decide

theorem escapeChar_cases (char : Char) :
    (∃ letter, letter ≠ 'u' ∧ shortEscape? letter = some char ∧
      escapeChar char = ['\\', letter]) ∨
    (char.toNat < 0x20 ∧ escapeChar char =
      ['\\', 'u', '0', '0', hexChar (char.toNat / 16), hexChar (char.toNat % 16)]) ∨
    (char ≠ '"' ∧ char ≠ '\\' ∧ ¬ char.toNat < 0x20 ∧ escapeChar char = [char]) := by
  have numbered {code : Nat} (same : char.toNat = code) : some (Char.ofNat code) = some char := by
    rw [← same, char.ofNat_toNat]
  unfold escapeChar
  split_ifs with quote backslash lineFeed carriageReturn tab backspace formFeed control
  · exact .inl ⟨'"', by decide, by rw [quote]; rfl, rfl⟩
  · exact .inl ⟨'\\', by decide, by rw [backslash]; rfl, rfl⟩
  · exact .inl ⟨'n', by decide, by rw [lineFeed]; rfl, rfl⟩
  · exact .inl ⟨'r', by decide, by rw [carriageReturn]; rfl, rfl⟩
  · exact .inl ⟨'t', by decide, by rw [tab]; rfl, rfl⟩
  · exact .inl ⟨'b', by decide, numbered backspace, rfl⟩
  · exact .inl ⟨'f', by decide, numbered formFeed, rfl⟩
  · exact .inr (.inl ⟨control, rfl⟩)
  · exact .inr (.inr ⟨quote, backslash, control, rfl⟩)

theorem stringUnits_escapeChar (char : Char) (text : List Char) :
    ∃ unit : StringUnit, unit.StandsFor char ∧ stringUnits (escapeChar char ++ text) =
      (stringUnits text).map fun read => (unit :: read.1, read.2) := by
  rcases escapeChar_cases char with
    ⟨letter, noCode, short, escaped⟩ | ⟨control, escaped⟩ | ⟨quote, backslash, printed, escaped⟩
  · refine ⟨_, .char char, ?_⟩
    rw [escaped, List.cons_append, List.singleton_append, stringUnits, short]
    · exact Option.map_eq_bind.symm
    · simp [noCode]
  · refine ⟨_, .control control, ?_⟩
    simp only [escaped, List.cons_append, List.nil_append, stringUnits, hexValue?_hexChar control]
    exact Option.map_eq_bind.symm
  · refine ⟨_, .char char, ?_⟩
    rw [escaped, List.singleton_append, stringUnits, if_neg (by simp [backslash, printed])]
    · exact Option.map_eq_bind.symm
    · exact quote
    · simp [backslash]
    · simp [backslash]

theorem stringUnits_escaped (chars text : List Char) :
    ∃ units : List StringUnit, List.Forall₂ StringUnit.StandsFor units chars ∧
      stringUnits (chars.flatMap escapeChar ++ '"' :: text) = some (units, text) := by
  induction chars with
  | nil => exact ⟨[], .nil, by simp [stringUnits]⟩
  | cons char rest ih =>
      obtain ⟨units, stand, read⟩ := ih
      obtain ⟨unit, stands, first⟩ :=
        stringUnits_escapeChar char (rest.flatMap escapeChar ++ '"' :: text)
      refine ⟨unit :: units, .cons stands stand, ?_⟩
      rw [List.flatMap_cons, List.append_assoc, first, read, Option.map_some]

theorem joinSurrogates_codeUnit {code : Nat} (small : code < 0xD800) (rest : List StringUnit) :
    joinSurrogates (.codeUnit code :: rest) = (joinSurrogates rest).map (Char.ofNat code :: ·) := by
  have notLeading : isLeadingSurrogate code = false := by
    simp [isLeadingSurrogate]
    omega
  have notTrailing : isTrailingSurrogate code = false := by
    simp [isTrailingSurrogate]
    omega
  cases rest with
  | nil => simp [joinSurrogates, notLeading, notTrailing]
  | cons next rest => cases next <;> simp [joinSurrogates, notLeading, notTrailing]

theorem joinSurrogates_eq {units : List StringUnit} {chars : List Char}
    (stand : List.Forall₂ StringUnit.StandsFor units chars) :
    joinSurrogates units = some chars := by
  induction stand with
  | nil => rfl
  | @cons unit char units chars stands rest ih =>
      cases stands with
      | char => rw [joinSurrogates, ih, Option.map_some]
      | control control =>
          rw [joinSurrogates_codeUnit (by omega), ih, Option.map_some, char.ofNat_toNat]

theorem stringBody_escaped (name : String) (text : List Char) :
    stringBody (name.toList.flatMap escapeChar ++ '"' :: text) = some (some name, text) := by
  obtain ⟨units, stand, read⟩ := stringUnits_escaped name.toList text
  simp [stringBody, read, joinSurrogates_eq stand]

/-! ## Spaces -/

theorem skipSpace_append {spaces : List Char} (blank : ∀ char ∈ spaces, isSpace char = true)
    (text : List Char) : skipSpace (spaces ++ text) = skipSpace text :=
  List.dropWhile_append_of_pos blank

theorem skipSpace_cons {char : Char} (printed : isSpace char = false) (text : List Char) :
    skipSpace (char :: text) = char :: text :=
  List.dropWhile_cons_of_neg (by simp [printed])

@[simp] theorem skipSpace_skipSpace (text : List Char) :
    skipSpace (skipSpace text) = skipSpace text :=
  List.dropWhile_idempotent isSpace text

theorem readValue_skipSpace (fuel : Nat) (text : List Char) :
    readValue fuel (skipSpace text) = readValue fuel text := by
  cases fuel <;> simp only [readValue, skipSpace_skipSpace]

theorem readItems_skipSpace (fuel : Nat) (text : List Char) :
    readItems fuel (skipSpace text) = readItems fuel text := by
  cases fuel <;> simp only [readItems, readValue_skipSpace]

theorem readMembers_skipSpace (fuel : Nat) (text : List Char) :
    readMembers fuel (skipSpace text) = readMembers fuel text := by
  cases fuel <;> simp only [readMembers, skipSpace_skipSpace]

/-! ## Texts of values -/

/-- The text is read as the value, whatever follows it; what is left then is what follows, up to
spaces. -/
structure ReadsAs (text : List Char) (value : Json) : Prop where
  read : ∀ {fuel more}, text.length < fuel → EndsNumber more →
    ∃ left, readValue fuel (text ++ more) = some (value, left) ∧ skipSpace left = skipSpace more

theorem ReadsAs.parse {text : String} {value : Json} (reads : ReadsAs text.toList value) :
    parse text = some value := by
  have ends : EndsNumber [] := by simp [EndsNumber]
  obtain ⟨left, found, blank⟩ := reads.read (Nat.lt_succ_self _) ends
  replace blank : skipSpace left = [] := blank
  rw [List.append_nil] at found
  rw [Json.parse, found]
  simp [blank]

/-! ## Numbers -/

def BeginsNumber (char : Char) : Prop := char = '-' ∨ char.isDigit = true

theorem BeginsNumber.ne {char mark : Char} (begins : BeginsNumber char)
    (hmark : mark ≠ '-' ∧ mark.isDigit = false) : char ≠ mark := by
  rintro rfl
  rcases begins with rfl | digit
  · exact hmark.1 rfl
  · simp [hmark.2] at digit

theorem BeginsNumber.isSpace {char : Char} (begins : BeginsNumber char) :
    isSpace char = false := by
  simp [Json.isSpace, begins.ne]

theorem exists_eq_cons_of_readNumber {value : Json} (found : readNumber text = some (value, left)) :
    ∃ char rest, text = char :: rest ∧ BeginsNumber char := by
  cases text with
  | nil => cases found
  | cons char rest =>
      refine ⟨char, rest, rfl, ?_⟩
      by_contra other
      rw [BeginsNumber, not_or] at other
      have noDigits : takeDigits (char :: rest) = ([], char :: rest) := by
        simp [takeDigits, other.2]
      rw [readNumber_of_ne (by simp [other.1])] at found
      simp [readMagnitude, readWhole, noDigits] at found

theorem readValue_number {char : Char} (begins : BeginsNumber char) (text : List Char) :
    readValue (fuel + 1) (char :: text) = readNumber (char :: text) := by
  have other {mark : Char} (hmark : mark ≠ '-' ∧ mark.isDigit = false) := begins.ne hmark
  rw [readValue, skipSpace_cons begins.isSpace]
  split <;> simp_all

theorem readNumber_of_readValue {value : Float}
    (found : readValue fuel text = some (.float value, left)) :
    readNumber (skipSpace text) = some (.float value, left) := by
  cases fuel with
  | zero => simp [readValue] at found
  | succ fuel =>
      rw [readValue] at found
      split at found
      · cases found
      · cases found
      · cases found
      · obtain ⟨⟨name, rest⟩, -, same⟩ := Option.bind_eq_some_iff.mp found
        cases name <;> cases same
      · split at found <;> simp at found
      · split at found
        · cases found
        · obtain ⟨⟨members, rest⟩, -, same⟩ := Option.map_eq_some_iff.mp found
          simp only [objectOf, Prod.mk.injEq] at same
          split at same <;> simp at same
      · exact found

theorem ReadsAs.of_readNumber {value : Json}
    (found : readNumber (skipSpace text) = some (value, left)) (blank : skipSpace left = []) :
    ReadsAs text value := by
  refine ⟨fun {fuel more} enough ends => ?_⟩
  obtain ⟨fuel, rfl⟩ := Nat.exists_eq_succ_of_ne_zero (Nat.ne_zero_of_lt enough)
  obtain ⟨char, rest, begins, isNumber⟩ := exists_eq_cons_of_readNumber found
  have spaces : skipSpace (text ++ more) = char :: rest ++ more := by
    rw [skipSpace] at begins
    rw [skipSpace, List.dropWhile_append, begins]
    rfl
  refine ⟨left ++ more, ?_, ?_⟩
  · rw [← readValue_skipSpace, spaces, List.cons_append, readValue_number isNumber,
      ← List.cons_append, ← begins]
    exact readsAhead_readNumber.append found ends
  · exact skipSpace_append (List.dropWhile_eq_nil_iff.mp blank) more

theorem readsAs_int {value : Int} (least : Int64.minValue.toInt ≤ value)
    (greatest : value ≤ significandLimit) : ReadsAs (toString value).toList (.int value) := by
  have found := readNumber_toString least greatest
  obtain ⟨char, rest, begins, isNumber⟩ := exists_eq_cons_of_readNumber found
  have spaces : skipSpace (toString value).toList = (toString value).toList := by
    rw [begins, skipSpace_cons isNumber.isSpace]
  rw [← spaces] at found
  exact .of_readNumber found rfl

/-- Written and read again, the number is the same.  The reader rounds more than once, so this
is not so for every number. -/
def ReadsBack (value : Float) : Prop := parse (Json.float value).render = some (.float value)

theorem ReadsBack.readsAs {value : Float} (back : ReadsBack value) :
    ReadsAs (Json.float value).render.toList (.float value) := by
  rw [ReadsBack, parse] at back
  obtain ⟨⟨read, left⟩, found, whole⟩ := Option.bind_eq_some_iff.mp back
  simp only [Option.ite_none_right_eq_some, Option.some.injEq, List.isEmpty_iff] at whole
  obtain ⟨blank, rfl⟩ := whole
  exact .of_readNumber (readNumber_of_readValue found) blank

/-! ## Blocks -/

def blockBody (lead ending entry : List Char) (rest : List (List Char)) : List Char :=
  entry ++ (rest.flatMap (',' :: lead ++ ·) ++ ending)

structure ReadsEntries {α : Type} (read : Nat → List Char → Option (List α × List Char))
    (closing : Char) (Reads : List Char → α → Prop) : Prop where
  skipSpace : ∀ fuel text, read fuel (skipSpace text) = read fuel text
  next : ∀ {fuel entry value more rest}, Reads entry value → entry.length < fuel →
    EndsNumber more → Json.skipSpace more = ',' :: rest →
    read (fuel + 1) (entry ++ more) =
      (read fuel rest).map fun others => (value :: others.1, others.2)
  last : ∀ {fuel entry value more rest}, Reads entry value → entry.length < fuel →
    EndsNumber more → Json.skipSpace more = closing :: rest →
    read (fuel + 1) (entry ++ more) = some ([value], rest)

structure Closes (ending : List Char) (closing : Char) : Prop where
  ends : ∀ more, EndsNumber (ending ++ more)
  skipSpace : ∀ more, Json.skipSpace (ending ++ more) = closing :: more
  nonempty : 0 < ending.length

theorem ReadsEntries.block {α : Type} {read : Nat → List Char → Option (List α × List Char)}
    {closing : Char} {Reads : List Char → α → Prop} (reads : ReadsEntries read closing Reads)
    {lead ending : List Char} (blank : ∀ char ∈ lead, isSpace char = true)
    (closes : Closes ending closing) {entry : List Char} {value : α} (first : Reads entry value)
    {entries : List (List Char)} {values : List α} (rest : List.Forall₂ Reads entries values)
    (enough : (blockBody lead ending entry entries).length < fuel) (more : List Char) :
    read fuel (blockBody lead ending entry entries ++ more) = some (value :: values, more) := by
  -- Each entry uses up a unit of fuel, and stands for a character at least: the comma behind it.
  induction rest generalizing entry value fuel with
  | nil =>
      obtain ⟨fuel, rfl⟩ := Nat.exists_eq_succ_of_ne_zero (Nat.ne_zero_of_lt enough)
      have nonempty := closes.nonempty
      simp only [blockBody, List.flatMap_nil, List.nil_append, List.length_append,
        List.append_assoc] at enough ⊢
      exact reads.last first (by omega) (closes.ends more) (closes.skipSpace more)
  | @cons other otherValue entries values own others ih =>
      obtain ⟨fuel, rfl⟩ := Nat.exists_eq_succ_of_ne_zero (Nat.ne_zero_of_lt enough)
      have shape : blockBody lead ending entry (other :: entries) ++ more =
          entry ++ ',' :: (lead ++ (blockBody lead ending other entries ++ more)) := by
        simp [blockBody]
      have length := congrArg List.length shape
      simp only [List.length_append, List.length_cons] at length
      have comma : Json.skipSpace (',' :: (lead ++ (blockBody lead ending other entries ++ more))) =
          ',' :: (lead ++ (blockBody lead ending other entries ++ more)) :=
        skipSpace_cons (by decide) _
      rw [shape, reads.next first (by omega) (by simp [EndsNumber]) comma,
        ← reads.skipSpace, skipSpace_append blank, reads.skipSpace, ih own (by omega),
        Option.map_some]

theorem readsEntries_readItems : ReadsEntries readItems ']' ReadsAs where
  skipSpace := readItems_skipSpace
  next first enough ends comma := by
    obtain ⟨left, found, same⟩ := first.read enough ends
    rw [readItems, found]
    simp only [Option.bind_eq_bind, Option.bind_some, same, comma]
    exact Option.map_eq_bind.symm
  last first enough ends close := by
    obtain ⟨left, found, same⟩ := first.read enough ends
    rw [readItems, found]
    simp only [Option.bind_eq_bind, Option.bind_some, same, close]
    rfl

def ReadsAsMember (text : List Char) (member : ReadMember) : Prop :=
  ∃ name value, member.1 = some name ∧ ReadsAs value member.2 ∧
    text = '"' :: (name.toList.flatMap escapeChar ++ '"' :: ':' :: ' ' :: value)

theorem ReadsAsMember.readMembers {member : ReadMember} (reads : ReadsAsMember text member)
    (enough : text.length < fuel) (ends : EndsNumber more) :
    readMembers (fuel + 1) (text ++ more) =
      match skipSpace more with
      | ',' :: rest => (readMembers fuel rest).bind fun others =>
          some (member :: others.1, others.2)
      | '\x7d' :: rest => some ([member], rest)
      | _ => none := by
  obtain ⟨name, value, hname, hvalue, rfl⟩ := reads
  have inside : value.length < fuel := by
    simp at enough
    omega
  obtain ⟨left, found, same⟩ := hvalue.read inside ends
  have spaced : readValue fuel (' ' :: (value ++ more)) = some (member.2, left) := by
    rw [← readValue_skipSpace, skipSpace, List.dropWhile_cons_of_pos (by decide), ← skipSpace,
      readValue_skipSpace, found]
  have quote : isSpace '"' = false := by decide
  have colon : isSpace ':' = false := by decide
  simp only [List.cons_append, List.append_assoc, Json.readMembers, skipSpace_cons quote,
    stringBody_escaped, Option.bind_eq_bind, Option.bind_some, skipSpace_cons colon, spaced, same,
    ← hname]
  rfl

theorem readsEntries_readMembers : ReadsEntries readMembers '\x7d' ReadsAsMember where
  skipSpace := readMembers_skipSpace
  next first enough ends comma := by
    rw [first.readMembers enough ends, comma]
    exact Option.map_eq_bind.symm
  last first enough ends close := by
    rw [first.readMembers enough ends, close]
    rfl

/-! ## Layout -/

def lineStart (depth : Nat) : List Char := '\n' :: List.replicate (2 * depth) ' '

theorem isSpace_of_mem_lineStart (depth : Nat) :
    ∀ char ∈ lineStart depth, isSpace char = true := by
  intro char member
  rcases List.mem_cons.mp member with rfl | member
  · decide
  · rw [List.eq_of_mem_replicate member]
    decide

theorem closes_lineStart {closing : Char} (printed : isSpace closing = false) (depth : Nat) :
    Closes (lineStart depth ++ [closing]) closing where
  ends more := by simp [lineStart, EndsNumber]
  skipSpace more := by
    rw [List.append_assoc, skipSpace_append (isSpace_of_mem_lineStart depth)]
    exact skipSpace_cons printed more
  nonempty := by simp

theorem intercalate_cons {α : Type} (separator first : List α) (rest : List (List α)) :
    separator.intercalate (first :: rest) = first ++ rest.flatMap (separator ++ ·) := by
  induction rest generalizing first with
  | nil => simp [List.intercalate]
  | cons second rest ih => simp [List.intercalate_cons_cons, ih]

theorem toList_prettyBlock (opening closing : String) (depth : Nat) (entry : String)
    (rest : List String) :
    (prettyBlock opening closing depth (entry :: rest)).toList =
      opening.toList ++ (lineStart (depth + 1) ++ blockBody (lineStart (depth + 1))
        (lineStart depth ++ closing.toList) entry.toList (rest.map String.toList)) := by
  have newLine_eq (depth : Nat) : (newLine depth).toList = lineStart depth := by
    simp [newLine, lineStart]
  simp [prettyBlock, String.toList_intercalate, intercalate_cons, newLine_eq, blockBody,
    List.flatMap_map]

theorem prettyItems_eq_map (depth : Nat) (items : List Json) :
    prettyItems depth items = items.map (prettyAt depth) := by
  induction items with
  | nil => rfl
  | cons item rest ih => rw [prettyItems, ih, List.map_cons]

theorem prettyMembers_eq_map (depth : Nat) (members : List (String × Json)) :
    prettyMembers depth members =
      members.map fun member => quote member.1 ++ ": " ++ prettyAt depth member.2 := by
  induction members with
  | nil => rfl
  | cons member rest ih => rw [prettyMembers, ih, List.map_cons]

/-! ## Arrays and objects -/

theorem readItems_bracket (fuel : Nat) (text : List Char) :
    readItems fuel (']' :: text) = none := by
  have number : readNumber (']' :: text) = none := by
    simp [readNumber, readMagnitude, readWhole, takeDigits]
  have value (fuel : Nat) : readValue fuel (']' :: text) = none := by
    cases fuel with
    | zero => rfl
    | succ fuel =>
        rw [readValue, skipSpace_cons (by decide)]
        exact number
  cases fuel with
  | zero => rfl
  | succ fuel =>
      rw [readItems, value]
      rfl

theorem readMembers_brace (fuel : Nat) (text : List Char) :
    readMembers fuel ('\x7d' :: text) = none := by
  cases fuel with
  | zero => rfl
  | succ fuel =>
      rw [readMembers, skipSpace_cons (by decide)]
      rfl

theorem readValue_items {items : List Json} (found : readItems fuel text = some (items, left)) :
    readValue (fuel + 1) ('[' :: text) = some (.array items, left) := by
  rw [readValue, skipSpace_cons (by decide)]
  simp only
  split
  · rename_i rest close
    rw [← readItems_skipSpace, close, readItems_bracket] at found
    cases found
  · rw [readItems_skipSpace, found, Option.map_some]

theorem readValue_members {members : List ReadMember}
    (found : readMembers fuel text = some (members, left)) :
    readValue (fuel + 1) ('\x7b' :: text) = some (objectOf members, left) := by
  rw [readValue, skipSpace_cons (by decide)]
  simp only
  split
  · rename_i rest close
    rw [← readMembers_skipSpace, close, readMembers_brace] at found
    cases found
  · rw [readMembers_skipSpace, found, Option.map_some]

theorem objectOf_named (members : List (String × Json)) :
    objectOf (members.map fun member => (some member.1, member.2)) = .object members := by
  have each : (members.map fun member => (some member.1, member.2)).mapM
      (fun member : ReadMember => member.1.map (·, member.2)) = some members := by
    rw [List.mapM_map]
    induction members with
    | nil => rfl
    | cons member rest ih =>
        rw [List.mapM_cons, ih]
        rfl
  rw [objectOf, each]

theorem ReadsAs.of_readValue {value : Json}
    (found : ∀ {fuel more}, text.length ≤ fuel →
      readValue (fuel + 1) (text ++ more) = some (value, more)) : ReadsAs text value := by
  refine ⟨fun {fuel more} enough _ => ⟨more, ?_, rfl⟩⟩
  obtain ⟨fuel, rfl⟩ := Nat.exists_eq_succ_of_ne_zero (Nat.ne_zero_of_lt enough)
  exact found (Nat.le_of_lt_succ enough)

theorem readsAs_quote (name : String) : ReadsAs (quote name).toList (.string name) := by
  refine .of_readValue fun {fuel more} _ => ?_
  have shape : (quote name).toList ++ more =
      '"' :: (name.toList.flatMap escapeChar ++ '"' :: more) := by
    simp [quote]
  rw [shape, readValue, skipSpace_cons (by decide)]
  simp only [stringBody_escaped]
  rfl

theorem ReadsEntries.readsAs_prettyBlock {α : Type}
    {read : Nat → List Char → Option (List α × List Char)} {opening closing : Char}
    {Reads : List Char → α → Prop} (reads : ReadsEntries read closing Reads)
    (printed : isSpace closing = false) {make : List α → Json}
    (value : ∀ {fuel text values left}, read fuel text = some (values, left) →
      readValue (fuel + 1) (opening :: text) = some (make values, left))
    (empty : ∀ fuel more, readValue (fuel + 1) (opening :: closing :: more) = some (make [], more))
    (depth : Nat) {entries : List String} {values : List α}
    (each : List.Forall₂ Reads (entries.map String.toList) values) :
    ReadsAs (prettyBlock (String.singleton opening) (String.singleton closing) depth
      entries).toList (make values) := by
  refine .of_readValue fun {fuel more} enough => ?_
  cases entries with
  | nil =>
      cases each
      simpa [prettyBlock] using empty fuel more
  | cons entry rest =>
      cases each with
      | cons own others =>
          have blank := isSpace_of_mem_lineStart (depth + 1)
          rw [toList_prettyBlock] at enough ⊢
          simp only [String.toList_singleton, List.singleton_append, List.length_cons,
            List.length_append] at enough
          have inside : (blockBody (lineStart (depth + 1)) (lineStart depth ++ [closing])
              entry.toList (rest.map String.toList)).length < fuel := by omega
          have found := reads.block blank (closes_lineStart printed depth) own others inside more
          rw [← reads.skipSpace, ← skipSpace_append blank, reads.skipSpace] at found
          simpa using value found

/-- Whole numbers fit 64 bits, and other numbers are read back. -/
inductive Readable : Json → Prop
  | null : Readable .null
  | bool (value : Bool) : Readable (.bool value)
  | int {value : Int} (least : Int64.minValue.toInt ≤ value) (greatest : value ≤ significandLimit) :
      Readable (.int value)
  | float {value : Float} (back : ReadsBack value) : Readable (.float value)
  | string (text : String) : Readable (.string text)
  | array {items : List Json} (each : ∀ item ∈ items, Readable item) : Readable (.array items)
  | object {members : List (String × Json)} (each : ∀ member ∈ members, Readable member.2) :
      Readable (.object members)

theorem Readable.readsAs {json : Json} (readable : json.Readable) (depth : Nat) :
    ReadsAs (prettyAt depth json).toList json := by
  induction readable generalizing depth with
  | null => exact .of_readValue fun _ => by simp [prettyAt, render, readValue, skipSpace, isSpace]
  | bool value =>
      cases value <;>
        exact .of_readValue fun _ => by simp [prettyAt, render, readValue, skipSpace, isSpace]
  | int least greatest => exact readsAs_int least greatest
  | float back => exact back.readsAs
  | string text => exact readsAs_quote text
  | @array items each ih =>
      rw [prettyAt, prettyItems_eq_map]
      refine readsEntries_readItems.readsAs_prettyBlock (by decide) readValue_items
        (fun _ _ => by simp [readValue, skipSpace, isSpace]) depth ?_
      rw [List.map_map, List.forall₂_map_left_iff, List.forall₂_same]
      exact fun item member => ih item member (depth + 1)
  | @object members each ih =>
      rw [prettyAt, prettyMembers_eq_map, ← objectOf_named]
      refine readsEntries_readMembers.readsAs_prettyBlock (by decide) readValue_members
        (fun _ _ => by simp [readValue, skipSpace, isSpace, objectOf]) depth ?_
      rw [List.map_map, List.forall₂_map_left_iff, List.forall₂_map_right_iff, List.forall₂_same]
      exact fun member hmember =>
        ⟨member.1, _, rfl, ih member hmember (depth + 1), by simp [quote]⟩

theorem parse_pretty {json : Json} (readable : json.Readable) : parse json.pretty = some json :=
  (readable.readsAs 0).parse

end FederatedQuery.Json
