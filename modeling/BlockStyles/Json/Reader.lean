import BlockStyles.Json.Value
import BlockStyles.Text.Blank

/-!
# `BlockStyles.Json.Reader`: reading JSON

Readers take a text and answer the value at its front and the rest of the text,
or nothing if the text does not start with one. Only the white space of JSON,
which are the blanks of the grammar, may stand between tokens.

A value can be correct JSON and still be of no use to anyone here: a number that
is not natural, or a string with half of a surrogate pair. Such a value is read
to its end and is foreign, so it does no harm in a field that nobody looks at.
-/

set_option autoImplicit false

namespace BlockStyles.Json

open BlockStyles.Text (skipBlanks skipBlanks_suffix)

/-! ### Strings -/

/-- The value of a hexadecimal digit, in either case. -/
def hexValue? (c : Char) : Option Nat :=
  if '0' ≤ c ∧ c ≤ '9' then some (c.toNat - '0'.toNat)
  else if 'a' ≤ c ∧ c ≤ 'f' then some (c.toNat - 'a'.toNat + 10)
  else if 'A' ≤ c ∧ c ≤ 'F' then some (c.toNat - 'A'.toNat + 10)
  else none

/-- Reads four hexadecimal digits. -/
def readUnit? : List Char → Option (Nat × List Char)
  | a :: b :: c :: d :: rest =>
    match hexValue? a, hexValue? b, hexValue? c, hexValue? d with
    | some a, some b, some c, some d => some (((a * 16 + b) * 16 + c) * 16 + d, rest)
    | _, _, _, _ => none
  | _ => none

/-- Whether a 16-bit unit is the first half of a surrogate pair. -/
def isHigh (unit : Nat) : Bool :=
  0xd800 ≤ unit && unit < 0xdc00

/-- Whether a 16-bit unit is the second half of a surrogate pair. -/
def isLow (unit : Nat) : Bool :=
  0xdc00 ≤ unit && unit < 0xe000

/-- Reads an escape with the second half of a surrogate pair. -/
def readLow? : List Char → Option (Nat × List Char)
  | '\\' :: 'u' :: digits =>
    match readUnit? digits with
    | some (unit, rest) => if isLow unit then some (unit, rest) else none
    | none => none
  | _ => none

/-- The character that the two halves of a surrogate pair stand for. -/
def pairChar (high low : Nat) : Char :=
  .ofNat (0x10000 + (high - 0xd800) * 0x400 + (low - 0xdc00))

/-- Reads the escape behind a backslash. Half of a surrogate pair is no
character, but it is a correct escape. -/
def readEscape? : List Char → Option (Option Char × List Char)
  | '"' :: rest => some (some '"', rest)
  | '\\' :: rest => some (some '\\', rest)
  | '/' :: rest => some (some '/', rest)
  | 'b' :: rest => some (some '\u0008', rest)
  | 'f' :: rest => some (some '\u000c', rest)
  | 'n' :: rest => some (some '\n', rest)
  | 'r' :: rest => some (some '\r', rest)
  | 't' :: rest => some (some '\t', rest)
  | 'u' :: digits =>
    match readUnit? digits with
    | none => none
    | some (unit, rest) =>
      if isHigh unit then
        match readLow? rest with
        | some (low, rest) => some (some (pairChar unit low), rest)
        | none => some (none, rest)
      else if isLow unit then
        some (none, rest)
      else
        some (some (.ofNat unit), rest)
  | _ => none

/-- Reading four digits takes four characters, so what is left is shorter. An
escape may need one such unit or two, and shortens the text by them. -/
theorem readUnit?_shorter {text rest : List Char} {unit : Nat}
    (h : readUnit? text = some (unit, rest)) : rest.length < text.length := by
  unfold readUnit? at h
  split at h
  · split at h
    · simp only [Option.some.injEq, Prod.mk.injEq] at h
      simp only [List.length_cons, ← h.2]
      omega
    · cases h
  · cases h

/-- Reading the second half of a pair takes its backslash, its letter and its
digits. -/
theorem readLow?_shorter {text rest : List Char} {unit : Nat}
    (h : readLow? text = some (unit, rest)) : rest.length < text.length := by
  unfold readLow? at h
  split at h
  · split at h
    · rename_i hunit
      split at h
      · simp only [Option.some.injEq, Prod.mk.injEq] at h
        have := readUnit?_shorter hunit
        simp only [List.length_cons, ← h.2]
        omega
      · cases h
    · cases h
  · cases h

/-- Reading an escape takes at least one character. `readText?` needs this to end,
as an escape is the only place where it goes on from a text that it did
not take apart itself. -/
theorem readEscape?_shorter {text rest : List Char} {c : Option Char}
    (h : readEscape? text = some (c, rest)) : rest.length < text.length := by
  unfold readEscape? at h
  split at h
  -- Only an escape by number reads on behind its first character.
  case h_9 digits =>
    split at h
    · cases h
    · rename_i unit left hunit
      have hlength := readUnit?_shorter hunit
      simp only [List.length_cons]
      split at h
      · split at h
        · rename_i low rest' hlow
          have := readLow?_shorter hlow
          simp only [Option.some.injEq, Prod.mk.injEq] at h
          have hrest := h.2
          subst hrest
          omega
        · simp only [Option.some.injEq, Prod.mk.injEq] at h
          have hrest := h.2
          subst hrest
          omega
      · split at h <;>
        · simp only [Option.some.injEq, Prod.mk.injEq] at h
          have hrest := h.2
          subst hrest
          omega
  case h_10 => cases h
  all_goals
    simp only [Option.some.injEq, Prod.mk.injEq] at h
    simp [← h.2]

/-- Reads a string whose opening quote has been read. The text is missing if the
string holds half of a surrogate pair. -/
def readText? (text : List Char) : Option (Option (List Char) × List Char) :=
  match text with
  | [] => none
  | '"' :: rest => some (some [], rest)
  | '\\' :: escape =>
    match h : readEscape? escape with
    | none => none
    | some (c, rest) =>
      have : rest.length < escape.length := readEscape?_shorter h
      match readText? rest with
      | none => none
      | some (more, left) =>
        match c, more with
        | some c, some more => some (some (c :: more), left)
        | _, _ => some (none, left)
  | c :: rest =>
    if c.toNat < 0x20 then
      none
    else
      match readText? rest with
      | none => none
      | some (more, left) => some (more.map (c :: ·), left)
termination_by text.length

/-! ### Numbers -/

/-- The text behind one or more digits. -/
def skipDigits? (text : List Char) : Option (List Char) :=
  match text with
  | c :: rest => if c.isDigit then some (rest.dropWhile Char.isDigit) else none
  | [] => none

/-- The text behind the fraction of a number, which may be missing. -/
def skipFraction? : List Char → Option (List Char)
  | '.' :: rest => skipDigits? rest
  | text => some text

/-- The text behind the exponent of a number, which may be missing. -/
def skipExponent? : List Char → Option (List Char)
  | c :: rest =>
    if c == 'e' || c == 'E' then
      match rest with
      | '+' :: digits => skipDigits? digits
      | '-' :: digits => skipDigits? digits
      | digits => skipDigits? digits
    else
      some (c :: rest)
  | [] => some []

/-- The digits of a whole number: a zero alone, or digits that do not start with
one. -/
def readWhole? : List Char → Option (List Char × List Char)
  | '0' :: rest => some (['0'], rest)
  | c :: rest =>
    if c.isDigit then some (c :: rest.takeWhile Char.isDigit, rest.dropWhile Char.isDigit) else none
  | [] => none

/-- Reads a number. Only one without sign, fraction and exponent is natural. -/
def readNumber? (text : List Char) : Option (Value × List Char) :=
  let (unsigned, digits) :=
    match text with
    | '-' :: digits => (false, digits)
    | digits => (true, digits)
  match readWhole? digits with
  | none => none
  | some (whole, afterWhole) =>
    match skipFraction? afterWhole with
    | none => none
    | some afterFraction =>
      match skipExponent? afterFraction with
      | none => none
      | some rest =>
        -- The number is whole if neither a fraction nor an exponent was skipped.
        if unsigned && rest.length == afterWhole.length then
          some (.natural (Nat.ofDigitChars 10 whole 0), rest)
        else
          some (.foreign, rest)

/-! ### Values -/

/-- The text behind a word. -/
def skipWord? (word text : List Char) : Option (List Char) :=
  if word.isPrefixOf text then some (text.drop word.length) else none

mutual

/-- Reads a value that starts the text. -/
def readValue? (text : List Char) : Option (Value × List Char) :=
  match text with
  | [] => none
  | 'n' :: rest => (skipWord? ['u', 'l', 'l'] rest).map (.null, ·)
  | 't' :: rest => (skipWord? ['r', 'u', 'e'] rest).map (.bool true, ·)
  | 'f' :: rest => (skipWord? ['a', 'l', 's', 'e'] rest).map (.bool false, ·)
  | '"' :: rest =>
    match readText? rest with
    | none => none
    | some (some s, left) => some (.string (.ofList s), left)
    | some (none, left) => some (.foreign, left)
  | '[' :: rest =>
    match h : skipBlanks rest with
    | ']' :: left => some (.array [], left)
    | items =>
      have : items.length < rest.length + 1 :=
        Nat.lt_succ_of_le (h ▸ (skipBlanks_suffix rest).length_le)
      (readItems? items).map fun (items, left) => (.array items, left)
  | '{' :: rest =>
    match h : skipBlanks rest with
    | '}' :: left => some (.object [], left)
    | members =>
      have : members.length < rest.length + 1 :=
        Nat.lt_succ_of_le (h ▸ (skipBlanks_suffix rest).length_le)
      match readMembers? members with
      | none => none
      | some (some members, left) => some (.object members, left)
      | some (none, left) => some (.foreign, left)
  | text => readNumber? text
termination_by (text.length, 0)

/-- Reads items up to the bracket that closes the array; at least one. -/
def readItems? (text : List Char) : Option (List Value × List Char) :=
  match readValue? text with
  | none => none
  | some (item, afterItem) =>
    match skipBlanks afterItem with
    | ']' :: left => some ([item], left)
    | ',' :: next =>
      if (skipBlanks next).length < text.length then
        (readItems? (skipBlanks next)).map fun (items, left) => (item :: items, left)
      else
        none
    | _ => none
termination_by (text.length, 1)

/-- Reads members up to the brace that closes the object; at least one. There
are no members if one of the names is not Unicode text. -/
def readMembers? (text : List Char) : Option (Option (List (String × Value)) × List Char) :=
  match text with
  | '"' :: nameText =>
    match readText? nameText with
    | none => none
    | some (name, afterName) =>
      match skipBlanks afterName with
      | ':' :: valueText =>
        if (skipBlanks valueText).length ≤ nameText.length then
          match readValue? (skipBlanks valueText) with
          | none => none
          | some (value, afterValue) =>
            let member := name.map fun name => (String.ofList name, value)
            match skipBlanks afterValue with
            | '}' :: left => some (member.map ([·]), left)
            | ',' :: next =>
              if (skipBlanks next).length ≤ nameText.length then
                match readMembers? (skipBlanks next) with
                | none => none
                | some (members, left) =>
                  match member, members with
                  | some member, some members => some (some (member :: members), left)
                  | _, _ => some (none, left)
              else
                none
            | _ => none
        else
          none
      | _ => none
  | _ => none
termination_by (text.length, 1)

end

/-- Reads the value that a text starts with, after blanks. -/
def readFront? (text : String) : Option (Value × List Char) :=
  readValue? (skipBlanks text.toList)

/-- The value that a text is, with nothing but blanks around it. -/
def Value.ofText? (text : String) : Option Value :=
  match readFront? text with
  | some (value, rest) => if skipBlanks rest = [] then some value else none
  | none => none

end BlockStyles.Json
