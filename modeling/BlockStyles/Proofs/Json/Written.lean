import BlockStyles.Json.Reader
import BlockStyles.Json.Writer
import BlockStyles.Proofs.Text.Blanks
import Mathlib.Data.List.Basic

/-!
# `BlockStyles.Proofs.Json.Written`: what is written is read again

The reader takes what the writer has written of a value off the front of a text and leaves
what stands behind it. Every kind of value says itself where it ends, but for numbers: what
stands behind one must not go on with it. In arrays and objects a comma or the end of a line
does, and behind a whole text nothing.

* `EndsNumber`: the one condition on what stands behind a value.
* `readText?_flatMap_escapeChar`: every string is read as it was before it was escaped.
* `readNumber?_toDigits`: so is every natural number.
* `readItems?_write`, `readMembers?_write`: items and members, given that each value among them is
  read. These are the two steps of the induction on values.
* `readValue?_write`: so is every value without a foreign one inside.
* `Value.ofText?_text`: so is a value that is a text of its own.
-/

set_option autoImplicit false

namespace BlockStyles.Json

open BlockStyles.Text (skipBlanks isBlank skipBlanks_suffix skipBlanks_eq_self)

/-! ### Strings -/

/-- What is read behind a character of a string is the rest of the string. -/
def withChar (c : Char) (read : Option (List Char) × List Char) : Option (List Char) × List Char :=
  (read.1.map (c :: ·), read.2)

/-- A character that needs no escape is read as it is. A quote would end the text, a
backslash begin an escape, and control characters are refused. -/
theorem readText?_plain {c : Char} (hquote : c ≠ '"') (hbackslash : c ≠ '\\')
    (hcontrol : ¬ c.toNat < 0x20) (rest : List Char) :
    readText? (c :: rest) = (readText? rest).map (withChar c) := by
  rw [readText?]
  · rw [if_neg hcontrol]
    rcases readText? rest with _ | ⟨more, left⟩ <;> rfl
  · exact hquote
  · exact hbackslash

/-- An escape that stands for a character is read as this character. So all escapes
are dealt with by reading the escape itself. -/
theorem readText?_escape {c : Char} {escape rest : List Char}
    (h : readEscape? escape = some (some c, rest)) :
    readText? ('\\' :: escape) = (readText? rest).map (withChar c) := by
  rw [readText?]
  split
  · rename_i hnone
    rw [h] at hnone
    cases hnone
  · rename_i read left hread
    rw [h] at hread
    cases hread
    rcases readText? rest with _ | ⟨_ | more, left⟩ <;> rfl

/-- A hexadecimal digit is read as it was written. -/
theorem hexValue?_hexDigit : ∀ n < 16, hexValue? (hexDigit n) = some n := by decide

/-- The escape of a control character without a short one. Its code has two zeros in
front, and is no half of a surrogate pair. -/
theorem readEscape?_unit {c : Char} (h : c.toNat < 0x20) (rest : List Char) :
    readEscape? ('u' :: '0' :: '0' :: hexDigit (c.toNat / 16) :: hexDigit (c.toNat % 16) :: rest)
      = some (some c, rest) := by
  have hhigh := hexValue?_hexDigit (c.toNat / 16) (by omega)
  have hlow := hexValue?_hexDigit (c.toNat % 16) (by omega)
  have hzero : hexValue? '0' = some 0 := by decide
  have hunit : ((0 * 16 + 0) * 16 + c.toNat / 16) * 16 + c.toNat % 16 = c.toNat := by omega
  have hnotHigh : isHigh c.toNat = false := by simp [isHigh]; omega
  have hnotLow : isLow c.toNat = false := by simp [isLow]; omega
  simp only [readEscape?, readUnit?, hzero, hhigh, hlow, hunit, hnotHigh, hnotLow]
  simp

/-- Every character is read as it was before it was escaped. There are three kinds:
characters with a short escape, control characters, and the others, which stand for
themselves. -/
theorem readText?_escapeChar (c : Char) (rest : List Char) :
    readText? (escapeChar c ++ rest) = (readText? rest).map (withChar c) := by
  unfold escapeChar
  -- The characters that have a short escape come first.
  by_cases hquote : c = '"'
  · subst hquote
    exact readText?_escape rfl
  by_cases hbackslash : c = '\\'
  · subst hbackslash
    exact readText?_escape rfl
  by_cases hbackspace : c = '\u0008'
  · subst hbackspace
    exact readText?_escape rfl
  by_cases hfeed : c = '\u000c'
  · subst hfeed
    exact readText?_escape rfl
  by_cases hline : c = '\n'
  · subst hline
    exact readText?_escape rfl
  by_cases hreturn : c = '\r'
  · subst hreturn
    exact readText?_escape rfl
  by_cases htab : c = '\t'
  · subst htab
    exact readText?_escape rfl
  simp only [beq_iff_eq, if_neg, hquote, hbackslash, hbackspace, hfeed, hline, hreturn, htab,
    not_false_eq_true]
  by_cases hcontrol : c.toNat < 0x20
  · rw [if_pos hcontrol]
    exact readText?_escape (readEscape?_unit hcontrol rest)
  · rw [if_neg hcontrol]
    exact readText?_plain hquote hbackslash hcontrol rest

/-- Every string is read as it was before it was escaped. It ends at the first quote
that is not escaped, and all quotes of the string are. -/
theorem readText?_flatMap_escapeChar (s rest : List Char) :
    readText? (s.flatMap escapeChar ++ '"' :: rest) = some (some s, rest) := by
  induction s with
  | nil => simp [readText?]
  | cons c s ih =>
    rw [List.flatMap_cons, List.append_assoc, readText?_escapeChar, ih]
    rfl

/-! ### Numbers -/

/-- What stands behind a number does not go on with it. -/
def EndsNumber (rest : List Char) : Prop :=
  ∀ c ∈ rest.head?, c.isDigit = false ∧ c ≠ '.' ∧ c ≠ 'e' ∧ c ≠ 'E'

/-- The end of the text ends a number. A number may be a whole text of its own. -/
theorem endsNumber_nil : EndsNumber [] := nofun

/-- A comma ends a number. This is what stands behind an item of an array that is not
the last one, and behind a member. -/
theorem endsNumber_comma (rest : List Char) : EndsNumber (',' :: rest) := by
  intro c hc
  cases hc
  decide

/-- The end of a line ends a number, however far the next line is indented. This is
what stands behind the last item or member, whose bracket is on a line of its own. -/
theorem endsNumber_newLine (level : Nat) (rest : List Char) :
    EndsNumber (newLine level ++ rest) := by
  intro c hc
  cases hc
  decide

/-- A number is written with one digit at least. By its first digit the reader knows
that the value is a number. -/
theorem exists_digit_toDigits (n : Nat) :
    ∃ c more, Nat.toDigits 10 n = c :: more ∧ c.isDigit := by
  obtain ⟨c, more, hdigits⟩ := List.exists_cons_of_ne_nil (Nat.toDigits_ne_nil (n := n) (b := 10))
  have hmem : c ∈ Nat.toDigits 10 n := hdigits ▸ List.mem_cons_self
  exact ⟨c, more, hdigits, Nat.isDigit_of_mem_toDigits (by decide) (by decide) hmem⟩

/-- The digit of a number from one to nine is not zero. A zero in front is only read
as a number by itself, so this matters. -/
theorem digitChar_ne_zero : ∀ n < 10, n ≠ 0 → n.digitChar ≠ '0' := by decide

/-- The digits of a number do not begin with zero, except for zero itself. The reader
refuses numbers with leading zeros, so this has to be known. -/
theorem exists_cons_toDigits {n : Nat} (h : n ≠ 0) :
    ∃ c more, Nat.toDigits 10 n = c :: more ∧ c ≠ '0' := by
  induction n using Nat.strongRecOn with
  | _ n ih =>
    by_cases hn : n < 10
    · exact ⟨n.digitChar, [], Nat.toDigits_of_lt_base hn, digitChar_ne_zero n hn h⟩
    · obtain ⟨c, more, hdigits, hzero⟩ := ih (n / 10) (by omega) (by omega)
      rw [Nat.toDigits_of_base_le (by decide) (by omega), hdigits]
      exact ⟨c, _, rfl, hzero⟩

/-- The digits of a number are read up to what is no digit. The reader does not go on
behind a leading zero, and no other number is written with one. -/
theorem readWhole?_toDigits (n : Nat) {rest : List Char}
    (hrest : ∀ c ∈ rest.head?, c.isDigit = false) :
    readWhole? (Nat.toDigits 10 n ++ rest) = some (Nat.toDigits 10 n, rest) := by
  by_cases hn : n = 0
  -- A zero stands alone, and the reader takes no digit behind it.
  · subst hn
    rfl
  · obtain ⟨c, more, hdigits, hzero⟩ := exists_cons_toDigits hn
    have hall : ∀ d ∈ c :: more, d.isDigit := fun d hd =>
      Nat.isDigit_of_mem_toDigits (b := 10) (by decide) (by decide) (hdigits ▸ hd)
    have hmore : ∀ d ∈ more, d.isDigit := fun d hd => hall d (List.mem_cons_of_mem c hd)
    have hstop : rest.takeWhile Char.isDigit = [] := by
      cases rest with
      | nil => rfl
      | cons d rest => rw [List.takeWhile_cons, hrest d rfl]; rfl
    rw [hdigits, List.cons_append, readWhole?.eq_2 _ _ hzero, if_pos (hall c List.mem_cons_self),
      List.takeWhile_append_of_pos hmore, List.dropWhile_append_of_pos hmore,
      Text.dropWhile_eq_self hrest, hstop, List.append_nil]

/-- Every natural number is read as it was written, if what stands behind it does not
go on with it. -/
theorem readNumber?_toDigits (n : Nat) {rest : List Char} (hrest : EndsNumber rest) :
    readNumber? (Nat.toDigits 10 n ++ rest) = some (.natural n, rest) := by
  have hwhole := readWhole?_toDigits n fun c hc => (hrest c hc).1
  -- What stands behind the number is neither a fraction nor an exponent.
  have hfraction : skipFraction? rest = some rest := by
    cases rest with
    | nil => rfl
    | cons c rest => exact skipFraction?.eq_2 _ fun _ h => (hrest c rfl).2.1 (List.cons.inj h).1
  have hexponent : skipExponent? rest = some rest := by
    cases rest with
    | nil => rfl
    | cons c rest => simp [skipExponent?, (hrest c rfl).2.2]
  obtain ⟨c, more, hdigits, hdigit⟩ := exists_digit_toDigits n
  have hsign : c ≠ '-' := by
    rintro rfl
    revert hdigit
    decide
  have hvalue : Nat.ofDigitChars 10 (Nat.toDigits 10 n) 0 = n := Nat.ofDigitChars_ten_toDigits
  rw [hdigits] at hwhole hvalue ⊢
  rw [List.cons_append] at hwhole ⊢
  simp [readNumber?, hsign, hwhole, hfraction, hexponent, hvalue]

/-! ### Steps of the reader -/

/-- The end of a line and the indentation of the next one are blanks. So the layout of
what is written plays no part when it is read. -/
theorem skipBlanks_newLine (level : Nat) (text : List Char) :
    skipBlanks (newLine level ++ text) = skipBlanks text := by
  refine List.dropWhile_append_of_pos fun c hc => ?_
  rcases List.mem_cons.1 hc with rfl | hc
  · rfl
  · rw [List.eq_of_mem_replicate hc]
    rfl

/-- Where a digit begins, a number is read. Words, quotes and brackets begin the
values of other kinds. -/
theorem readValue?_digit {c : Char} (h : c.isDigit) (rest : List Char) :
    readValue? (c :: rest) = readNumber? (c :: rest) := by
  rw [readValue?]
  case x =>
    intro heq
    cases heq
  -- No digit begins a value of another kind.
  all_goals
    intro more heq
    cases heq
    revert h
    decide

/-- Where a quote begins, a string is read. What the string is, and where it ends, is
left to the reader of strings. -/
theorem readValue?_quote {s rest left : List Char} (h : readText? rest = some (some s, left)) :
    readValue? ('"' :: rest) = some (.string (.ofList s), left) := by
  rw [readValue?, h]

/-- Where a bracket begins and does not end at once, items are read. The other case is
the empty array, which is read without looking for an item. -/
theorem readValue?_items {rest left : List Char} {items : List Value}
    (hne : ∀ more, skipBlanks rest ≠ ']' :: more)
    (h : readItems? (skipBlanks rest) = some (items, left)) :
    readValue? ('[' :: rest) = some (.array items, left) := by
  rw [readValue?]
  split
  · rename_i more heq
    exact absurd heq (hne more)
  · rw [h]
    rfl

/-- Where a brace begins and does not end at once, members are read. The other case is
the empty object. -/
theorem readValue?_members {rest left : List Char} {members : List (String × Value)}
    (hne : ∀ more, skipBlanks rest ≠ '}' :: more)
    (h : readMembers? (skipBlanks rest) = some (some members, left)) :
    readValue? ('{' :: rest) = some (.object members, left) := by
  rw [readValue?]
  split
  · rename_i more heq
    exact absurd heq (hne more)
  · rw [h]

/-- Two brackets are an array without items. They are written without a line of their
own, so this is a case of its own. -/
theorem readValue?_noItems (rest : List Char) :
    readValue? ('[' :: ']' :: rest) = some (.array [], rest) := by
  rw [readValue?]
  rfl

/-- Two braces are an object without members. As for arrays, nothing stands between
the two. -/
theorem readValue?_noMembers (rest : List Char) :
    readValue? ('{' :: '}' :: rest) = some (.object [], rest) := by
  rw [readValue?]
  rfl

/-- An item with a bracket behind it is the last one. Blanks in front of the bracket
are skipped. -/
theorem readItems?_last {text after left : List Char} {item : Value}
    (hitem : readValue? text = some (item, after)) (hclose : skipBlanks after = ']' :: left) :
    readItems? text = some ([item], left) := by
  rw [readItems?]
  simp only [hitem, hclose]

/-- An item with a comma behind it is followed by others. The reader asks for the text
to get shorter, which it does with every item. -/
theorem readItems?_cons {text after next left : List Char} {item : Value} {items : List Value}
    (hitem : readValue? text = some (item, after)) (hcomma : skipBlanks after = ',' :: next)
    (hlength : (skipBlanks next).length < text.length)
    (hitems : readItems? (skipBlanks next) = some (items, left)) :
    readItems? text = some (item :: items, left) := by
  rw [readItems?]
  simp only [hitem, hcomma, if_pos hlength, hitems, Option.map_some]

/-- A member with a brace behind it is the last one. The text behind the colon has to
be no longer than the whole, by which the reader ends. -/
theorem readMembers?_last {text afterName valueText after left : List Char} {name : List Char}
    {value : Value} (hname : readText? text = some (some name, afterName))
    (hcolon : skipBlanks afterName = ':' :: valueText)
    (hlength : (skipBlanks valueText).length ≤ text.length)
    (hvalue : readValue? (skipBlanks valueText) = some (value, after))
    (hclose : skipBlanks after = '}' :: left) :
    readMembers? ('"' :: text) = some (some [(.ofList name, value)], left) := by
  rw [readMembers?]
  simp only [hname, hcolon, if_pos hlength, hvalue, hclose, Option.map_some]

/-- A member with a comma behind it is followed by others. The conditions on lengths
are those by which the reader makes sure that it goes on with less. -/
theorem readMembers?_cons {text afterName valueText after next left : List Char}
    {name : List Char} {value : Value} {members : List (String × Value)}
    (hname : readText? text = some (some name, afterName))
    (hcolon : skipBlanks afterName = ':' :: valueText)
    (hlength : (skipBlanks valueText).length ≤ text.length)
    (hvalue : readValue? (skipBlanks valueText) = some (value, after))
    (hcomma : skipBlanks after = ',' :: next)
    (hnext : (skipBlanks next).length ≤ text.length)
    (hmembers : readMembers? (skipBlanks next) = some (some members, left)) :
    readMembers? ('"' :: text) = some (some ((.ofList name, value) :: members), left) := by
  rw [readMembers?]
  simp only [hname, hcolon, if_pos hlength, hvalue, hcomma, if_pos hnext, hmembers,
    Option.map_some]

/-! ### Values -/

namespace Value

/-- A value without a foreign one inside. -/
inductive IsNative : Value → Prop where
  | null : IsNative .null
  | bool (b : Bool) : IsNative (.bool b)
  | natural (n : Nat) : IsNative (.natural n)
  | string (s : String) : IsNative (.string s)
  | array {items : List Value} (h : ∀ item ∈ items, item.IsNative) : IsNative (.array items)
  | object {members : List (String × Value)} (h : ∀ member ∈ members, member.2.IsNative) :
      IsNative (.object members)

/-- The value is read as it was written, whatever stands behind it. -/
def IsRead (value : Value) : Prop :=
  ∀ (level : Nat) (rest : List Char), EndsNumber rest →
    readValue? (value.write level ++ rest) = some (value, rest)

/-- A written value begins with a character of its own, which is not the bracket that
ends an array. -/
theorem exists_cons_write (value : Value) (level : Nat) :
    ∃ c more, value.write level = c :: more ∧ isBlank c = false ∧ c ≠ ']' := by
  cases value with
  | null => exact ⟨_, _, rfl, by decide⟩
  | bool b => cases b <;> exact ⟨_, _, rfl, by decide⟩
  -- The first character is a digit, which is neither a blank nor a bracket.
  | natural n =>
    obtain ⟨c, more, hdigits, hdigit⟩ := exists_digit_toDigits n
    refine ⟨c, more, hdigits, ?_, ?_⟩
    · rw [Bool.eq_false_iff]
      intro hblank
      simp only [isBlank, Bool.or_eq_true, beq_iff_eq] at hblank
      rcases hblank with ((rfl | rfl) | rfl) | rfl <;> revert hdigit <;> decide
    · rintro rfl
      revert hdigit
      decide
  | string s => exact ⟨_, _, rfl, by decide⟩
  | array items => cases items <;> exact ⟨_, _, rfl, by decide⟩
  | object members => cases members <;> exact ⟨_, _, rfl, by decide⟩
  | foreign => exact ⟨_, _, rfl, by decide⟩

/-- Between the end of a line and a value nothing but blanks is skipped, so the value
is found whole. -/
theorem skipBlanks_write (value : Value) (level : Nat) (rest : List Char) :
    skipBlanks (value.write level ++ rest) = value.write level ++ rest := by
  obtain ⟨c, more, hwrite, hblank, -⟩ := value.exists_cons_write level
  refine skipBlanks_eq_self fun d hd => ?_
  rw [hwrite] at hd
  cases hd
  exact hblank

/-- The space behind a colon is skipped. -/
theorem skipBlanks_space_write (value : Value) (level : Nat) (rest : List Char) :
    skipBlanks (' ' :: (value.write level ++ rest)) = value.write level ++ rest :=
  value.skipBlanks_write level rest

/-- The end of a line in front of a value is skipped. -/
theorem skipBlanks_newLine_write (value : Value) (level : Nat) (rest : List Char) :
    skipBlanks (newLine level ++ (value.write level ++ rest)) = value.write level ++ rest := by
  rw [skipBlanks_newLine, skipBlanks_write]

end Value

/-- Items are read up to the bracket behind the last of them. The induction is on the
items behind the first one, since the reader asks for one at least. -/
theorem readItems?_write {item : Value} {items : List Value}
    (h : ∀ value ∈ item :: items, value.IsRead) (level closing : Nat) (rest : List Char) :
    readItems? (item.write level ++ (writeItems level items ++ (newLine closing ++ ']' :: rest)))
      = some (item :: items, rest) := by
  induction items generalizing item with
  | nil =>
    refine readItems?_last (h item List.mem_cons_self level _ (endsNumber_newLine closing _)) ?_
    exact skipBlanks_newLine closing _
  | cons next items ih =>
    have hnext := ih fun value hvalue => h value (List.mem_cons_of_mem item hvalue)
    have hskip := next.skipBlanks_newLine_write level
      (writeItems level items ++ (newLine closing ++ ']' :: rest))
    have htext : writeItems level (next :: items) ++ (newLine closing ++ ']' :: rest)
        = ',' :: (newLine level ++ (next.write level
          ++ (writeItems level items ++ (newLine closing ++ ']' :: rest)))) := by
      simp [writeItems]
    -- The reader takes the item and the comma, skips the line break, and goes on with the
    -- rest.
    rw [htext]
    refine readItems?_cons (h item List.mem_cons_self level _ (endsNumber_comma _)) rfl ?_
      (hskip.symm ▸ hnext)
    rw [hskip]
    simp only [List.length_append, List.length_cons]
    omega

/-- The end of a line in front of a name is skipped. A string begins with a quote, so
nothing of the name itself is skipped. -/
theorem skipBlanks_newLine_writeString (level : Nat) (s : String) (rest : List Char) :
    skipBlanks (newLine level ++ (writeString s ++ rest)) = writeString s ++ rest :=
  skipBlanks_newLine level _

/-- A written string is its quotes with the escaped characters between them. In this
form the reader of strings can be followed, which goes on to the second quote. -/
theorem writeString_append (s : String) (rest : List Char) :
    writeString s ++ rest = '"' :: (s.toList.flatMap escapeChar ++ '"' :: rest) := by
  simp [writeString]

/-- Members are read up to the brace behind the last of them. Each of them is a name,
a colon and a value, of which the reader takes all three at once. -/
theorem readMembers?_write {member : String × Value} {members : List (String × Value)}
    (h : ∀ m ∈ member :: members, m.2.IsRead) (level closing : Nat) (rest : List Char) :
    readMembers? (writeString member.1 ++ (':' :: ' ' :: (member.2.write level
        ++ (writeMembers level members ++ (newLine closing ++ '}' :: rest)))))
      = some (some (member :: members), rest) := by
  induction members generalizing member with
  | nil =>
    have hskip := member.2.skipBlanks_space_write level (newLine closing ++ '}' :: rest)
    have hvalue := h member List.mem_cons_self level _ (endsNumber_newLine closing ('}' :: rest))
    rw [← hskip] at hvalue
    rw [writeString_append]
    refine (readMembers?_last (readText?_flatMap_escapeChar _ _) rfl ?_ hvalue
      (skipBlanks_newLine closing _)).trans ?_
    · rw [hskip]
      simp only [List.length_append, List.length_cons]
      omega
    · rw [String.ofList_toList]
  | cons next members ih =>
    have hnext := ih fun m hm => h m (List.mem_cons_of_mem member hm)
    have htext : writeMembers level (next :: members) ++ (newLine closing ++ '}' :: rest)
        = ',' :: (newLine level ++ (writeString next.1 ++ (':' :: ' ' :: (next.2.write level
          ++ (writeMembers level members ++ (newLine closing ++ '}' :: rest)))))) := by
      simp [writeMembers]
    rw [← skipBlanks_newLine_writeString level] at hnext
    rw [htext]
    -- The rest of the text is carried along as one piece from here on.
    generalize newLine level ++ (writeString next.1 ++ (':' :: ' ' :: (next.2.write level
      ++ (writeMembers level members ++ (newLine closing ++ '}' :: rest))))) = following at hnext ⊢
    have hskip := member.2.skipBlanks_space_write level (',' :: following)
    have hvalue := h member List.mem_cons_self level _ (endsNumber_comma following)
    have hfollowing : (skipBlanks following).length ≤ following.length :=
      (skipBlanks_suffix following).length_le
    rw [← hskip] at hvalue
    rw [writeString_append]
    refine (readMembers?_cons (readText?_flatMap_escapeChar _ _) rfl ?_ hvalue rfl ?_
      hnext).trans ?_
    · rw [hskip]
      simp only [List.length_append, List.length_cons]
      omega
    · simp only [List.length_append, List.length_cons]
      omega
    · rw [String.ofList_toList]

/-- A value without a foreign one inside is read as it was written, at every level and
in front of anything that does not go on with a number. The induction gives this for
the items and the members. -/
theorem readValue?_write {value : Value} (h : value.IsNative) : value.IsRead := by
  induction h with
  | null => exact fun level rest _ => by simp [Value.write, readValue?, skipWord?]
  | bool b =>
    intro level rest _
    cases b <;> simp [Value.write, readValue?, skipWord?]
  | natural n =>
    intro level rest hrest
    obtain ⟨c, more, hdigits, hdigit⟩ := exists_digit_toDigits n
    have hread := readNumber?_toDigits n hrest
    rw [hdigits] at hread
    rw [Value.write, hdigits, List.cons_append, readValue?_digit hdigit]
    exact hread
  | string s =>
    intro level rest _
    have hread := readValue?_quote (readText?_flatMap_escapeChar s.toList rest)
    rw [String.ofList_toList] at hread
    simpa [Value.write, writeString] using hread
  | @array items _ ih =>
    intro level rest _
    cases items with
    | nil => simp [Value.write, readValue?_noItems]
    | cons item items =>
      have hskip := item.skipBlanks_newLine_write (level + 1)
        (writeItems (level + 1) items ++ (newLine level ++ ']' :: rest))
      have hitems := readItems?_write ih (level + 1) level rest
      have htext : (Value.array (item :: items)).write level ++ rest
          = '[' :: (newLine (level + 1) ++ (item.write (level + 1)
            ++ (writeItems (level + 1) items ++ (newLine level ++ ']' :: rest)))) := by
        simp [Value.write]
      rw [htext]
      -- The first item is not the closing bracket, so the list is not taken for an empty
      -- one.
      refine readValue?_items (fun more heq => ?_) (hskip.symm ▸ hitems)
      obtain ⟨c, tail, hwrite, -, hne⟩ := item.exists_cons_write (level + 1)
      rw [hskip, hwrite] at heq
      exact hne (List.cons.inj heq).1
  | @object members _ ih =>
    intro level rest _
    cases members with
    | nil => simp [Value.write, readValue?_noMembers]
    | cons member members =>
      have hmembers := readMembers?_write ih (level + 1) level rest
      have htext : (Value.object (member :: members)).write level ++ rest
          = '{' :: (newLine (level + 1) ++ (writeString member.1 ++ (':' :: ' ' ::
            (member.2.write (level + 1)
              ++ (writeMembers (level + 1) members ++ (newLine level ++ '}' :: rest)))))) := by
        simp [Value.write]
      rw [htext]
      -- A member begins with a quote, so the list is not taken for an empty one here
      -- either.
      refine readValue?_members (fun more heq => ?_) ?_
      · rw [skipBlanks_newLine_writeString] at heq
        cases heq
      · rw [skipBlanks_newLine_writeString]
        exact hmembers

/-- A value without a foreign one inside is read from a text that is nothing but what
is written for it. Behind a value no more than blanks may stand in a text. -/
theorem Value.ofText?_text {value : Value} (h : value.IsNative) :
    Value.ofText? value.text = some value := by
  have hfront : readFront? value.text = some (value, []) := by
    have hread := readValue?_write h 0 [] endsNumber_nil
    rwa [← value.skipBlanks_write, List.append_nil, ← String.toList_ofList (l := value.write 0)]
      at hread
  rw [ofText?, hfront]
  rfl

end BlockStyles.Json
