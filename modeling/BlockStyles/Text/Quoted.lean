/-!
# `BlockStyles.Text.Quoted`: quotes around a text

Text may be written between two double or two single quotes. There are no
escapes: what stands between the outer quotes is the text itself.

* `unquote_quoted`: the quotes come off again.
* `unquote_eq_self_or_quoted`: nothing but such a pair of quotes ever comes off.
-/

set_option autoImplicit false

namespace BlockStyles.Text

/-- The two characters that quote. -/
def isQuote (c : Char) : Bool :=
  c == '"' || c == '\x27'

/-- The text without the pair of equal quotes around it, if it has one. -/
def unquote : List Char → List Char
  | [] => []
  | c :: rest =>
    if isQuote c && rest.getLast? == some c then rest.dropLast else c :: rest

/-- The quotes that have been put around a text come off again. What stands
between them does not matter: it may hold quotes of the same kind, as only
the outer ones are looked at. -/
theorem unquote_quoted {quote : Char} (h : isQuote quote) (text : List Char) :
    unquote (quote :: text ++ [quote]) = text := by
  simp [unquote, h]

/-- Nothing but a pair of equal quotes ever comes off, and only one pair. A
text that consists of a single quote keeps it. -/
theorem unquote_eq_self_or_quoted (text : List Char) :
    unquote text = text ∨ ∃ quote, isQuote quote ∧ text = quote :: unquote text ++ [quote] := by
  cases text with
  | nil => exact .inl rfl
  | cons c rest =>
    simp only [unquote]
    split
    · rename_i h
      simp only [Bool.and_eq_true, beq_iff_eq] at h
      obtain ⟨inner, rfl⟩ := List.getLast?_eq_some_iff.1 h.2
      exact .inr ⟨c, h.1, by simp⟩
    · exact .inl rfl

end BlockStyles.Text
