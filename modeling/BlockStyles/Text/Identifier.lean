import BlockStyles.Text.Alphanumeric

/-!
# `BlockStyles.Text.Identifier`: identifiers

An identifier is a non-empty run of letters, numbers, `-` and `_`. It may begin
with any of them.

Its reader is one of many that take something from the front of a text. All of
them answer alike: with a value and the text behind it, or with the place where
they gave up. That place is said by the text that is left there, which is all
that is needed to report where a source went wrong.

* `Reading`: what a reader answers.
* `Identifier.read_eq_ok`: reading takes the whole run and nothing else.
-/

set_option autoImplicit false

namespace BlockStyles.Text

/-- What a reader answers: the value and the rest of the text, or, if the text
does not start as it should, the text left at the place where reading stopped. -/
abbrev Reading (α : Type) : Type :=
  Except (List Char) (α × List Char)

/-- The characters of identifiers. -/
def isIdentifierChar (c : Char) : Bool :=
  isAlphanumeric c || c == '-' || c == '_'

/-- Whether a text is an identifier. -/
def isIdentifier (text : String) : Bool :=
  !text.toList.isEmpty && text.toList.all isIdentifierChar

namespace Identifier

/-- Reads the longest identifier that the text starts with. -/
def read (text : List Char) : Reading String :=
  match text.takeWhile isIdentifierChar with
  | [] => .error text
  | c :: name => .ok (String.ofList (c :: name), text.dropWhile isIdentifierChar)

/-- What is read is an identifier, and together with the rest it is the text.
That nothing more could have been read is said where it is needed, by what
stands in front of the rest. -/
theorem read_eq_ok {text rest : List Char} {name : String} (h : read text = .ok (name, rest)) :
    text = name.toList ++ rest ∧ isIdentifier name := by
  unfold read at h
  split at h
  · cases h
  · rename_i c run hrun
    simp only [Except.ok.injEq, Prod.mk.injEq] at h
    obtain ⟨rfl, rfl⟩ := h
    refine ⟨?_, ?_⟩
    · rw [String.toList_ofList, ← hrun, List.takeWhile_append_dropWhile]
    · have := List.all_takeWhile (p := isIdentifierChar) (l := text)
      rw [hrun] at this
      simp [isIdentifier, this]

/-- Reading an identifier leaves an end of the text, and a shorter one, as no
identifier is empty. -/
theorem read_shorter {text rest : List Char} {name : String} (h : read text = .ok (name, rest)) :
    rest <:+ text ∧ rest.length < text.length := by
  obtain ⟨rfl, hname⟩ := read_eq_ok h
  refine ⟨List.suffix_append _ _, ?_⟩
  simp only [isIdentifier, Bool.and_eq_true, Bool.not_eq_true', List.isEmpty_eq_false_iff] at hname
  have := List.length_pos_iff.2 hname.1
  simp only [List.length_append]
  omega

/-- Where there is no identifier, reading stops at once, in front of the text
it was given. -/
theorem read_eq_error {text left : List Char} (h : read text = .error left) : left = text := by
  unfold read at h
  split at h
  · exact (Except.error.inj h).symm
  · cases h

end Identifier

end BlockStyles.Text
