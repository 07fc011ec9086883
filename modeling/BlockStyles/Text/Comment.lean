/-!
# `BlockStyles.Text.Comment`: comments

A comment runs from `/*` to the first `*/` behind it, or to the end of the
text. Comments are not cut out but blanked: every line break stays, and every
other character becomes as many spaces as its UTF-8 form has bytes. A blanked
text has the same bytes as the source at the same offsets outside comments.

* `blankComments_of_plain`: a text without `/*` is left as it is.
-/

set_option autoImplicit false

namespace BlockStyles.Text

/-- What a character inside a comment is replaced by. -/
def blankOut (c : Char) : List Char :=
  if c == '\n' then ['\n'] else List.replicate c.utf8Size ' '

mutual

/-- The text with its comments blanked. -/
def blankComments : List Char → List Char
  | '/' :: '*' :: rest => ' ' :: ' ' :: blankToClose rest
  | c :: rest => c :: blankComments rest
  | [] => []

/-- Blanks a text that starts inside a comment: up to its end, and then as
`blankComments` does. -/
def blankToClose : List Char → List Char
  | '*' :: '/' :: rest => ' ' :: ' ' :: blankComments rest
  | c :: rest => blankOut c ++ blankToClose rest
  | [] => []

end

/-- A text without `/*` is left as it is. Looking for the first two characters
of a comment is all that is done outside of one, so a `*/` alone is plain text. -/
theorem blankComments_of_plain (text : List Char) (h : ¬ ['/', '*'] <:+: text) :
    blankComments text = text := by
  induction text with
  | nil => simp [blankComments]
  | cons c rest ih =>
    have hrest : ¬ ['/', '*'] <:+: rest := fun hin =>
      h (hin.trans (List.suffix_cons c rest).isInfix)
    rw [blankComments.eq_2 c rest, ih hrest]
    rintro r rfl rfl
    exact h ⟨[], r, rfl⟩

end BlockStyles.Text
