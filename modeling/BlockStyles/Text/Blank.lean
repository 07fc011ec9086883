/-!
# `BlockStyles.Text.Blank`: white space, wide and narrow

Two sets of white space are in use. Text is *trimmed* of every character with
the Unicode property `White_Space`; the grammar *skips* only blanks: space,
tab, carriage return and line feed. A character between the two sets (a
no-break space, a form feed) can therefore surround a value, but it does not
separate two tokens.

* `isSpace_of_isBlank`: every blank is white space.
* `skipBlanks_suffix`: skipping only drops a front part of the text.
-/

set_option autoImplicit false

namespace BlockStyles.Text

/-- The characters with the Unicode property `White_Space`. -/
def isSpace (c : Char) : Bool :=
  c == ' ' || ('\t' ≤ c && c ≤ '\r') || c == '\u0085' || c == '\u00a0' || c == '\u1680'
    || ('\u2000' ≤ c && c ≤ '\u200a') || c == '\u2028' || c == '\u2029' || c == '\u202f'
    || c == '\u205f' || c == '\u3000'

/-- The characters that the grammar skips between tokens. -/
def isBlank (c : Char) : Bool :=
  c == ' ' || c == '\t' || c == '\r' || c == '\n'

/-- Every blank is white space. The converse fails, and that is the point of
having two sets: a no-break space is trimmed off a value and separates no
tokens. -/
theorem isSpace_of_isBlank {c : Char} (h : isBlank c) : isSpace c := by
  simp only [isBlank, Bool.or_eq_true, beq_iff_eq] at h
  rcases h with ((rfl | rfl) | rfl) | rfl <;> decide

/-- The text from its first character that is not a blank on. -/
def skipBlanks (text : List Char) : List Char :=
  text.dropWhile isBlank

/-- Skipping blanks drops a front part of the text. This and
`trimStart_suffix` are the first links of every chain of suffixes by which
readers are shown to end. -/
theorem skipBlanks_suffix (text : List Char) : skipBlanks text <:+ text :=
  List.dropWhile_suffix _

/-- The text from its first character that is not white space on. -/
def trimStart (text : List Char) : List Char :=
  text.dropWhile isSpace

/-- Trimming at the front drops a front part of the text. -/
theorem trimStart_suffix (text : List Char) : trimStart text <:+ text :=
  List.dropWhile_suffix _

/-- The text up to its last character that is not white space. -/
def trimEnd (text : List Char) : List Char :=
  (text.reverse.dropWhile isSpace).reverse

/-- The text without the white space around it. -/
def trim (text : List Char) : List Char :=
  trimEnd (trimStart text)

end BlockStyles.Text
