import BlockStyles.Text.Identifier
import BlockStyles.Text.Quoted

/-!
# `BlockStyles.Text.RawValue`: values up to their terminator

A value is raw text that ends before the first `;`, `{` or `}` outside quotes
and parentheses. Parentheses inside quotes do not count, and a closing
parenthesis without an open one is plain text. A text without a terminator is
all value, unless it leaves a quote open.

* `RawValue.read_eq_ok`: value and rest together are the text, and the value is not empty.
-/

set_option autoImplicit false

namespace BlockStyles.Text.RawValue

/-- The characters that end a value. -/
def isTerminator (c : Char) : Bool :=
  c == ';' || c == '{' || c == '}'

/-- What protects the next character: the quote that is open, if one is, and
the number of open parentheses. -/
structure Cover where
  quote : Option Char
  depth : Nat
deriving DecidableEq, Repr

namespace Cover

/-- The cover at the start of a value. -/
def bare : Cover := ⟨none, 0⟩

/-- The cover after a character. -/
def step (cover : Cover) (c : Char) : Cover :=
  match cover.quote with
  | some quote => if c == quote then { cover with quote := none } else cover
  | none =>
    if isQuote c then { cover with quote := some c }
    else if c == '(' then { cover with depth := cover.depth + 1 }
    else if c == ')' then { cover with depth := cover.depth - 1 }
    else cover

/-- Whether a value ends before this character. -/
def endsAt (cover : Cover) (c : Char) : Bool :=
  cover.quote.isNone && cover.depth == 0 && isTerminator c

end Cover

/-- The text before the first character that ends a value, the text from it on,
and the cover there. -/
def scan (cover : Cover) : List Char → List Char × List Char × Cover
  | [] => ([], [], cover)
  | c :: rest =>
    if cover.endsAt c then
      ([], c :: rest, cover)
    else
      let (value, left, final) := scan (cover.step c) rest
      (c :: value, left, final)

/-- Reads a value. There is none where the text is empty or starts with a
terminator, and none where a quote stays open. -/
def read (text : List Char) : Reading (List Char) :=
  match scan .bare text with
  | (value, rest, final) =>
    if value.isEmpty || final.quote.isSome then .error text else .ok (value, rest)

/-- The scan drops nothing: the value and the text from where it ends are the
text again. -/
theorem scan_append (cover : Cover) (text : List Char) :
    (scan cover text).1 ++ (scan cover text).2.1 = text := by
  induction text generalizing cover with
  | nil => rfl
  | cons c rest ih =>
    unfold scan
    split
    · rfl
    · simp [ih]

/-- The value and the rest of a scan are the text again, with the parts under
names of their own. -/
theorem append_of_scan {cover final : Cover} {text value rest : List Char}
    (h : scan cover text = (value, rest, final)) : value ++ rest = text := by
  rw [← scan_append cover text, h]

/-- What is read is not empty, and together with the rest it is the text.
Where it ends is a question of its own, which needs the cover. -/
theorem read_eq_ok {text value rest : List Char} (h : read text = .ok (value, rest)) :
    text = value ++ rest ∧ value ≠ [] := by
  unfold read at h
  split at h
  rename_i v r final hscan
  split at h
  · cases h
  · rename_i hcond
    simp only [Except.ok.injEq, Prod.mk.injEq] at h
    obtain ⟨rfl, rfl⟩ := h
    exact ⟨(append_of_scan hscan).symm, fun hv => hcond (by simp [hv])⟩

/-- Reading a value leaves an end of the text, and a shorter one. -/
theorem read_shorter {text value rest : List Char} (h : read text = .ok (value, rest)) :
    rest <:+ text ∧ rest.length < text.length := by
  obtain ⟨rfl, hvalue⟩ := read_eq_ok h
  have := List.length_pos_iff.2 hvalue
  exact ⟨List.suffix_append _ _, by simp only [List.length_append]; omega⟩

/-- Where there is no value, reading stops in front of the text it was given,
even if a quote far behind is what is wrong with it. -/
theorem read_eq_error {text left : List Char} (h : read text = .error left) : left = text := by
  unfold read at h
  split at h
  split at h
  · exact (Except.error.inj h).symm
  · cases h

end BlockStyles.Text.RawValue
