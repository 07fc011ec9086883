/-!
# `BlockStyles.Text.Split`: cutting a text at one character

`splitFirst` and `splitLast` cut at the first and at the last place where a
character stands; the character itself is in neither part. `pieces` cuts at all
of them.

* `splitFirst_eq_some`: the two parts and the character between them are the
  text, and the first part does not hold the character.
-/

set_option autoImplicit false

namespace BlockStyles.Text

/-- The parts before and after the first `separator`, if there is one. -/
def splitFirst (separator : Char) (text : List Char) : Option (List Char × List Char) :=
  match text.dropWhile (· != separator) with
  | [] => none
  | _ :: rest => some (text.takeWhile (· != separator), rest)

/-- The parts before and after the last `separator`, if there is one. -/
def splitLast (separator : Char) (text : List Char) : Option (List Char × List Char) :=
  (splitFirst separator text.reverse).map fun (after, before) => (before.reverse, after.reverse)

/-- The text is the two parts with the separator between them, and it is cut
at the first one: the front part has none. -/
theorem splitFirst_eq_some {separator : Char} {text before after : List Char}
    (h : splitFirst separator text = some (before, after)) :
    text = before ++ separator :: after ∧ separator ∉ before := by
  unfold splitFirst at h
  split at h
  · cases h
  · rename_i c rest hrest
    simp only [Option.some.injEq, Prod.mk.injEq] at h
    obtain ⟨rfl, rfl⟩ := h
    have hc : c = separator := by
      -- The character at which dropping stops is the separator, since it was not dropped.
      have := List.head_dropWhile_not (· != separator) (l := text) (by simp [hrest])
      simpa [hrest] using this
    refine ⟨?_, fun hmem => ?_⟩
    · rw [← hc, ← hrest, hc, List.takeWhile_append_dropWhile]
    · have := List.all_eq_true.1 (List.all_takeWhile (p := (· != separator)) (l := text)) _ hmem
      simp at this

/-- The pieces of a text between the places where `separator` stands: one more
than there are such places, so that a text without any is a single piece. -/
def pieces (separator : Char) : List Char → List (List Char)
  | [] => [[]]
  | c :: rest =>
    if c == separator then
      [] :: pieces separator rest
    else
      match pieces separator rest with
      | [] => [[c]]
      | piece :: more => (c :: piece) :: more

/-- There is always a piece, so the last branch of `pieces` is never without
one to add to. -/
theorem pieces_ne_nil (separator : Char) (text : List Char) : pieces separator text ≠ [] := by
  cases text with
  | nil => simp [pieces]
  | cons c rest =>
    unfold pieces
    split
    · simp
    · split <;> simp

end BlockStyles.Text
