import BlockStyles.Text.Blank

/-!
# `BlockStyles.Proofs.Text.Blanks`: texts that nothing is trimmed off

Skipping and trimming look at the ends of a text only. What they leave does not
begin with what they drop, or end with it, so doing it again changes nothing.

* `trim_eq_self_iff`: nothing is trimmed off a text without white space at its ends.
* `trim_trim`: trimming twice is trimming once.
-/

set_option autoImplicit false

namespace BlockStyles.Text

variable {text : List Char}

/-- What is left after blanks have been skipped does not begin with a blank. All
blanks in front are taken at once, so nothing remains to be skipped. -/
theorem isBlank_head_skipBlanks (text : List Char) :
    ∀ c ∈ (skipBlanks text).head?, isBlank c = false := by
  have hhead := List.head?_dropWhile_not isBlank text
  intro c hc
  rw [skipBlanks] at hc
  rw [hc] at hhead
  exact hhead

/-- What is left after trimming in front does not begin with white space. Trimming
again therefore takes nothing more off. -/
theorem isSpace_head_trimStart (text : List Char) :
    ∀ c ∈ (trimStart text).head?, isSpace c = false := by
  have hhead := List.head?_dropWhile_not isSpace text
  intro c hc
  rw [trimStart] at hc
  rw [hc] at hhead
  exact hhead

/-- Nothing is dropped if the first character is not to be dropped. Skipping and both
kinds of trimming are cases of this. -/
theorem dropWhile_eq_self {p : Char → Bool} (h : ∀ c ∈ text.head?, p c = false) :
    text.dropWhile p = text := by
  cases text with
  | nil => rfl
  | cons c rest => rw [List.dropWhile_cons, h c rfl]; rfl

/-- No blanks are skipped in front of a text that does not begin with one. -/
theorem skipBlanks_eq_self (h : ∀ c ∈ text.head?, isBlank c = false) : skipBlanks text = text :=
  dropWhile_eq_self h

/-- Nothing is trimmed off in front of a text that does not begin with white space. -/
theorem trimStart_eq_self (h : ∀ c ∈ text.head?, isSpace c = false) : trimStart text = text :=
  dropWhile_eq_self h

/-- Nothing is trimmed off behind a text that does not end with white space. -/
theorem trimEnd_eq_self (h : ∀ c ∈ text.getLast?, isSpace c = false) : trimEnd text = text := by
  rw [trimEnd, dropWhile_eq_self, List.reverse_reverse]
  rwa [List.head?_reverse]

/-- What is left after trimming at the end does not end with white space. It is the
mirror image of the same fact about the beginning. -/
theorem isSpace_getLast_trimEnd (text : List Char) :
    ∀ c ∈ (trimEnd text).getLast?, isSpace c = false := by
  intro c hc
  rw [trimEnd, List.getLast?_reverse] at hc
  exact isSpace_head_trimStart text.reverse c hc

/-- Trimming at the end leaves a front part of the text, so whatever was known of the
beginning of it is still known. -/
theorem prefix_trimEnd (text : List Char) : trimEnd text <+: text := by
  rw [← List.reverse_suffix, trimEnd, List.reverse_reverse]
  exact List.dropWhile_suffix _

/-- What is left after trimming does not begin with white space: the end is trimmed
after the beginning, and takes nothing away there unless nothing remains. -/
theorem isSpace_head_trim (text : List Char) : ∀ c ∈ (trim text).head?, isSpace c = false := by
  intro c hc
  obtain ⟨rest, hrest⟩ := prefix_trimEnd (trimStart text)
  have hhead : (trimEnd (trimStart text)).head? = some c := hc
  refine isSpace_head_trimStart text c ?_
  rw [← hrest, List.head?_append, hhead]
  rfl

/-- Nothing is trimmed off a text without white space at its ends. The hypotheses of
the lemmas on trimmed texts are stated as equations, and this takes them apart. -/
theorem trim_eq_self_iff :
    trim text = text ↔
      (∀ c ∈ text.head?, isSpace c = false) ∧ ∀ c ∈ text.getLast?, isSpace c = false := by
  constructor
  · intro h
    exact ⟨h ▸ isSpace_head_trim text, h ▸ isSpace_getLast_trimEnd (trimStart text)⟩
  · rintro ⟨hhead, hlast⟩
    rw [trim, trimStart_eq_self hhead, trimEnd_eq_self hlast]

/-- Trimming twice is trimming once, for what is trimmed has no white space at either end. -/
theorem trim_trim (text : List Char) : trim (trim text) = trim text :=
  trim_eq_self_iff.2 ⟨isSpace_head_trim text, isSpace_getLast_trimEnd _⟩

/-- Trimming drops characters and adds none. So a character that a text is free of
does not turn up in what is trimmed. -/
theorem mem_of_mem_trim {c : Char} (h : c ∈ trim text) : c ∈ text :=
  (trimStart_suffix text).subset ((prefix_trimEnd _).subset h)

/-- White space in front of a text is trimmed off, as much of it as there is. Comments
that have been blanked are white space as well, so they are trimmed off with it. -/
theorem trim_append {blanks : List Char} (h : ∀ c ∈ blanks, isSpace c) (text : List Char) :
    trim (blanks ++ text) = trim text := by
  rw [trim, trim, trimStart, List.dropWhile_append_of_pos h]
  rfl

/-- Blanks in front of a text are skipped, as many as there are. Not all white space
is skipped, so the hypothesis asks for more here. -/
theorem skipBlanks_append {blanks : List Char} (h : ∀ c ∈ blanks, isBlank c) (text : List Char) :
    skipBlanks (blanks ++ text) = skipBlanks text :=
  List.dropWhile_append_of_pos h

/-- What is skipped in front of a text is blanks, and with them the text is whole
again. -/
theorem exists_eq_append_skipBlanks (text : List Char) :
    ∃ blanks, text = blanks ++ skipBlanks text ∧ ∀ c ∈ blanks, isBlank c :=
  ⟨text.takeWhile isBlank, List.takeWhile_append_dropWhile.symm,
    List.all_eq_true.1 List.all_takeWhile⟩

/-- Blanks that have been skipped would have been trimmed off, since every blank is
white space. -/
theorem trim_skipBlanks (text : List Char) : trim (skipBlanks text) = trim text := by
  obtain ⟨blanks, htext, hblanks⟩ := exists_eq_append_skipBlanks text
  rw [htext, skipBlanks_append hblanks, trim_append fun c hc => isSpace_of_isBlank (hblanks c hc),
    skipBlanks_eq_self (isBlank_head_skipBlanks text)]

/-- What is trimmed off in front is white space, and with it the text is whole again.
In this form nothing is lost that has been trimmed off. -/
theorem exists_eq_append_trimStart (text : List Char) :
    ∃ spaces, text = spaces ++ trimStart text ∧ ∀ c ∈ spaces, isSpace c :=
  ⟨text.takeWhile isSpace, List.takeWhile_append_dropWhile.symm,
    List.all_eq_true.1 List.all_takeWhile⟩

/-- What is trimmed off at the end is white space. This is the statement about the
front, for the text turned around. -/
theorem exists_eq_trimEnd_append (text : List Char) :
    ∃ spaces, text = trimEnd text ++ spaces ∧ ∀ c ∈ spaces, isSpace c := by
  obtain ⟨spaces, htext, hspaces⟩ := exists_eq_append_trimStart text.reverse
  refine ⟨spaces.reverse, ?_, fun c hc => hspaces c (List.mem_reverse.1 hc)⟩
  rw [trimEnd, ← List.reverse_append]
  exact List.reverse_eq_iff.1 htext

/-- What is trimmed off a text is white space. The two parts are not unique where
nothing but white space is there; then all of it is taken off in front. -/
theorem exists_eq_append_trim (text : List Char) :
    ∃ before after, text = before ++ (trim text ++ after)
      ∧ (∀ c ∈ before, isSpace c) ∧ ∀ c ∈ after, isSpace c := by
  obtain ⟨before, hstart, hbefore⟩ := exists_eq_append_trimStart text
  obtain ⟨after, hend, hafter⟩ := exists_eq_trimEnd_append (trimStart text)
  exact ⟨before, after, hstart.trans (congrArg _ hend), hbefore, hafter⟩

/-- White space around a text that nothing is trimmed off is trimmed off. The text has
to be there: without it the white space on both sides would be one run. -/
theorem trim_append_append {before after : List Char} (hbefore : ∀ c ∈ before, isSpace c)
    (htext : trim text = text) (hne : text ≠ []) (hafter : ∀ c ∈ after, isSpace c) :
    trim (before ++ (text ++ after)) = text := by
  have hhead : ∀ c ∈ (text ++ after).head?, isSpace c = false := by
    cases text with
    | nil => exact absurd rfl hne
    | cons c rest => exact (trim_eq_self_iff.1 htext).1
  have hlast : ∀ c ∈ text.reverse.head?, isSpace c = false := by
    rw [List.head?_reverse]
    exact (trim_eq_self_iff.1 htext).2
  have hreverse : ∀ c ∈ after.reverse, isSpace c := fun c hc => hafter c (List.mem_reverse.1 hc)
  rw [trim_append hbefore, trim, trimStart_eq_self hhead, trimEnd, List.reverse_append,
    List.dropWhile_append_of_pos hreverse, dropWhile_eq_self hlast, List.reverse_reverse]

/-- Nothing is left of white space alone, and only of it. So a snippet is empty just
if there is nothing in it to show. -/
theorem trim_eq_nil_iff : trim text = [] ↔ ∀ c ∈ text, isSpace c := by
  constructor
  · intro h
    obtain ⟨before, after, htext, hbefore, hafter⟩ := exists_eq_append_trim text
    rw [h, List.nil_append] at htext
    exact htext ▸ List.forall_mem_append.2 ⟨hbefore, hafter⟩
  · intro h
    have hnil := trim_append h []
    rwa [List.append_nil] at hnil

/-- Nothing is trimmed off two such texts with a mark between them. Either text may be
empty, and then the mark is at the end of the whole, which is why it must not be white
space. -/
theorem trim_append_cons {before after : List Char} {mark : Char} (hmark : isSpace mark = false)
    (hbefore : trim before = before) (hafter : trim after = after) :
    trim (before ++ mark :: after) = before ++ mark :: after := by
  refine trim_eq_self_iff.2 ⟨?_, ?_⟩
  -- The first character is that of the text in front, or else the mark.
  · cases before with
    | nil => exact fun c hc => Option.mem_some.1 hc ▸ hmark
    | cons d rest => exact (trim_eq_self_iff.1 hbefore).1
  -- The last one is that of the text behind, or else the mark.
  · cases after with
    | nil =>
      intro c hc
      rw [List.getLast?_concat] at hc
      exact Option.mem_some.1 hc ▸ hmark
    | cons d rest =>
      intro c hc
      rw [List.getLast?_append, List.getLast?_cons_cons, List.getLast?_cons] at hc
      refine (trim_eq_self_iff.1 hafter).2 c ?_
      rw [List.getLast?_cons]
      exact hc

/-- What is skipped in front of a trimmed text is the blank there. This is how values
and preludes are written: one blank, and then a text that does not begin with one. -/
theorem skipBlanks_append_of_trim (h : trim text = text) (hne : text ≠ []) (rest : List Char) :
    skipBlanks (' ' :: (text ++ rest)) = text ++ rest := by
  have hskip : skipBlanks (' ' :: (text ++ rest)) = skipBlanks (text ++ rest) := rfl
  rw [hskip]
  refine skipBlanks_eq_self fun c hc => ?_
  cases text with
  | nil => exact absurd rfl hne
  | cons d tail =>
    have hspace := (trim_eq_self_iff.1 h).1 c hc
    rw [Bool.eq_false_iff]
    intro hblank
    rw [isSpace_of_isBlank hblank] at hspace
    cases hspace

end BlockStyles.Text
