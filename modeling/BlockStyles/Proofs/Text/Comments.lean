import BlockStyles.Text.Comment
import BlockStyles.Text.Position

/-!
# `BlockStyles.Proofs.Text.Comments`: places in a blanked text

A character of a blanked text that is neither a space nor a line break has not been
put there by blanking: it is a character of the source, outside comments, and at it
the source can be cut in two that are blanked each by itself. Lines stay as they are.
Columns do not: a character inside a comment becomes as many spaces as it has bytes.

* `exists_isCut`: where a character of a blanked text stands in the source.
* `IsCut.stands`: a place is on the same line of the source, and at the same column if no
  character inside a comment before it is wider than a byte.
-/

set_option autoImplicit false

namespace BlockStyles.Text

/-! ### Cuts -/

/-- The text is cut outside comments: each half is blanked by itself. -/
structure IsCut (source before rest : List Char) : Prop where
  source_eq : source = before ++ rest
  blanked : blankComments source = blankComments before ++ blankComments rest

/-- A text can be cut at its end, with nothing behind. This is the cut at the place where
an error at the end of the input is reported. -/
theorem IsCut.nil (source : List Char) : IsCut source source [] :=
  ⟨(List.append_nil _).symm, by simp [blankComments]⟩

/-- A character is blanked by spaces or by a line break, and by nothing else. So no
mark and no character of a name is ever brought in by blanking. -/
theorem blankOut_blank {c d : Char} (h : d ∈ blankOut c) : d = ' ' ∨ d = '\n' := by
  unfold blankOut at h
  split at h
  · exact .inr (List.mem_singleton.1 h)
  · exact .inl (List.eq_of_mem_replicate h)

/-- The two spaces in place of a mark are blank. -/
theorem spaces_blank : ∀ d ∈ [' ', ' '], d = ' ' ∨ d = '\n' := by
  simp

/-- A character that comes behind blanks and does not look like one is not among them.
So whatever a comment has become, such a character stands behind it. -/
theorem eq_append_of_blank {blanks text front back : List Char} {c : Char}
    (hblanks : ∀ d ∈ blanks, d = ' ' ∨ d = '\n') (hspace : c ≠ ' ') (hline : c ≠ '\n')
    (h : blanks ++ text = front ++ c :: back) :
    ∃ middle, front = blanks ++ middle ∧ text = middle ++ c :: back := by
  rcases List.append_eq_append_iff.1 h with ⟨middle, hfront, htext⟩ | ⟨middle, hblank, hrest⟩
  · exact ⟨middle, hfront, htext⟩
  · cases middle with
    | nil => exact ⟨[], by simpa using hblank.symm, by simpa using hrest.symm⟩
    | cons d middle =>
      obtain ⟨rfl, -⟩ := List.cons.inj hrest
      have hmem : c ∈ blanks := hblank ▸ List.mem_append_right _ List.mem_cons_self
      exact absurd (hblanks c hmem) (by simp [hspace, hline])

/-- The character behind `before` is the one behind `front` in the blanked text. Blanking with
`blank` starts outside or inside a comment, but at the character it is outside. -/
structure IsFound (blank : List Char → List Char) (source front : List Char) (c : Char)
    (back before rest : List Char) : Prop where
  source_eq : source = before ++ c :: rest
  before_eq : blank before = front
  concat_eq : blank (before ++ [c]) = front ++ [c]
  cons_eq : blankComments (c :: rest) = c :: back
  rest_eq : blankComments rest = back

/-- Every character that does not look blank is found in the source. -/
def FindsAll (blank : List Char → List Char) (source : List Char) : Prop :=
  ∀ (front back : List Char) (c : Char), c ≠ ' ' → c ≠ '\n' →
    blank source = front ++ c :: back → ∃ before rest, IsFound blank source front c back before rest

/-- If a text starts with a few characters that are blanked, those behind them are
still found. One lemma serves for the opening mark, the closing mark and a character
inside a comment; the condition on `start` is what the three have in common. -/
theorem FindsAll.append {blank blank' : List Char → List Char} {text : List Char}
    (h : FindsAll blank' text) (start : List Char) {blanks : List Char}
    (hblanks : ∀ d ∈ blanks, d = ' ' ∨ d = '\n')
    (hstart : ∀ more, more <+: text → blank (start ++ more) = blanks ++ blank' more) :
    FindsAll blank (start ++ text) := by
  intro front back c hspace hline heq
  rw [hstart text List.prefix_rfl] at heq
  -- The character is no blank, so it stands behind what the start has become.
  obtain ⟨middle, rfl, htext⟩ := eq_append_of_blank hblanks hspace hline heq
  obtain ⟨before, rest, hfound⟩ := h _ _ _ hspace hline htext
  have hbefore : before <+: text := ⟨c :: rest, hfound.source_eq.symm⟩
  have hconcat : before ++ [c] <+: text := ⟨rest, by rw [hfound.source_eq]; simp⟩
  exact ⟨start ++ before, rest, {
    source_eq := by rw [hfound.source_eq, List.append_assoc]
    before_eq := by rw [hstart before hbefore, hfound.before_eq]
    concat_eq := by rw [List.append_assoc, hstart _ hconcat, hfound.concat_eq, List.append_assoc]
    cons_eq := hfound.cons_eq
    rest_eq := hfound.rest_eq }⟩

/-- Blanking finds all of them. The two functions that blank call each other, so the
induction goes along their own recursion and has a case for each of their branches. -/
theorem findsAll_blankComments (source : List Char) : FindsAll blankComments source := by
  refine blankComments.induct (FindsAll blankComments) (FindsAll blankToClose)
    ?_ ?_ ?_ ?_ ?_ ?_ source
  · intro text ih
    exact ih.append ['/', '*'] spaces_blank fun more _ => rfl
  · intro d text hopen ih front back c hspace hline h
    have hd : ∀ more, more <+: text → blankComments (d :: more) = d :: blankComments more := by
      rintro more ⟨rest, rfl⟩
      refine blankComments.eq_2 d more ?_
      rintro more rfl rfl
      exact hopen _ rfl rfl
    -- Outside of comments a character stays, so it may be the one that is looked for.
    rw [hd text List.prefix_rfl] at h
    cases front with
    -- It is the first character.
    | nil =>
      obtain ⟨rfl, rfl⟩ := List.cons.inj h
      exact ⟨[], text, rfl, rfl, hd [] List.nil_prefix, hd text List.prefix_rfl, rfl⟩
    | cons e middle =>
      obtain ⟨rfl, htext⟩ := List.cons.inj h
      obtain ⟨before, rest, hfound⟩ := ih _ _ _ hspace hline htext
      have hbefore : before <+: text := ⟨c :: rest, hfound.source_eq.symm⟩
      have hconcat : before ++ [c] <+: text := ⟨rest, by rw [hfound.source_eq]; simp⟩
      exact ⟨d :: before, rest, {
        source_eq := by rw [hfound.source_eq]; rfl
        before_eq := by rw [hd before hbefore, hfound.before_eq]
        concat_eq := by rw [List.cons_append, hd _ hconcat, hfound.concat_eq]; rfl
        cons_eq := hfound.cons_eq
        rest_eq := hfound.rest_eq }⟩
  · intro front back c _ _ h
    exact absurd h (by simp [blankComments])
  · intro text ih
    exact ih.append ['*', '/'] spaces_blank fun more _ => rfl
  · intro d text hclose ih
    -- Inside a comment every character is blanked, by as many spaces as it has bytes.
    refine ih.append [d] (fun e (he : e ∈ blankOut d) => blankOut_blank he) ?_
    rintro more ⟨rest, rfl⟩
    refine blankToClose.eq_2 d more ?_
    rintro more rfl rfl
    exact hclose _ rfl rfl
  · intro front back c _ _ h
    exact absurd h (by simp [blankToClose])

/-- A character of a blanked text that is neither a space nor a line break is one of
the source, which can be cut before it and behind it. The character keeps its place
among those that do not look blank, but not its column. -/
theorem exists_isCut {source front back : List Char} {c : Char} (hspace : c ≠ ' ')
    (hline : c ≠ '\n') (h : blankComments source = front ++ c :: back) :
    ∃ before rest, IsCut source before (c :: rest) ∧ IsCut source (before ++ [c]) rest
      ∧ blankComments before = front ∧ blankComments (before ++ [c]) = front ++ [c]
      ∧ blankComments rest = back := by
  obtain ⟨before, rest, hfound⟩ := findsAll_blankComments source _ _ _ hspace hline h
  refine ⟨before, rest, ⟨hfound.source_eq, ?_⟩, ⟨?_, ?_⟩, hfound.before_eq, hfound.concat_eq,
    hfound.rest_eq⟩
  · rw [h, hfound.before_eq, hfound.cons_eq]
  · rw [hfound.source_eq, List.append_assoc]
    rfl
  · rw [h, hfound.concat_eq, hfound.rest_eq, List.append_assoc]
    rfl

/-- At such a character the source is split, and so is what it becomes. This is
`exists_isCut` without the cut behind the character. -/
theorem exists_append_of_blankComments {source front back : List Char} {c : Char} (hspace : c ≠ ' ')
    (hline : c ≠ '\n') (h : blankComments source = front ++ c :: back) :
    ∃ before rest, source = before ++ c :: rest ∧ blankComments before = front
      ∧ blankComments (c :: rest) = c :: back ∧ blankComments rest = back := by
  obtain ⟨before, rest, hcut, -, rfl, -, rfl⟩ := exists_isCut hspace hline h
  exact ⟨before, rest, hcut.source_eq, rfl,
    List.append_cancel_left (hcut.blanked.symm.trans h), rfl⟩

/-- Blanking drops no character without putting another in its place, so nothing comes
of nothing. -/
theorem eq_nil_of_blankComments {source : List Char} (h : blankComments source = []) :
    source = [] := by
  unfold blankComments at h
  split at h
  · cases h
  · cases h
  · rfl

/-- Where a word stands in front of a blanked text, it stands in front of the source.
Blanks inside the word could come from a comment, so it must not have any. -/
theorem exists_append_of_word {source word back : List Char}
    (hword : ∀ c ∈ word, c ≠ ' ' ∧ c ≠ '\n') (h : blankComments source = word ++ back) :
    ∃ rest, source = word ++ rest ∧ blankComments rest = back := by
  induction word generalizing source with
  | nil => exact ⟨source, rfl, h⟩
  | cons c word ih =>
    obtain ⟨⟨hspace, hline⟩, hword⟩ := List.forall_mem_cons.1 hword
    have hfront : blankComments source = [] ++ c :: (word ++ back) := h
    obtain ⟨before, rest, rfl, hbefore, -, hrest⟩ :=
      exists_append_of_blankComments hspace hline hfront
    obtain ⟨more, rfl, hmore⟩ := ih hword hrest
    exact ⟨more, by rw [eq_nil_of_blankComments hbefore]; rfl, hmore⟩

/-! ### Lines and columns -/

/-- A line break is kept, and any other character leaves none. Spaces are counted by
the byte, but there are no line breaks among them. -/
theorem count_blankOut (c : Char) : (blankOut c).count '\n' = [c].count '\n' := by
  unfold blankOut
  split
  · rename_i h
    rw [beq_iff_eq.1 h]
  · rename_i h
    rw [List.count_eq_zero_of_not_mem, List.count_eq_zero_of_not_mem]
    · exact fun hmem => h (beq_iff_eq.2 (List.mem_singleton.1 hmem).symm)
    · exact fun hmem => absurd (List.eq_of_mem_replicate hmem) (by decide)

/-- Blanking keeps the line breaks. Nothing has to be known about where comments begin
and end, as their characters keep them as well. -/
theorem count_blankComments (text : List Char) :
    (blankComments text).count '\n' = text.count '\n' := by
  refine blankComments.induct
    (fun text => (blankComments text).count '\n' = text.count '\n')
    (fun text => (blankToClose text).count '\n' = text.count '\n')
    ?_ ?_ rfl ?_ ?_ rfl text
  · intro text ih
    simpa [blankComments] using ih
  · intro c text hopen ih
    rw [blankComments.eq_2 c text hopen, List.count_cons, List.count_cons, ih]
  · intro text ih
    simpa [blankToClose] using ih
  · intro c text hclose ih
    rw [blankToClose.eq_2 c text hclose, List.count_append, ih, count_blankOut,
      ← List.count_append]
    rfl

/-- A place in a blanked text is on the same line of the source. This holds for all
comments, however wide their characters are. -/
theorem line_after_blankComments (before : List Char) :
    (Position.after (blankComments before)).line = (Position.after before).line := by
  simp only [Position.after, count_blankComments]

mutual

/-- The characters of a text that stand in comments, the marks among them. -/
def inComments : List Char → List Char
  | '/' :: '*' :: rest => '/' :: '*' :: inCommentsToClose rest
  | _ :: rest => inComments rest
  | [] => []

/-- Those of a text that starts inside a comment. -/
def inCommentsToClose : List Char → List Char
  | '*' :: '/' :: rest => '*' :: '/' :: inComments rest
  | c :: rest => c :: inCommentsToClose rest
  | [] => []

end

/-- If no character in a comment is wider than a byte, line breaks stay where they
are. Then each character has one character in its place; a wider one would have more. -/
theorem map_blankComments {text : List Char} (h : ∀ c ∈ inComments text, c.utf8Size = 1) :
    (blankComments text).map (· == '\n') = text.map (· == '\n') := by
  revert h
  refine blankComments.induct
    (fun text => (∀ c ∈ inComments text, c.utf8Size = 1) →
      (blankComments text).map (· == '\n') = text.map (· == '\n'))
    (fun text => (∀ c ∈ inCommentsToClose text, c.utf8Size = 1) →
      (blankToClose text).map (· == '\n') = text.map (· == '\n'))
    ?_ ?_ (fun _ => rfl) ?_ ?_ (fun _ => rfl) text
  · intro text ih h
    simp only [inComments, List.forall_mem_cons] at h
    simpa [blankComments] using ih h.2.2
  · intro c text hopen ih h
    rw [inComments.eq_2 c text hopen] at h
    rw [blankComments.eq_2 c text hopen, List.map_cons, List.map_cons, ih h]
  · intro text ih h
    simp only [inCommentsToClose, List.forall_mem_cons] at h
    simpa [blankToClose] using ih h.2.2
  · intro c text hclose ih h
    rw [inCommentsToClose.eq_2 c text hclose, List.forall_mem_cons] at h
    -- One byte makes one space, and a line break stays one.
    have hblank : (blankOut c).map (· == '\n') = [c == '\n'] := by
      unfold blankOut
      split
      · rename_i hline
        simp [beq_iff_eq.1 hline]
      · rename_i hline
        simp [h.1, hline]
    rw [blankToClose.eq_2 c text hclose, List.map_append, hblank, ih h.2]
    rfl

/-- A position depends on nothing but where the line breaks are: it counts them, and
the characters behind the last of them. -/
theorem Position.after_congr {a b : List Char} (h : a.map (· == '\n') = b.map (· == '\n')) :
    after a = after b := by
  have hcount : ∀ l : List Char, l.count '\n' = (l.map (· == '\n')).count true := by
    intro l
    rw [List.count_eq_countP, List.count_eq_countP, List.countP_map]
    exact List.countP_congr fun c _ => by simp
  have hcolumn : ∀ l : List Char, (l.reverse.takeWhile (· != '\n')).length
      = ((l.map (· == '\n')).reverse.takeWhile (!·)).length := by
    intro l
    rw [← List.map_reverse, List.takeWhile_map, List.length_map]
    rfl
  rw [after, after, hcount a, hcount b, hcolumn a, hcolumn b, h]

/-- A place in a blanked text is the same place in the source if no character inside a
comment before it is wider than a byte. The wide characters outside of comments do no
harm. -/
theorem after_blankComments {before : List Char} (h : ∀ c ∈ inComments before, c.utf8Size = 1) :
    Position.after (blankComments before) = Position.after before :=
  Position.after_congr (map_blankComments h)

/-- The position is that of the place behind `before`, as the blanked text counts it. -/
structure Stands (source : List Char) (position : Position) (before rest : List Char) : Prop where
  cut : IsCut source before rest
  position_eq : position = .after (blankComments before)
  line_eq : position.line = (Position.after before).line
  /-- With nothing but narrow characters in the comments before it, the column is right, too. -/
  eq_after : (∀ c ∈ inComments before, c.utf8Size = 1) → position = .after before

/-- Where a source can be cut, the place in the blanked text stands for the cut: on
the same line in any case, and at the same column if the comments before it are
narrow. -/
theorem IsCut.stands {source before rest : List Char} (h : IsCut source before rest) :
    Stands source (.after (blankComments before)) before rest :=
  ⟨h, rfl, line_after_blankComments before, after_blankComments⟩

end BlockStyles.Text
