import BlockStyles.Proofs.Text.Blanks
import BlockStyles.Proofs.Text.Layout
import BlockStyles.Text.Quoted

/-!
# `BlockStyles.Proofs.Text.Quotes`: quoted text in a blanked text

Blanking takes no notice of quotes. A text in quotes that begins outside comments is left as it is
if there is no `/*` in it; if there is one, a comment begins there and the text is gone. Quotes are
no white space, so a quoted text that is left is not touched by trimming.

* `keepsQuotes_trim`: the quoted texts of a region that are still in it, blanked and trimmed.
-/

set_option autoImplicit false

namespace BlockStyles.Text

/-- A text with its quotes, which begins outside comments in the region. There is no other quote
like them between the two. -/
inductive IsQuotedIn (region : List Char) : List Char → Prop where
  | intro (before : List Char) (quote : Char) (inner after : List Char) (hquote : isQuote quote)
      (hinner : quote ∉ inner) (hcut : IsCut region before (quote :: (inner ++ quote :: after))) :
      IsQuotedIn region (quote :: (inner ++ [quote]))

/-- The quoted texts of the region are in what is kept of it, except those with a `/*` in them. -/
def KeepsQuotes (region kept : List Char) : Prop :=
  ∀ quoted, IsQuotedIn region quoted → (quoted <:+: kept ↔ ¬ ['/', '*'] <:+: quoted)

variable {region quoted text : List Char}

/-- A quoted text begins and ends with its quote. -/
theorem IsQuotedIn.exists_eq (h : IsQuotedIn region quoted) :
    ∃ quote inner, isQuote quote ∧ quoted = quote :: (inner ++ [quote]) := by
  obtain ⟨_, quote, inner, _, hquote, -, -⟩ := h
  exact ⟨quote, inner, hquote, rfl⟩

/-- Quotes are no white space. So trimming stops at a quote. -/
theorem isSpace_of_isQuote {c : Char} (h : isQuote c) : isSpace c = false := by
  simp only [isQuote, Bool.or_eq_true, beq_iff_eq] at h
  rcases h with rfl | rfl <;> decide

/-- A text without `/*` is left as it is in front of others, unless it could begin
one. It could if its last character is a slash, for the star may be the first
character behind it. -/
theorem blankComments_append_of_plain (h : ¬ ['/', '*'] <:+: text)
    (hlast : ∀ c ∈ text.getLast?, c ≠ '/') (rest : List Char) :
    blankComments (text ++ rest) = text ++ blankComments rest := by
  induction text with
  | nil => rfl
  | cons c text ih =>
    have hplain : ¬ ['/', '*'] <:+: text := fun hin =>
      h (hin.trans (List.suffix_cons c text).isInfix)
    -- The first character does not open a comment, even if the rest is what stands behind
    -- it.
    have hstart : ∀ more, c = '/' → text ++ rest = '*' :: more → False := by
      rintro more rfl hstar
      cases text with
      | nil => exact hlast '/' rfl rfl
      | cons d text =>
        obtain ⟨rfl, -⟩ := List.cons.inj hstar
        exact h ⟨[], text, rfl⟩
    have hend : ∀ d ∈ text.getLast?, d ≠ '/' := fun d hd =>
      hlast d (by rw [List.getLast?_cons, hd]; rfl)
    rw [List.cons_append, blankComments.eq_2 c _ hstart, ih hplain hend, List.cons_append]

/-- A quoted text without `/*` is in the blanked region. It ends with a quote, so no
comment begins at its end either. -/
theorem IsQuotedIn.infix_blankComments (h : IsQuotedIn region quoted)
    (hplain : ¬ ['/', '*'] <:+: quoted) : quoted <:+: blankComments region := by
  obtain ⟨before, quote, inner, after, hquote, -, hcut⟩ := h
  have hlast : ∀ c ∈ (quote :: (inner ++ [quote])).getLast?, c ≠ '/' := by
    intro c hc
    rw [← List.cons_append, List.getLast?_concat] at hc
    rintro rfl
    cases hc
    exact absurd hquote (by decide)
  have hquoted : quote :: (inner ++ quote :: after) = quote :: (inner ++ [quote]) ++ after := by
    simp
  rw [hcut.blanked, hquoted, blankComments_append_of_plain hplain hlast]
  exact ⟨blankComments before, blankComments after, List.append_assoc _ _ _⟩

/-! ### Trimming -/

/-- Trimming in front does not touch what begins with something else. It stands behind
the white space, and at most what is in front of it goes. -/
theorem infix_trimStart (hhead : ∃ c ∈ quoted.head?, isSpace c = false) (h : quoted <:+: text) :
    quoted <:+: trimStart text := by
  obtain ⟨before, after, rfl⟩ := h
  obtain ⟨c, hc, hspace⟩ := hhead
  obtain ⟨tail, rfl⟩ := List.head?_eq_some_iff.1 hc
  rw [trimStart, List.append_assoc, List.dropWhile_append]
  -- Either all in front is white space, or trimming ends before.
  split
  · exact ⟨[], after, by simp [hspace]⟩
  · exact ⟨before.dropWhile isSpace, after, List.append_assoc _ _ _⟩

/-- Trimming at the end does not touch what ends with something else. This is the
statement about the front, for both texts turned around. -/
theorem infix_trimEnd (hlast : ∃ c ∈ quoted.getLast?, isSpace c = false) (h : quoted <:+: text) :
    quoted <:+: trimEnd text := by
  rw [← List.reverse_infix, trimEnd, List.reverse_reverse]
  refine infix_trimStart ?_ (List.reverse_infix.2 h)
  rwa [List.head?_reverse]

/-- A quoted text does not end with white space. -/
theorem IsQuotedIn.isSpace_getLast (h : IsQuotedIn region quoted) :
    ∃ c ∈ quoted.getLast?, isSpace c = false := by
  obtain ⟨quote, inner, hquote, rfl⟩ := h.exists_eq
  exact ⟨quote, by rw [← List.cons_append, List.getLast?_concat]; rfl, isSpace_of_isQuote hquote⟩

/-- A quoted text survives trimming, since it has a quote at both ends. -/
theorem IsQuotedIn.infix_trim (h : IsQuotedIn region quoted) (htext : quoted <:+: text) :
    quoted <:+: trim text := by
  refine infix_trimEnd h.isSpace_getLast (infix_trimStart ?_ htext)
  obtain ⟨quote, inner, hquote, rfl⟩ := h.exists_eq
  exact ⟨quote, rfl, isSpace_of_isQuote hquote⟩

/-- What is left by trimming stands in the text as it is, in one piece. What trimming
takes off is at the two ends only. -/
theorem trim_within (text : List Char) : trim text <:+: text :=
  (prefix_trimEnd _).isInfix.trans (trimStart_suffix text).isInfix

/-- A region keeps its quoted texts when comments are blanked and white space is
trimmed off, except those with a `/*` in them. Nothing has to be known about the
region; for the exception it is enough that no `/*` is left anywhere. -/
theorem keepsQuotes_trim (region : List Char) : KeepsQuotes region (trim (blankComments region)) :=
  fun _ h => ⟨fun hkept hopener => not_opener_blankComments region
      (hopener.trans (hkept.trans (trim_within _))),
    fun hplain => h.infix_trim (h.infix_blankComments hplain)⟩

end BlockStyles.Text
