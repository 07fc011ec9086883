import BlockStyles.Proofs.Stylesheet.Order
import BlockStyles.Proofs.Stylesheet.Written
import BlockStyles.Proofs.Text.Quotes

/-!
# `BlockStyles.Proofs.Stylesheet.Spelled`: what becomes of the text of a stylesheet

A source that is accepted spells a stylesheet: all of it is selectors, names, marks, values and
what stands between them, in the order of the statements. This is said of the source itself, with
its comments, and not of the blanked text that is read. A value is what its region of the source
leaves when comments are blanked and white space is trimmed off. Quotes in a region protect marks,
but not from being taken for the beginning of a comment: a quoted text is in the value as it is
written if and only if there is no `/*` in it.

* `exists_gap`, `exists_name`, `exists_region`: from a piece of the blanked text to one of the
  source.
* `keepsQuotes_splitImportant`: which quoted texts of a region are in its value.
* `Rule.exists_isSpelled_of_read`, `exists_itemsSpelled`: rules and items spell what is read.
* `Stylesheet.ofSource_spelled`: so does a source.
* `Stylesheet.ofSource_spelled_marked`: a value that is not what has been written.
-/

set_option autoImplicit false

namespace BlockStyles

open BlockStyles.Text
open BlockStyles.Selector (Chain readList)

variable {source text left : List Char}

/-! ### Spelling -/

/-- White space and comments, and nothing else. Blanking leaves white space of either. -/
def IsGap (text : List Char) : Prop :=
  ∀ c ∈ blankComments text, isSpace c

/-- The text is a value and what stands around it: it closes its quotes and parentheses, and has no
mark outside them that would end a value. -/
def IsRegion (text : List Char) : Prop :=
  RawValue.Sealed 0 (blankComments text)

/-- The text spells the declaration, without the semicolon behind it. In front of the
property and of the colon there may be gaps, and the region behind the colon is what
the value comes from. -/
inductive Declaration.IsSpelled (declaration : Declaration) : List Char → Prop where
  | intro {gap gap' region : List Char} (hgap : IsGap gap)
      (hproperty : isIdentifier declaration.property) (hgap' : IsGap gap')
      (hregion : IsRegion region)
      (hvalue : splitImportant (trim (blankComments region))
        = (declaration.value.toList, declaration.important))
      (hquotes : KeepsQuotes region declaration.value.toList) :
      IsSpelled declaration (gap ++ (declaration.property.toList ++ (gap' ++ ':' :: region)))

/-- The text spells the at-rule, without the semicolon behind it. -/
inductive AtRule.IsSpelled (atRule : AtRule) : List Char → Prop where
  | intro {gap region : List Char} (hgap : IsGap gap) (hname : isIdentifier atRule.name)
      (hregion : IsRegion region) (hprelude : trim (blankComments region) = atRule.prelude.toList)
      (hquotes : KeepsQuotes region atRule.prelude.toList) :
      IsSpelled atRule (gap ++ '@' :: (atRule.name.toList ++ region))

/-- The text spells the selectors in front of an opening brace: they are what is read
of it, up to blanks. The brace is needed to say this, since reading goes on to where
nothing can be a selector. -/
def SelectorsSpelled (selectors : List Chain) (text : List Char) : Prop :=
  ∃ blanks body, (∀ c ∈ blanks, isBlank c)
    ∧ readList (blankComments text ++ '\x7b' :: body) = .ok (selectors, blanks ++ '\x7b' :: body)

mutual

/-- The text spells the rule: its selectors and, between braces, its items. The
position is left open, since the same text spells the rule wherever it stands. -/
inductive Rule.IsSpelled : Rule → List Char → Prop where
  | intro {selectors : List Chain} {items : List (Item Rule)} {position : Position}
      {front body : List Char} (hselectors : SelectorsSpelled selectors front)
      (hitems : ItemsSpelled items body) :
      Rule.IsSpelled ⟨selectors, items, position⟩ (front ++ '\x7b' :: (body ++ ['\x7d']))

/-- The text spells the items. A declaration has a semicolon behind it, unless it is the last. -/
inductive ItemsSpelled : List (Item Rule) → List Char → Prop where
  | nil {gap : List Char} (h : IsGap gap) : ItemsSpelled [] gap
  | last {declaration : Declaration} {text : List Char} (h : declaration.IsSpelled text) :
      ItemsSpelled [.declaration declaration] text
  | declaration {declaration : Declaration} {items : List (Item Rule)} {text more : List Char}
      (h : declaration.IsSpelled text) (hmore : ItemsSpelled items more) :
      ItemsSpelled (.declaration declaration :: items) (text ++ ';' :: more)
  | rule {rule : Rule} {items : List (Item Rule)} {text more : List Char}
      (h : rule.IsSpelled text) (hmore : ItemsSpelled items more) :
      ItemsSpelled (.rule rule :: items) (text ++ more)

end

/-- The text spells the at-rules and rules, which may be mixed. -/
inductive Stylesheet.IsSpelled : Stylesheet → List Char → Prop where
  | nil {gap : List Char} (h : IsGap gap) : IsSpelled ⟨[], []⟩ gap
  | atRule {atRule : AtRule} {sheet : Stylesheet} {text more : List Char}
      (h : atRule.IsSpelled text) (hmore : IsSpelled sheet more) :
      IsSpelled { sheet with atRules := atRule :: sheet.atRules } (text ++ ';' :: more)
  | rule {rule : Rule} {sheet : Stylesheet} {gap text more : List Char} (hgap : IsGap gap)
      (h : rule.IsSpelled text) (hmore : IsSpelled sheet more) :
      IsSpelled { sheet with rules := rule :: sheet.rules } (gap ++ (text ++ more))

/-! ### Pieces of a source -/

/-- What is skipped in front of a blanked text is a gap in the source. It is stated
for both notions of what is skipped, that in front of statements and the narrower one
everywhere else. -/
theorem exists_gap {blank : Char → Bool} {c : Char} {back : List Char}
    (hwide : ∀ d, isBlank d → blank d) (hnarrow : ∀ d, blank d → isSpace d)
    (h : (blankComments text).dropWhile blank = c :: back) :
    ∃ gap rest, text = gap ++ c :: rest ∧ IsGap gap ∧ blankComments (c :: rest) = c :: back
      ∧ blankComments rest = back := by
  -- What is skipped ends at a character that is not skipped, and so at no blank.
  have hhead : blank c = false := by
    have hhead := List.head?_dropWhile_not blank (blankComments text)
    rwa [h] at hhead
  have hc : isBlank c = false := by
    rw [Bool.eq_false_iff]
    intro hblank
    rw [hwide c hblank] at hhead
    cases hhead
  -- The blanked text is cut there, and with it the source.
  have hsplit := List.takeWhile_append_dropWhile (p := blank) (l := blankComments text)
  rw [h] at hsplit
  obtain ⟨gap, rest, htext, hgap, hcons, hrest⟩ :=
    exists_append_of_blankComments (ne_blank hc).1 (ne_blank hc).2 hsplit.symm
  refine ⟨gap, rest, htext, fun d hd => hnarrow d ?_, hcons, hrest⟩
  rw [hgap] at hd
  exact List.all_eq_true.1 List.all_takeWhile d hd

/-- In particular this holds of blanks. -/
theorem exists_gap_of_skipBlanks {c : Char} {back : List Char}
    (h : skipBlanks (blankComments text) = c :: back) :
    ∃ gap rest, text = gap ++ c :: rest ∧ IsGap gap ∧ blankComments (c :: rest) = c :: back
      ∧ blankComments rest = back :=
  exists_gap (fun _ => id) (fun _ => isSpace_of_isBlank) h

/-- A name in front of a blanked text is in front of the source. Blanking writes
nothing that could be in a name, so none of its characters comes from a comment. -/
theorem exists_name {name : String} (h : Identifier.read (blankComments text) = .ok (name, left)) :
    isIdentifier name ∧ ∃ rest, text = name.toList ++ rest ∧ blankComments rest = left := by
  obtain ⟨htext, hname⟩ := Identifier.read_eq_ok h
  have hword : ∀ c ∈ name.toList, c ≠ ' ' ∧ c ≠ '\n' := by
    intro c hc
    have hspace := isSpace_of_mem_identifier hname c hc
    constructor <;> rintro rfl <;> exact absurd hspace (by decide)
  exact ⟨hname, exists_append_of_word hword htext⟩

/-- What is read as a value is what a region of the source leaves, up to the mark that
ends it. The blanks skipped in front of the value belong to the region, which is why
both sides are trimmed. -/
theorem exists_region {raw : List Char} {mark : Char}
    (h : RawValue.read (skipBlanks (blankComments text)) = .ok (raw, mark :: left)) :
    ∃ region rest, text = region ++ mark :: rest ∧ blankComments rest = left
      ∧ IsRegion region ∧ trim (blankComments region) = trim raw := by
  obtain ⟨blanks, hblanks, hblank⟩ := exists_eq_append_skipBlanks (blankComments text)
  have hne := ne_blank (RawValue.isBlank_of_isTerminator (RawValue.isTerminator_of_read h mark rfl))
  have htext : blankComments text = (blanks ++ raw) ++ mark :: left := by
    rw [hblanks, (RawValue.read_eq_ok h).1, List.append_assoc]
  obtain ⟨region, rest, hregion, hleaves, -, hrest⟩ :=
    exists_append_of_blankComments hne.1 hne.2 htext
  refine ⟨region, rest, hregion, hrest, ?_, ?_⟩
  · rw [IsRegion, hleaves]
    refine .append (.of_plain fun c hc => ?_) (RawValue.sealed_of_read h)
    have hc := hblank c hc
    simp only [isBlank, Bool.or_eq_true, beq_iff_eq] at hc
    rcases hc with ((rfl | rfl) | rfl) | rfl <;> decide
  · rw [hleaves, trim_append fun c hc => isSpace_of_isBlank (hblank c hc)]

/-! ### Declarations and at-rules -/

/-- A value without its mark of importance is the front of the value. Only white space
and the mark are taken off, both at the end. -/
theorem prefix_splitImportant (value : List Char) : (splitImportant value).1 <+: value := by
  unfold splitImportant
  split
  · exact (prefix_trimEnd _).trans (List.take_prefix _ _)
  · exact List.prefix_rfl

/-- The mark of importance has no quotes, so it is not split off a quoted text. And a
quoted text does not end with white space, so trimming takes nothing off it. -/
theorem infix_splitImportant {region quoted value : List Char} (h : IsQuotedIn region quoted)
    (hvalue : quoted <:+: value) : quoted <:+: (splitImportant value).1 := by
  unfold splitImportant
  split
  · rename_i hmark
    obtain ⟨front, rfl⟩ := List.isSuffixOf_iff_suffix.1 hmark
    rw [List.length_append, Nat.add_sub_cancel, List.take_left]
    refine infix_trimEnd h.isSpace_getLast ?_
    obtain ⟨before, after, heq⟩ := hvalue
    -- The quoted text lies ahead of the mark, or goes into it.
    rcases List.append_eq_append_iff.1 heq with ⟨more, rfl, -⟩ | ⟨more, hquoted, hmore⟩
    · exact ⟨before, more, rfl⟩
    · rcases List.eq_nil_or_concat more with rfl | ⟨start, c, rfl⟩
      · rw [List.append_nil] at hquoted
        exact ⟨before, [], by rw [hquoted, List.append_nil]⟩
      -- The last quote would be in the mark.
      · obtain ⟨quote, inner, hquote, rfl⟩ := h.exists_eq
        have hlast := congrArg List.getLast? hquoted
        rw [← List.cons_append, ← List.append_assoc, List.concat_eq_append, ← List.append_assoc,
          List.getLast?_concat, List.getLast?_concat] at hlast
        cases hlast
        have hmem : c ∈ importantMark := by
          rw [hmore, List.concat_eq_append]
          simp
        have hnone : ∀ d ∈ importantMark, isQuote d = false := by
          simp [importantMark, isQuote]
        rw [hnone c hmem] at hquote
        cases hquote
  · exact hvalue

/-- What has been said of a trimmed value holds without the mark of importance as
well: the quoted texts are in it that have no `/*`, and no others. -/
theorem keepsQuotes_splitImportant (region : List Char) :
    KeepsQuotes region (splitImportant (trim (blankComments region))).1 :=
  fun quoted h => ⟨fun hkept => (keepsQuotes_trim region quoted h).1
      (hkept.trans (prefix_splitImportant _).isInfix),
    fun hplain => infix_splitImportant h ((keepsQuotes_trim region quoted h).2 hplain)⟩

/-- A declaration that is read is spelled by the source up to the mark that ends its
value, if there is one. The pieces are found one after the other, each by what
blanking leaves of the source. -/
theorem Declaration.exists_isSpelled_of_read? {declaration : Declaration}
    (h : read? source (blankComments text) = some (declaration, left)) :
    left = [] ∨ ∃ own mark rest, text = own ++ mark :: rest ∧ declaration.IsSpelled own
      ∧ RawValue.isTerminator mark
      ∧ left = if mark = ';' then blankComments rest else mark :: blankComments rest := by
  obtain ⟨property, afterProperty, afterColon, raw, afterValue, hproperty, hcolon, hvalue, -, rfl,
    hleft⟩ := read?_eq_some_iff.1 h
  cases afterValue with
  | nil => exact .inl hleft
  | cons mark afterValue =>
    have hmark := RawValue.isTerminator_of_read hvalue mark rfl
    -- The property begins behind the blanks, so there is a character to find.
    obtain ⟨c, tail, hstart⟩ : ∃ c tail, skipBlanks (blankComments text) = c :: tail := by
      obtain ⟨hstart, hname⟩ := Identifier.read_eq_ok hproperty
      obtain ⟨c, tail, hc, -⟩ := exists_cons_of_isIdentifier hname
      exact ⟨c, _, by rw [hstart, hc]; rfl⟩
    obtain ⟨gap, named, rfl, hgap, hnamed, -⟩ := exists_gap_of_skipBlanks hstart
    rw [hstart, ← hnamed] at hproperty
    obtain ⟨hname, behind, hbehind, rfl⟩ := exists_name hproperty
    obtain ⟨gap', valued, rfl, hgap', -, rfl⟩ := exists_gap_of_skipBlanks hcolon
    obtain ⟨region, rest, rfl, rfl, hregion, htrim⟩ := exists_region hvalue
    refine .inr ⟨gap ++ (property.toList ++ (gap' ++ ':' :: region)), mark, rest, ?_, ?_, hmark, ?_⟩
    · rw [hbehind]
      simp
    · refine .intro hgap hname hgap' hregion ?_ ?_
      · rw [htrim, String.toList_ofList]
      · rw [← htrim, String.toList_ofList]
        exact keepsQuotes_splitImportant region
    · rw [hleft, behindValue_cons hmark]

/-- An at-rule that is read behind its sign is spelled by the source up to its
semicolon. The gap in front of the sign has been found already, and is put to the
text. -/
theorem AtRule.exists_isSpelled_of_read {atRule : AtRule} {start gap : List Char} (hgap : IsGap gap)
    (h : read source start (blankComments text) = .ok (atRule, left)) :
    ∃ own rest, gap ++ '@' :: text = own ++ ';' :: rest ∧ atRule.IsSpelled own
      ∧ blankComments rest = left := by
  obtain ⟨name, afterName, raw, hread, hvalue, rfl⟩ := read_eq_ok_iff.1 h
  obtain ⟨hname, behind, rfl, rfl⟩ := exists_name hread
  obtain ⟨region, rest, rfl, rfl, hregion, htrim⟩ := exists_region hvalue
  refine ⟨gap ++ '@' :: (name.toList ++ region), rest, by simp, ?_, rfl⟩
  refine .intro hgap hname hregion ?_ ?_
  · rw [htrim, String.toList_ofList]
  · rw [← htrim, String.toList_ofList]
    exact keepsQuotes_trim region

/-! ### Rules -/

/-- Selectors that are read up to an opening brace are spelled by the source up to
there. What is in front of the brace may have comments between selectors and in them. -/
theorem exists_selectorsSpelled {selectors : List Chain} {afterSelectors body : List Char}
    (hlist : readList (skipBlanks (blankComments text)) = .ok (selectors, afterSelectors))
    (hopen : skipBlanks afterSelectors = '\x7b' :: body) :
    ∃ front rest, text = front ++ '\x7b' :: rest ∧ SelectorsSpelled selectors front
      ∧ blankComments rest = body := by
  obtain ⟨start, hstart⟩ := (Selector.readList_shorter hlist).1
  obtain ⟨skipped, hskipped, -⟩ := exists_eq_append_skipBlanks (blankComments text)
  obtain ⟨blanks, hblanks, hblank⟩ := exists_eq_append_skipBlanks afterSelectors
  rw [hopen] at hblanks
  have htext : blankComments text = (skipped ++ (start ++ blanks)) ++ '\x7b' :: body := by
    rw [hskipped, ← hstart, hblanks]
    simp
  obtain ⟨front, rest, hfront, hleaves, -, hrest⟩ :=
    exists_append_of_blankComments (by decide) (by decide) htext
  refine ⟨front, rest, hfront, ⟨blanks, body, hblank, ?_⟩, hrest⟩
  -- Blanks in front are skipped by the reader itself, so they may stay.
  have hagain : readList (skipBlanks (blankComments text)) = readList (blankComments text) := by
    rw [readList, skipBlanks_eq_self (isBlank_head_skipBlanks _), ← readList]
  rw [hleaves, ← htext, ← hagain, hlist, hblanks]

mutual

/-- A rule that is read is spelled by the front of the source. The recursion goes over
the blanked text that is left, as reading does. -/
theorem Rule.exists_isSpelled_of_read {text left : List Char} {rule : Rule}
    (h : Rule.read source (blankComments text) = .ok (rule, left)) :
    ∃ own rest, text = own ++ rest ∧ rule.IsSpelled own ∧ blankComments rest = left := by
  obtain ⟨selectors, afterSelectors, body, hlist, hopen, hclose, rfl⟩ := Rule.read_eq_ok_iff.1 h
  have hlength : body.length < (blankComments text).length :=
    Nat.lt_of_lt_of_le (Rule.body_shorter hlist hopen).2 (skipBlanks_suffix _).length_le
  obtain ⟨front, behind, htext, hselectors, rfl⟩ := exists_selectorsSpelled hlist hopen
  obtain ⟨inner, rest, rfl, hitems, hrest⟩ := exists_itemsSpelled hclose
  exact ⟨front ++ '\x7b' :: (inner ++ ['\x7d']), rest, by rw [htext]; simp,
    .intro hselectors hitems, hrest⟩
termination_by ((blankComments text).length, 0)

/-- Items that are read up to a closing brace are spelled by the source up to there.
It is known that the brace is found, which rules out a value that goes on to the end
of the text. -/
theorem exists_itemsSpelled {text left : List Char}
    (h : skipBlanks (readItems source (blankComments text)).2 = '\x7d' :: left) :
    ∃ own rest, text = own ++ '\x7d' :: rest
      ∧ ItemsSpelled (readItems source (blankComments text)).1 own ∧ blankComments rest = left := by
  cases hrule : Rule.read source (blankComments text) with
  | ok result =>
    obtain ⟨rule, behind⟩ := result
    have hshort := (Rule.read_shorter hrule).2
    obtain ⟨own, more, htext, hspelled, rfl⟩ := Rule.exists_isSpelled_of_read hrule
    rw [readItems_rule hrule] at h ⊢
    obtain ⟨others, rest, rfl, hitems, hrest⟩ := exists_itemsSpelled h
    exact ⟨own ++ others, rest, by rw [htext, List.append_assoc], .rule hspelled hitems, hrest⟩
  | error stop =>
    cases hdeclaration : Declaration.read? source (blankComments text) with
    | none =>
      rw [readItems_end hrule hdeclaration] at h ⊢
      obtain ⟨gap, rest, htext, hgap, -, hrest⟩ := exists_gap_of_skipBlanks h
      exact ⟨gap, rest, htext, .nil hgap, hrest⟩
    | some result =>
      obtain ⟨declaration, behind⟩ := result
      have hshort := (Declaration.read?_shorter hdeclaration).2
      rw [readItems_declaration hrule hdeclaration] at h ⊢
      rcases Declaration.exists_isSpelled_of_read? hdeclaration with
        rfl | ⟨own, mark, more, htext, hspelled, hmark, rfl⟩
      -- A value that goes on to the end leaves no closing brace.
      · have hend := List.suffix_nil.1 (readItems_suffix source [])
        rw [hend] at h
        cases h
      · split at h
        · rename_i hsemicolon
          rw [if_pos hsemicolon] at hshort ⊢
          obtain ⟨others, rest, rfl, hitems, hrest⟩ := exists_itemsSpelled h
          exact ⟨own ++ ';' :: others, rest, by rw [htext, hsemicolon]; simp,
            .declaration hspelled hitems, hrest⟩
        -- Without a semicolon the declaration is the last item.
        · rename_i hother
          rw [if_neg hother]
          have hskip : skipBlanks (mark :: blankComments more) = mark :: blankComments more :=
            skipBlanks_eq_self fun c hc =>
              Option.mem_some.1 hc ▸ RawValue.isBlank_of_isTerminator hmark
          have hstart : Selector.startsSimple mark = false := by
            simp only [RawValue.isTerminator, Bool.or_eq_true, beq_iff_eq] at hmark
            rcases hmark with (rfl | rfl) | rfl <;> decide
          rw [readItems_of_mark hstart hskip] at h ⊢
          rw [hskip] at h
          cases h
          exact ⟨own, more, htext, .last hspelled, rfl⟩
termination_by ((blankComments text).length, 1)

end

/-! ### Stylesheets -/

namespace Stylesheet

/-- Statements that are read are spelled by the source. The induction is on the
reading of the blanked text, with any source that leaves it. -/
theorem isSpelled_of_readStatements {sheet : Stylesheet}
    (h : readStatements source (blankComments text) = .ok sheet) : sheet.IsSpelled text := by
  generalize hleft : blankComments text = left at h
  fun_induction readStatements source left generalizing text sheet with
  | case1 left hend =>
    cases h
    subst hleft
    exact .nil (List.dropWhile_eq_nil_iff.1 hend)
  | case2 => cases h
  -- In front of the at-rule there is a gap, which is put to its text.
  | case3 left body hstart atRule behind hread _ ih =>
    subst hleft
    obtain ⟨gap, rest, rfl, hgap, -, rfl⟩ :=
      exists_gap (fun _ => isSpace_of_isBlank) (fun _ => id) hstart
    obtain ⟨own, more, htext, hspelled, hmore⟩ := AtRule.exists_isSpelled_of_read hgap hread
    obtain ⟨others, hothers, rfl⟩ := map_eq_ok.1 h
    rw [htext]
    exact .atRule hspelled (ih hmore hothers)
  | case4 => cases h
  -- In front of a rule the gap stands by itself, as the selectors begin behind it.
  | case5 left rule behind hne _ hread _ ih =>
    subst hleft
    obtain ⟨c, back, hstart⟩ := List.exists_cons_of_ne_nil hne
    obtain ⟨gap, rest, rfl, hgap, hcons, -⟩ :=
      exists_gap (fun _ => isSpace_of_isBlank) (fun _ => id) hstart
    rw [hstart, ← hcons] at hread
    obtain ⟨own, more, htext, hspelled, hmore⟩ := Rule.exists_isSpelled_of_read hread
    obtain ⟨others, hothers, rfl⟩ := map_eq_ok.1 h
    rw [htext]
    exact .rule hgap hspelled (ih hmore hothers)

/-- A source that is accepted spells a stylesheet, which is flattened then. Each of
its values is what the region leaves that stands in its place, and the quoted texts of
the region are in it as they are written, except those with a `/*` in them. Flattening
keeps all its declarations, so this speaks of the values of the sheet. -/
theorem ofSource_spelled {source : String} {sheet : Stylesheet} (h : ofSource source = .ok sheet) :
    ∃ nested : Stylesheet, nested.IsSpelled source.toList ∧ sheet = nested.flatten
      ∧ nested.KeptBy sheet.rules := by
  obtain ⟨nested, hnested, rfl⟩ := map_eq_ok.1 h
  exact ⟨nested, isSpelled_of_readStatements hnested, rfl,
    keptBy_flatten (isShaped_of_readStatements List.suffix_rfl hnested)⟩

/-- A source is accepted if blanking its comments makes a written stylesheet of it.
This is used for the examples, whose sources are not written ones themselves. -/
theorem exists_ofSource_of_blankComments (source : String) {sheet : Stylesheet}
    (h : sheet.IsWritable) (hblanked : blankComments source.toList = sheet.written) :
    ∃ read, ofSource source = .ok read ∧ read.unplaced = sheet.flatten.unplaced := by
  obtain ⟨read, hread, hsame⟩ := readStatements_written sheet.written h h.trimStart_written
  refine ⟨read.flatten, ?_, by rw [unplaced_flatten, unplaced_flatten, hsame]⟩
  rw [ofSource, hblanked, hread]
  rfl

/-- Values do not depend on positions. So they can be read off a sheet whose positions
have been forgotten. -/
theorem values_unplaced (sheet : Stylesheet) :
    sheet.unplaced.rules.flatMap (fun rule => rule.declarations.map Declaration.value)
      = sheet.rules.flatMap fun rule => rule.declarations.map Declaration.value := by
  have hrule : ∀ rule : Rule,
      rule.unplaced.declarations = rule.declarations.map Declaration.unplaced := by
    rintro ⟨selectors, items, position⟩
    have hitem : ∀ item : Item Rule,
        (unplacedItem item).declaration? = item.declaration?.map Declaration.unplaced := by
      rintro (_ | ⟨_, _, _⟩) <;> rfl
    simp only [Rule.unplaced, Rule.declarations, unplacedItems_eq_map, List.filterMap_map,
      List.map_filterMap, Function.comp_def, hitem]
  have hvalue : Declaration.value ∘ Declaration.unplaced = Declaration.value := rfl
  simp [unplaced, List.flatMap_map, hrule, hvalue]

/-- A rule for a class with one declaration can be written. That its selector can be
read is shown by a text that it is read from. -/
theorem isWritable_rule {name property value : String}
    (hname : ∃ text rest, readList text = .ok ([⟨[⟨[.cls name], .none⟩]⟩], rest))
    (hproperty : isIdentifier property) (hvalue : IsValue value.toList) :
    Rule.IsWritable ⟨[⟨[⟨[.cls name], .none⟩]⟩],
      [.declaration ⟨property, value, false, .unknown⟩], .unknown⟩ := by
  refine .intro hname ?_ (fun d hd => ?_) (fun r hr => ?_)
  · simp [Chain.HasPlainValues, Selector.Compound.HasPlainValues, Selector.Simple.HasPlainValue]
  · cases List.mem_singleton.1 hd
    exact ⟨hproperty, hvalue⟩
  · cases List.mem_singleton.1 hr

/-- A comment stands between two quoted texts, and marks in quotes end nothing. The
comment is blanked, and the blanks become part of the value. -/
theorem ofSource_spelled_commented :
    let source := "@block-reference b from './b;c.css';\n"
      ++ ".a \x7b\ncontent: '\x7d;' /* \"x\" */ \"y\";\n\x7d\n"
    ∃ sheet nested : Stylesheet, ofSource source = .ok sheet ∧ nested.IsSpelled source.toList
      ∧ sheet = nested.flatten ∧ nested.KeptBy sheet.rules := by
  intro source
  let rule : Rule := ⟨[⟨[⟨[.cls "a"], .none⟩]⟩],
    [.declaration ⟨"content", "'\x7d;'           \"y\"", false, .unknown⟩], .unknown⟩
  let sheet : Stylesheet := ⟨[⟨"block-reference", "b from './b;c.css'", .unknown⟩], [rule]⟩
  have hrule : rule.IsWritable :=
    isWritable_rule ⟨".a".toList, [], by decide +kernel⟩ (by decide +kernel) (by decide +kernel)
  -- The sheet that is meant, with blanks in place of the comment.
  have hsheet : sheet.IsWritable := by
    refine ⟨fun a ha => ?_, fun r hr => List.mem_singleton.1 hr ▸ hrule⟩
    cases List.mem_singleton.1 ha
    exact ⟨by decide +kernel, by decide +kernel⟩
  obtain ⟨read, hread, -⟩ := exists_ofSource_of_blankComments source hsheet (by decide +kernel)
  obtain ⟨nested, hnested⟩ := ofSource_spelled hread
  exact ⟨read, nested, hread, hnested⟩

/-- The marks of a comment between quotes are taken for a comment, and what stands
between them is blanked. Comments are blanked before the text is read, and blanking
does not know of quotes. -/
theorem ofSource_spelled_marked :
    ∃ sheet, ofSource ".a \x7b\ncontent: \"/*x*/\";\n\x7d\n" = .ok sheet
      ∧ sheet.rules.flatMap (fun rule => rule.declarations.map Declaration.value) = ["\"     \""]
      ∧ ¬ "\"/*x*/\"".toList <:+: "\"     \"".toList := by
  let rule : Rule := ⟨[⟨[⟨[.cls "a"], .none⟩]⟩],
    [.declaration ⟨"content", "\"     \"", false, .unknown⟩], .unknown⟩
  let sheet : Stylesheet := ⟨[], [rule]⟩
  have hrule : rule.IsWritable :=
    isWritable_rule ⟨".a".toList, [], by decide +kernel⟩ (by decide +kernel) (by decide +kernel)
  have hsheet : sheet.IsWritable :=
    ⟨fun a ha => (by cases ha), fun r hr => List.mem_singleton.1 hr ▸ hrule⟩
  obtain ⟨read, hread, hsame⟩ := exists_ofSource_of_blankComments
    ".a \x7b\ncontent: \"/*x*/\";\n\x7d\n" hsheet (by decide +kernel)
  refine ⟨read, hread, ?_, by decide +kernel⟩
  rw [← values_unplaced, hsame, values_unplaced]
  rfl

end Stylesheet

end BlockStyles
