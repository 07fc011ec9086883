import BlockStyles.Proofs.Folds
import BlockStyles.Proofs.Stylesheet.Names
import BlockStyles.Proofs.Text.Blanks
import BlockStyles.Proofs.Text.Values

/-!
# `BlockStyles.Proofs.Stylesheet.Steps`: one step of the readers at a time

What the readers of rules, items and statements do at the front of a text, without
the bookkeeping that makes their recursion end.

* `Declaration.read?_eq_some_iff`, `AtRule.read_eq_ok_iff`: declarations and at-rules by pieces.
* `Rule.read_eq_ok_iff`: a rule is a list of selectors and items between braces.
* `readItems_rule`, `readItems_declaration`, `readItems_end`: which item comes first.
* `Rule.read_eq_error`, `AtRule.read_eq_error`: where reading stops when it fails.
* `Stylesheet.exists_failsAt`, `Stylesheet.FailsAt.unique`: an error is about the one place where the
  reading of statements stops.
-/

set_option autoImplicit false

namespace BlockStyles

open BlockStyles.Text
open BlockStyles.Selector (Chain readList)

variable {source text rest left : List Char}

/-! ### Declarations and at-rules -/

/-- What is left behind a value: without the semicolon, if there is one. A closing
brace is left, since it belongs to the rule. -/
def Declaration.behindValue (text : List Char) : List Char :=
  match skipBlanks text with
  | ';' :: rest => rest
  | rest => rest

/-- A semicolon is taken, with the blanks in front of it. -/
theorem Declaration.behindValue_of_semicolon (h : skipBlanks text = ';' :: rest) :
    behindValue text = rest := by
  simp only [behindValue, h]

/-- Without one, only blanks are skipped. The last declaration of a body needs no
semicolon. -/
theorem Declaration.behindValue_of_ne (h : ∀ rest, skipBlanks text ≠ ';' :: rest) :
    behindValue text = skipBlanks text := by
  unfold behindValue
  split
  · rename_i hsemicolon
    exact absurd hsemicolon (h _)
  · rfl

/-- Behind a value there is a mark right away, so there are no blanks to skip. -/
theorem Declaration.behindValue_cons {mark : Char} (hmark : RawValue.isTerminator mark)
    (rest : List Char) :
    behindValue (mark :: rest) = if mark = ';' then rest else mark :: rest := by
  simp only [RawValue.isTerminator, Bool.or_eq_true, beq_iff_eq] at hmark
  rcases hmark with (rfl | rfl) | rfl <;> rfl

/-- A declaration is a property, a colon and a value that is more than a mark of
importance. All that proofs need to know of its reader is in this list of pieces, in
both directions. -/
theorem Declaration.read?_eq_some_iff {declaration : Declaration} :
    read? source text = some (declaration, rest) ↔
      ∃ property afterProperty afterColon raw afterValue,
        Identifier.read (skipBlanks text) = .ok (property, afterProperty)
          ∧ skipBlanks afterProperty = ':' :: afterColon
          ∧ RawValue.read (skipBlanks afterColon) = .ok (raw, afterValue)
          ∧ (splitImportant (trim raw)).1 ≠ []
          ∧ declaration = ⟨property, .ofList (splitImportant (trim raw)).1,
              (splitImportant (trim raw)).2, .ofSuffix source (skipBlanks text)⟩
          ∧ rest = behindValue afterValue := by
  constructor
  · intro h
    unfold read? at h
    dsimp only at h
    -- The pieces are found in the order in which they are read.
    split at h
    · cases h
    · rename_i property afterProperty hproperty
      split at h
      · rename_i afterColon hcolon
        split at h
        · cases h
        · rename_i raw afterValue hvalue
          split at h
          · cases h
          · rename_i hsome
            refine ⟨property, afterProperty, afterColon, raw, afterValue, hproperty, hcolon, hvalue,
              fun hnone => hsome (List.isEmpty_iff.2 hnone), ?_⟩
            split at h
            · rename_i hsemicolon
              cases h
              exact ⟨rfl, (behindValue_of_semicolon hsemicolon).symm⟩
            · rename_i hother
              cases h
              exact ⟨rfl, (behindValue_of_ne hother).symm⟩
      · cases h
  · rintro ⟨property, afterProperty, afterColon, raw, afterValue, hproperty, hcolon, hvalue, hsome,
      rfl, rfl⟩
    unfold read?
    simp only [hproperty, hcolon, hvalue, List.isEmpty_iff, hsome, if_false]
    split
    · rename_i hsemicolon
      rw [behindValue_of_semicolon hsemicolon]
    · rename_i hother
      rw [behindValue_of_ne hother]

/-- An at-rule is a name, a value and a semicolon. No other mark may end the value.
Blanks in front of the value and around it are left out. -/
theorem AtRule.read_eq_ok_iff {atRule : AtRule} {start : List Char} :
    read source start text = .ok (atRule, rest) ↔
      ∃ name afterName raw,
        Identifier.read text = .ok (name, afterName)
          ∧ RawValue.read (skipBlanks afterName) = .ok (raw, ';' :: rest)
          ∧ atRule = ⟨name, .ofList (trim raw), .ofSuffix source start⟩ := by
  constructor
  · intro h
    unfold read at h
    -- A name, then a value; of the marks that can end it only the semicolon will do.
    split at h
    · cases h
    · rename_i name afterName hname
      split at h
      · cases h
      · rename_i raw left hraw
        cases h
        exact ⟨name, afterName, raw, hname, hraw, rfl⟩
      · cases h
  · rintro ⟨name, afterName, raw, hname, hraw, rfl⟩
    simp only [read, hname, hraw]

/-! ### Rules and items -/

/-- A rule is a list of selectors and, between braces, items. The check that the rest
is shorter, on which the recursion of the reader rests, never fails and is left out
here. -/
theorem Rule.read_eq_ok_iff {rule : Rule} :
    Rule.read source text = .ok (rule, rest) ↔
      ∃ selectors afterSelectors body,
        readList (skipBlanks text) = .ok (selectors, afterSelectors)
          ∧ skipBlanks afterSelectors = '{' :: body
          ∧ skipBlanks (readItems source body).2 = '}' :: rest
          ∧ rule = ⟨selectors, (readItems source body).1, .ofSuffix source (skipBlanks text)⟩ := by
  constructor
  -- From a rule that was read to its pieces: the branches that fail are closed one by one.
  · intro h
    unfold Rule.read at h
    split at h
    · cases h
    · rename_i selectors afterSelectors hlist
      split at h
      · rename_i body hopen
        dsimp only at h
        split at h
        · rename_i after hclose
          cases h
          exact ⟨selectors, afterSelectors, body, hlist, hopen, hclose, rfl⟩
        · cases h
      · cases h
  -- From the pieces to the rule: each test is known to come out as it should.
  · rintro ⟨selectors, afterSelectors, body, hlist, hopen, hclose, rfl⟩
    unfold Rule.read
    split
    · rename_i hfail
      rw [hlist] at hfail
      cases hfail
    · rename_i hread
      rw [hlist] at hread
      cases hread
      split
      · rename_i hbody
        rw [hopen] at hbody
        cases hbody
        dsimp only
        split
        · rename_i hrest
          rw [hclose] at hrest
          cases hrest
          rfl
        · rename_i hnot
          exact absurd hclose (hnot rest)
      · rename_i hnot
        exact absurd hopen (hnot body)

/-- What stands behind the opening brace of a rule is shorter than what its selectors
are read from. On this the recursions of proofs about rules and items rest. -/
theorem Rule.body_shorter {selectors : List Chain} {afterSelectors body : List Char}
    (hlist : readList text = .ok (selectors, afterSelectors))
    (hopen : skipBlanks afterSelectors = '{' :: body) :
    body <:+ text ∧ body.length < text.length := by
  have hbody : body <:+ afterSelectors :=
    (List.suffix_cons _ _).trans (hopen ▸ skipBlanks_suffix afterSelectors)
  have hshort := Selector.readList_shorter hlist
  exact ⟨hbody.trans hshort.1, Nat.lt_of_le_of_lt hbody.length_le hshort.2⟩

/-- A text is no rule if no opening brace follows the selectors in front of it. There
may be no selectors at all. -/
theorem Rule.exists_read_eq_error
    (h : ∀ selectors afterSelectors, readList (skipBlanks text) = .ok (selectors, afterSelectors) →
      ∀ body, skipBlanks afterSelectors ≠ '{' :: body) :
    ∃ left, Rule.read source text = .error left := by
  cases hread : Rule.read source text with
  | error left => exact ⟨left, rfl⟩
  | ok result =>
    obtain ⟨selectors, afterSelectors, body, hlist, hopen, -⟩ := Rule.read_eq_ok_iff.1 hread
    exact absurd hopen (h selectors afterSelectors hlist body)

/-- A rule in front of a text is the first of its items, and the items behind it
follow. -/
theorem readItems_rule {rule : Rule} (h : Rule.read source text = .ok (rule, rest)) :
    readItems source text
      = (.rule rule :: (readItems source rest).1, (readItems source rest).2) := by
  rw [readItems, h]
  simp only [(Rule.read_shorter h).2, if_true]

/-- What is no rule is a declaration if it reads as one. A rule comes first: a
property may look like the selector of one. -/
theorem readItems_declaration {declaration : Declaration}
    (hrule : Rule.read source text = .error left)
    (h : Declaration.read? source text = some (declaration, rest)) :
    readItems source text
      = (.declaration declaration :: (readItems source rest).1, (readItems source rest).2) := by
  rw [readItems, hrule]
  dsimp only
  split
  · rename_i hread
    rw [h] at hread
    cases hread
    rfl
  · rename_i hread
    rw [h] at hread
    cases hread

/-- What is neither ends the items, and nothing is taken, not even blanks. So what
comes behind the last item is looked at just as it stands. -/
theorem readItems_end (hrule : Rule.read source text = .error left)
    (h : Declaration.read? source text = none) : readItems source text = ([], text) := by
  rw [readItems, hrule]
  dsimp only
  split
  · rename_i hread
    rw [h] at hread
    cases hread
  · rfl

/-! ### Statements -/

/-- A rule in front of a text is the first of its rules. It is told from an at-rule by
its first character. -/
theorem Stylesheet.readStatements_rule {body : List Char} {c : Char} {rule : Rule}
    (h : trimStart text = c :: body) (hc : c ≠ '@')
    (hread : Rule.read source (c :: body) = .ok (rule, rest)) :
    readStatements source text
      = (readStatements source rest).map fun sheet =>
        { sheet with rules := rule :: sheet.rules } := by
  rw [readStatements]
  -- The text is not at its end and has no sign in front, which leaves the last branch.
  split
  · simp_all
  · rename_i hat
    rw [h] at hat
    exact absurd (List.cons.inj hat).1 hc
  · split
    · rename_i hfail
      rw [h, hread] at hfail
      cases hfail
    · rename_i hok
      rw [h, hread] at hok
      cases hok
      rfl

/-! ### Failures -/

/-- What is no compound selector stops the reading where it would begin. -/
theorem Selector.Compound.stop_eq (h : Compound.read text = .error left) : left = text := by
  unfold Compound.read at h
  split at h
  · exact (Except.error.inj h).symm
  · cases h

/-- What is no selector stops the reading where it would begin: with a compound, and
behind the first one nothing fails. -/
theorem Selector.Chain.stop_eq (h : Chain.read text = .error left) : left = text := by
  unfold Chain.read at h
  split at h
  · rename_i hcompound
    cases h
    exact Compound.stop_eq hcompound
  · cases h

/-- What is no list of selectors stops the reading behind the blanks in front of it.
Nothing of a first selector has been taken then. -/
theorem Selector.readList_eq_error (h : readList text = .error left) : left = skipBlanks text := by
  unfold readList at h
  split at h
  · rename_i hchain
    cases h
    exact Chain.stop_eq hchain
  · cases h

/-- The reading of a rule stops where a selector, a brace or an item is missing,
behind blanks. In each case blanks are skipped before the reader looks for what is
missing. -/
theorem Rule.read_eq_error (h : Rule.read source text = .error left) :
    left <:+ text ∧ ∀ c ∈ left.head?, isBlank c = false := by
  unfold Rule.read at h
  -- Either the selectors are missing, or the opening brace, or the closing one.
  split at h
  · rename_i hlist
    cases h
    rw [Selector.readList_eq_error hlist]
    exact ⟨(skipBlanks_suffix _).trans (skipBlanks_suffix text), isBlank_head_skipBlanks _⟩
  · rename_i selectors afterSelectors hlist
    have hafter : skipBlanks afterSelectors <:+ text :=
      (skipBlanks_suffix _).trans
        ((Selector.readList_shorter hlist).1.trans (skipBlanks_suffix text))
    split at h
    · rename_i body hopen
      dsimp only at h
      split at h
      · cases h
      · cases h
        have hbody : body <:+ text := (List.suffix_cons _ _).trans (hopen ▸ hafter)
        exact ⟨(skipBlanks_suffix _).trans ((readItems_suffix source body).trans hbody),
          isBlank_head_skipBlanks _⟩
    · cases h
      exact ⟨hafter, isBlank_head_skipBlanks _⟩

/-- The reading of an at-rule stops where its name would begin, or later on behind
blanks or where a value ends. No blanks are skipped ahead of the name. -/
theorem AtRule.read_eq_error {start : List Char} (h : AtRule.read source start text = .error left) :
    left = text ∨ left <:+ text ∧ ∀ c ∈ left.head?, isBlank c = false := by
  unfold AtRule.read at h
  -- Either the name is missing, or the value, or another mark has ended it.
  split at h
  · rename_i hname
    cases h
    exact .inl (Identifier.read_eq_error hname)
  · rename_i name afterName hname
    have hskip : skipBlanks afterName <:+ text :=
      (skipBlanks_suffix _).trans (Identifier.read_shorter hname).1
    split at h
    · rename_i hvalue
      cases h
      rw [RawValue.read_eq_error hvalue]
      exact .inr ⟨hskip, isBlank_head_skipBlanks _⟩
    · cases h
    · rename_i raw left hvalue
      cases h
      exact .inr ⟨(RawValue.read_shorter hvalue).1.trans hskip, fun c hc =>
        RawValue.isBlank_of_isTerminator (RawValue.isTerminator_of_read hvalue c hc)⟩

/-! ### The place where reading stops -/

namespace Stylesheet

/-- The kind of the statement in front of a text, and the text that it leaves or, if
it cannot be read, the text from where its reading stops. What has been read is of no
interest here. -/
def statement? (source text : List Char) : Option (StatementKind × Except (List Char) (List Char)) :=
  match trimStart text with
  | [] => none
  | '@' :: body => some (.atRule, (AtRule.read source ('@' :: body) body).map Prod.snd)
  | start => some (.rule, (Rule.read source start).map Prod.snd)

/-- Behind some statements of the text there is one of the kind that cannot be read.
Its reading stops at `stop`. This follows the statements one by one, as the program
does, and says nothing of the error that is made of it. -/
inductive FailsAt (source : List Char) (kind : StatementKind) (stop : List Char) :
    List Char → Prop where
  | here (text : List Char) (h : statement? source text = some (kind, .error stop)) :
      FailsAt source kind stop text
  | behind (text rest : List Char) (other : StatementKind)
      (h : statement? source text = some (other, .ok rest)) (hrest : FailsAt source kind stop rest) :
      FailsAt source kind stop text

variable {stop stop' : List Char} {kind kind' : StatementKind}

/-- There is only one place where the reading of a text stops. Each statement leaves
one rest, and it can be read or it cannot. -/
theorem FailsAt.unique (h : FailsAt source kind stop text) (h' : FailsAt source kind' stop' text) :
    kind = kind' ∧ stop = stop' := by
  induction h with
  | here text h =>
    cases h' with
    | here _ h' =>
      cases h.symm.trans h'
      exact ⟨rfl, rfl⟩
    | behind _ rest other h' => cases h.symm.trans h'
  | behind text rest other h _ ih =>
    cases h' with
    | here _ h' => cases h.symm.trans h'
    | behind _ rest' other' h' hrest' =>
      cases h.symm.trans h'
      exact ih hrest'

/-- Behind an `@` there is an at-rule. The sign decides it, whether or not what
follows can be read. -/
theorem statement?_atRule {body : List Char} (h : trimStart text = '@' :: body) :
    statement? source text
      = some (.atRule, (AtRule.read source ('@' :: body) body).map Prod.snd) := by
  rw [statement?, h]
  rfl

/-- Anywhere else there is a rule, unless the text is at its end. A rule is what is
expected where there is no sign of an at-rule. -/
theorem statement?_rule (hne : trimStart text ≠ []) (hat : ∀ body, trimStart text ≠ '@' :: body) :
    statement? source text = some (.rule, (Rule.read source (trimStart text)).map Prod.snd) := by
  unfold statement?
  split
  · rename_i hend
    exact absurd hend hne
  · rename_i body hbody
    exact absurd hbody (hat body)
  · rfl

/-- A statement leaves an end of the text, which is where the next one is read. The
white space in front of a statement is trimmed first, which leaves an end of the text
as well. -/
theorem suffix_of_statement? (h : statement? source text = some (kind, .ok rest)) :
    rest <:+ text := by
  have hstart := trimStart_suffix text
  unfold statement? at h
  split at h
  · cases h
  · rename_i body hbody
    obtain ⟨⟨atRule, left⟩, hread, rfl⟩ := map_eq_ok.1 (Prod.mk.inj (Option.some.inj h)).2
    exact ((AtRule.read_shorter hread).1.trans (List.suffix_cons _ _)).trans (hbody ▸ hstart)
  · obtain ⟨⟨rule, left⟩, hread, rfl⟩ := map_eq_ok.1 (Prod.mk.inj (Option.some.inj h)).2
    exact (Rule.read_shorter hread).1.trans hstart

/-- The reading of a statement stops behind blanks, at the end, or right behind an
`@`. The last case is that of an at-rule without a name. -/
theorem stops_of_statement? (h : statement? source text = some (kind, .error stop)) :
    stop <:+ text ∧ ((∀ c ∈ stop.head?, isBlank c = false) ∨ '@' :: stop <:+ text) := by
  have hstart := trimStart_suffix text
  unfold statement? at h
  split at h
  · cases h
  · rename_i body hbody
    rw [hbody] at hstart
    have hread := map_eq_error.1 (Prod.mk.inj (Option.some.inj h)).2
    rcases AtRule.read_eq_error hread with rfl | ⟨hstop, hblank⟩
    · exact ⟨(List.suffix_cons _ _).trans hstart, .inr hstart⟩
    · exact ⟨hstop.trans ((List.suffix_cons _ _).trans hstart), .inl hblank⟩
  · have hread := map_eq_error.1 (Prod.mk.inj (Option.some.inj h)).2
    obtain ⟨hstop, hblank⟩ := Rule.read_eq_error hread
    exact ⟨hstop.trans hstart, .inl hblank⟩

/-- The reading of a text stops behind blanks, at the end, or right behind an `@`, by
induction on the statements in front of the one that cannot be read. -/
theorem FailsAt.stops (h : FailsAt source kind stop text) :
    stop <:+ text ∧ ((∀ c ∈ stop.head?, isBlank c = false) ∨ '@' :: stop <:+ text) := by
  induction h with
  | here text h => exact stops_of_statement? h
  | behind text rest other h _ ih =>
    have hrest := suffix_of_statement? h
    exact ⟨ih.1.trans hrest, ih.2.imp_right fun hsign => hsign.trans hrest⟩

/-- The error about a text is about the place where its reading stops, and has the
kind of the statement there. -/
theorem exists_failsAt {error : SyntaxError} (h : readStatements source text = .error error) :
    ∃ kind stop, FailsAt source kind stop text ∧ error = .of kind source stop := by
  fun_induction readStatements source text generalizing error with
  | case1 => cases h
  -- The first statement cannot be read.
  | case2 text body hstart stop hread =>
    cases h
    refine ⟨_, stop, .here text ?_, rfl⟩
    rw [statement?_atRule hstart, hread]
    rfl
  -- It can be read, and the failure is further on.
  | case3 text body hstart atRule rest hread _ ih =>
    obtain ⟨kind, stop, hfails, herror⟩ := ih (map_eq_error.1 h)
    refine ⟨kind, stop, .behind text rest .atRule ?_ hfails, herror⟩
    rw [statement?_atRule hstart, hread]
    rfl
  | case4 text stop hne hat hread =>
    cases h
    refine ⟨_, stop, .here text ?_, rfl⟩
    rw [statement?_rule hne hat, hread]
    rfl
  | case5 text rule rest hne hat hread _ ih =>
    obtain ⟨kind, stop, hfails, herror⟩ := ih (map_eq_error.1 h)
    refine ⟨kind, stop, .behind text rest .rule ?_ hfails, herror⟩
    rw [statement?_rule hne hat, hread]
    rfl

end Stylesheet

end BlockStyles
