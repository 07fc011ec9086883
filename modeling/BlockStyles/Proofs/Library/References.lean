import BlockStyles.Proofs.Library.Sheets
import BlockStyles.Proofs.Text.Outlook
import BlockStyles.Proofs.Text.Quotes

/-!
# `BlockStyles.Proofs.Library.References`: references that are taken, and those that are not

`BlockReference.Spells` is the layout of a reference: an alias, `from`, and a path between two
quotes, with white space in between and at the end. Of the text behind `from` only the two ends are
looked at, so the path may hold the quote that is around it. Two strings in a row are then one path,
which is not how a reference is meant to be written.

An at-rule that has no such layout ends the work on its file with an error about it. The at-rules
before it have been passed by then. What stands behind it is never looked at, and no file is asked
for on its behalf.

* `BlockReference.ofPrelude?_eq_some_iff`: a reference is taken if it is spelled in the text of the
  at-rule, and only then.
* `Library.addSheet_append_of_failed`: an at-rule that cannot be passed decides what becomes of a
  sheet, whatever stands behind it.
* `BlockReference.taken_iff_spelled`: which references are taken, and what becomes of a sheet with
  another one.
* `BlockReference.taken_not_wellFormed`: some that are taken are not well formed.
-/

set_option autoImplicit false

namespace BlockStyles

open BlockStyles.Text

namespace BlockReference

/-! ### The layout of references -/

/-- The word in front of the path. -/
def fromWord : List Char := ['f', 'r', 'o', 'm']

/-- The text is `from` and the path in quotes. Blanks may stand in front of `from`,
and any white space around the path. Nothing is said about quotes within the path. -/
inductive SpellsPath (quote : Char) (path : String) : List Char → Prop where
  | intro (between behind after : List Char) (hquote : isQuote quote) (hpath : path ≠ "")
      (hbetween : ∀ c ∈ between, isBlank c) (hbehind : ∀ c ∈ behind, isSpace c)
      (hafter : ∀ c ∈ after, isSpace c) :
      SpellsPath quote path
        (between ++ (fromWord ++ (behind ++ (quote :: path.toList ++ [quote] ++ after))))

/-- The text is the alias, which is a whole run of characters of identifiers, and then `from` and
the path. Blanks may stand in front of it. -/
inductive Spells (quote : Char) (reference : BlockReference) : List Char → Prop where
  | intro (before rest : List Char) (hbefore : ∀ c ∈ before, isBlank c)
      (hname : isIdentifier reference.localName) (hends : EndsName rest)
      (hrest : SpellsPath quote reference.path rest) :
      Spells quote reference (before ++ (reference.localName.toList ++ rest))

/-- The text is a reference whose path is a single string: its quote only stands around it. -/
def WellFormed (reference : BlockReference) (text : List Char) : Prop :=
  ∃ quote, Spells quote reference text ∧ quote ∉ reference.path.toList

variable {quote : Char} {text rest : List Char} {path : String} {reference : BlockReference}

/-- The quote around the path is in the text. So a text without quotes spells no
reference. -/
theorem SpellsPath.quote_mem (h : SpellsPath quote path text) : quote ∈ text := by
  obtain ⟨between, behind, after⟩ := h
  simp

/-- The quote around the path is in the text of the whole reference. -/
theorem Spells.quote_mem (h : Spells quote reference text) : quote ∈ text := by
  obtain ⟨before, rest, -, -, -, hrest⟩ := h
  exact List.mem_append_right _ (List.mem_append_right _ hrest.quote_mem)

/-- It is one of the two quotes. Both of them are allowed, but the two ends must have
the same one. -/
theorem Spells.isQuote (h : Spells quote reference text) : Text.isQuote quote := by
  obtain ⟨_, _, -, -, -, _, _, _, hquote⟩ := h
  exact hquote

/-! ### Reading -/

/-- What is behind `from` is the path, if it has quotes around it and is not empty.
Whether there are quotes is told by what removing them changes. -/
theorem readPath_of_from (h : skipBlanks text = fromWord ++ rest) :
    readPath text
      = if unquote (trim rest) = trim rest ∨ unquote (trim rest) = [] then .error (skipBlanks rest)
        else .ok (.ofList (unquote (trim rest)), []) := by
  rw [← trim_skipBlanks rest, readPath, h]
  rfl

/-- A path that is spelled is read, and nothing is left. It is trimmed first, which
takes away the white space around the quotes and nothing else. -/
theorem readPath_of_spells (h : SpellsPath quote path text) : readPath text = .ok (path, []) := by
  obtain ⟨between, behind, after, hquote, hpath, hbetween, hbehind, hafter⟩ := h
  have hskip : skipBlanks (between ++ (fromWord
      ++ (behind ++ (quote :: path.toList ++ [quote] ++ after))))
      = fromWord ++ (behind ++ (quote :: path.toList ++ [quote] ++ after)) := by
    rw [skipBlanks_append hbetween]
    exact skipBlanks_eq_self fun c hc => by cases hc; rfl
  -- The quotes are no white space, so they end what is left when the text is trimmed.
  have hquoted : trim (quote :: path.toList ++ [quote]) = quote :: path.toList ++ [quote] := by
    have hspace := isSpace_of_isQuote hquote
    refine trim_eq_self_iff.2 ⟨by simpa using hspace, ?_⟩
    rw [List.getLast?_concat]
    simpa using hspace
  have hdiffers : path.toList ≠ quote :: path.toList ++ [quote] := fun heq => by
    have hlength := congrArg List.length heq
    simp only [List.length_append, List.length_cons, List.length_nil] at hlength
    omega
  rw [readPath_of_from hskip, trim_append_append hbehind hquoted (List.cons_ne_nil _ _) hafter,
    unquote_quoted hquote, if_neg (not_or.2 ⟨hdiffers, by simpa using hpath⟩),
    String.ofList_toList]

/-- A path that has been read is spelled. What has been skipped and trimmed off is the
white space of the layout. -/
theorem spells_of_readPath (h : readPath text = .ok (path, rest)) :
    ∃ quote, SpellsPath quote path text := by
  obtain ⟨between, htext, hbetween⟩ := exists_eq_append_skipBlanks text
  -- Without the word `from` nothing is read.
  have hfrom : ∃ behindFrom, skipBlanks text = fromWord ++ behindFrom := by
    unfold readPath at h
    split at h
    · rename_i behindFrom hfrom
      exact ⟨behindFrom, hfrom⟩
    · cases h
  obtain ⟨behindFrom, hfrom⟩ := hfrom
  rw [readPath_of_from hfrom] at h
  split at h
  · cases h
  · rename_i hpath
    obtain ⟨hquoted, hne⟩ := not_or.1 hpath
    obtain ⟨quote, hquote, hwritten⟩ :=
      (unquote_eq_self_or_quoted (trim behindFrom)).resolve_left hquoted
    obtain ⟨behind, after, hbehindFrom, hbehind, hafter⟩ := exists_eq_append_trim behindFrom
    cases h
    -- Only what the quotes enclose is needed from here on, not how it was found.
    generalize unquote (trim behindFrom) = inner at hne hwritten ⊢
    have hspelled : SpellsPath quote (.ofList inner) (between ++ (fromWord ++ (behind
        ++ (quote :: (String.ofList inner).toList ++ [quote] ++ after)))) :=
      .intro between behind after hquote (by simpa using hne) hbetween hbehind hafter
    rw [String.toList_ofList, ← hwritten, ← hbehindFrom, ← hfrom, ← htext] at hspelled
    exact ⟨quote, hspelled⟩

/-- A reference is taken if it is spelled in the text, and only then. The two
directions are those for paths, with the alias in front. -/
theorem ofPrelude?_eq_some_iff {prelude : String} :
    ofPrelude? prelude = some reference ↔ ∃ quote, Spells quote reference prelude.toList := by
  constructor
  · intro h
    obtain ⟨before, htext, hbefore⟩ := exists_eq_append_skipBlanks prelude.toList
    unfold ofPrelude? at h
    split at h
    · cases h
    · rename_i name rest hread
      split at h
      · cases h
      · rename_i path behind hpath
        cases h
        obtain ⟨hname, hidentifier⟩ := Identifier.read_eq_ok hread
        obtain ⟨quote, hrest⟩ := spells_of_readPath hpath
        refine ⟨quote, ?_⟩
        rw [htext, hname]
        exact .intro before rest hbefore hidentifier (Identifier.endsName_of_read hread) hrest
  · rintro ⟨quote, h⟩
    generalize hprelude : prelude.toList = text at h
    obtain ⟨before, rest, hbefore, hname, hends, hrest⟩ := h
    obtain ⟨c, tail, hcons, hc⟩ := exists_cons_of_isIdentifier hname
    have hskip : skipBlanks (before ++ (reference.localName.toList ++ rest))
        = reference.localName.toList ++ rest := by
      -- The alias begins with a character of identifiers, so the blanks end there.
      rw [skipBlanks_append hbefore]
      refine skipBlanks_eq_self fun d hd => ?_
      rw [hcons] at hd
      cases hd
      rw [Bool.eq_false_iff]
      intro hblank
      have hspace := isSpace_of_isBlank hblank
      rw [isSpace_of_isIdentifierChar hc] at hspace
      cases hspace
    rw [ofPrelude?, hprelude, hskip, Identifier.read_append hname hends]
    dsimp only
    rw [readPath_of_spells hrest]

end BlockReference

/-! ### References that are not taken -/

/-- The error about an at-rule of a file that should be a reference and spells none.
It shows the text and where the at-rule stands. -/
def AtRule.malformed (identifier : String) (atRule : AtRule) : Error :=
  .located ⟨identifier, atRule.position⟩ (.malformedReference atRule.prelude)

variable {config : Config} {library : Library} {atRule : AtRule}

/-- When it comes to such a reference, the work on the file ends. The step does not
depend on what is behind the at-rule, nor on the library. -/
theorem Task.step?_of_malformed {me : TaskId} {waiting : List WaitingFile} {file : OpenFile}
    {pending : List AtRule} (hname : atRule.name = BlockReference.atRuleName)
    (hprelude : BlockReference.ofPrelude? atRule.prelude = none)
    (hpending : file.pending = atRule :: pending) :
    Task.step? config me library ⟨waiting, .compiling file⟩
      = some (library.close waiting file (.error (atRule.malformed file.identifier)),
          ⟨waiting, .returning (.error (atRule.malformed file.identifier))⟩) := by
  simp [Task.step?, Task.compile, hpending, hname, hprelude, AtRule.malformed]

namespace Library

variable {before behind : List AtRule} {rules : List Rule} {identifier name : String}
  {library' : Library} {id : Nat} {outcome : Option (Except Error (List (String × Block)))}

/-- A sheet goes on with such a reference if nothing has failed before, and then fails
by it at once. -/
theorem proceed_of_malformed (hname : atRule.name = BlockReference.atRuleName)
    (hprelude : BlockReference.ofPrelude? atRule.prelude = none)
    (references : List (String × Block)) :
    proceed config library id name identifier (some (.ok references)) (atRule :: behind) rules
      = (library, some (.error (atRule.malformed identifier))) :=
  (complete_of_step (Task.step?_of_malformed hname hprelude rfl)).trans (complete_of_still rfl)

/-- Behind at-rules that can be passed, a reference that is not taken is the error of
the sheet. The library is left as it is when those at-rules have been passed. That
they can be passed is said by the sheet that has them and no rules. -/
theorem addSheet_of_malformed {block : Block} (hname : atRule.name = BlockReference.atRuleName)
    (hprelude : BlockReference.ofPrelude? atRule.prelude = none)
    (h : (library.addSheet config ⟨before, []⟩ identifier name).2 = some (.ok block)) :
    ∃ passed, library.addSheet config ⟨before, []⟩ identifier name
        = (passed.register block, some (.ok block))
      ∧ library.addSheet config ⟨before ++ atRule :: behind, rules⟩ identifier name
        = (passed, some (.error (atRule.malformed identifier))) := by
  obtain ⟨passed, outcome, hproceed⟩ :=
    exists_addSheet_append_eq config library before identifier name
  have hbefore := hproceed [] []
  rw [List.append_nil, proceed_nil] at hbefore
  rw [hbefore] at h
  obtain ⟨references, rfl, hbuilt⟩ := conclude_eq_ok_iff.1 h
  refine ⟨passed, hbefore.trans (conclude_of_built hbuilt), ?_⟩
  rw [hproceed, proceed_of_malformed hname hprelude]

/-- Behind at-rules that cannot be passed it does not matter what there is. The
at-rules are passed in order, and the first that fails ends the work on the sheet. So
a refused reference is found whatever stands behind it. -/
theorem addSheet_append_of_failed
    (h : ∀ block, (library.addSheet config ⟨before, []⟩ identifier name).2 ≠ some (.ok block)) :
    library.addSheet config ⟨before ++ behind, rules⟩ identifier name
      = library.addSheet config ⟨before, []⟩ identifier name := by
  obtain ⟨passed, outcome, hproceed⟩ :=
    exists_addSheet_append_eq config library before identifier name
  have hbefore := hproceed [] []
  rw [List.append_nil] at hbefore
  rw [hproceed, hbefore]
  rcases outcome with _ | _ | references
  · rfl
  · rfl
  -- Without rules a block would have been built from the references.
  · rw [hbefore, proceed_nil] at h
    exact absurd (conclude_eq_ok_iff.2 ⟨references, rfl, ofRules_nil _ references⟩) (h _)

end Library

/-- The at-rule is an error wherever it stands, and nothing else comes of it. -/
structure AtRule.Refused (atRule : AtRule) : Prop where
  /-- When a task comes to the at-rule, the work on the file ends. -/
  ends : ∀ (config : Config) (me : TaskId) (library : Library) (waiting : List WaitingFile)
    (file : OpenFile) (pending : List AtRule), file.pending = atRule :: pending →
      Task.step? config me library ⟨waiting, .compiling file⟩
        = some (library.close waiting file (.error (atRule.malformed file.identifier)),
            ⟨waiting, .returning (.error (atRule.malformed file.identifier))⟩)
  /-- A sheet fails by it when the at-rules before it can be passed. The library is then as it is
  when these have been passed. -/
  fails : ∀ (config : Config) (library : Library) (before behind : List AtRule)
    (rules : List Rule) (identifier name : String) (block : Block),
      (library.addSheet config ⟨before, []⟩ identifier name).2 = some (.ok block) →
        ∃ passed, library.addSheet config ⟨before, []⟩ identifier name
            = (passed.register block, some (.ok block))
          ∧ library.addSheet config ⟨before ++ atRule :: behind, rules⟩ identifier name
            = (passed, some (.error (atRule.malformed identifier)))
  /-- Otherwise what comes of the sheet is what comes of the at-rules before it. -/
  hidden : ∀ (config : Config) (library : Library) (before behind : List AtRule)
    (rules : List Rule) (identifier name : String),
      (∀ block, (library.addSheet config ⟨before, []⟩ identifier name).2 ≠ some (.ok block)) →
        library.addSheet config ⟨before ++ atRule :: behind, rules⟩ identifier name
          = library.addSheet config ⟨before, []⟩ identifier name

namespace BlockReference

/-- A reference is taken if and only if it is spelled in the prelude of its at-rule.
An at-rule without one is an error about it, for which no file is asked. What is
spelled is said without the reader: a name, the word `from` and a path between two
equal quotes, with white space around them. The path may hold anything, its quote
included. -/
theorem taken_iff_spelled (atRule : AtRule) :
    (∀ reference, ofPrelude? atRule.prelude = some reference
        ↔ ∃ quote, Spells quote reference atRule.prelude.toList)
      ∧ (atRule.name = atRuleName → ofPrelude? atRule.prelude = none → atRule.Refused) :=
  ⟨fun _ => ofPrelude?_eq_some_iff, fun hname hprelude =>
    { ends := fun _ _ _ _ _ _ hpending => Task.step?_of_malformed hname hprelude hpending
      fails := fun _ _ _ _ _ _ _ _ h => Library.addSheet_of_malformed hname hprelude h
      hidden := fun _ _ _ _ _ _ _ h => Library.addSheet_append_of_failed h }⟩

/-- A path without quotes is refused, and the sheet fails by it. The error is located
at the at-rule and quotes its prelude. -/
theorem taken_iff_spelled_unquoted :
    ofPrelude? "base from b.css" = none
      ∧ ∃ passed, Library.empty.addSheet ⟨[], "", 16, []⟩
          ⟨[⟨atRuleName, "base from b.css", ⟨1, 1⟩⟩], []⟩ "x.css" "x"
        = (passed, some (.error (.located ⟨"x.css", ⟨1, 1⟩⟩
            (.malformedReference "base from b.css")))) := by
  have hprelude : ofPrelude? "base from b.css" = none := by decide
  have hrefused : AtRule.Refused ⟨atRuleName, "base from b.css", ⟨1, 1⟩⟩ :=
    (taken_iff_spelled _).2 rfl hprelude
  obtain ⟨passed, -, hfails⟩ := hrefused.fails ⟨[], "", 16, []⟩ .empty [] [] [] "x.css" "x" _
    (Library.addSheet_nil_of_built rfl)
  exact ⟨hprelude, passed, hfails⟩

/-- Two strings in a row are taken for one path, though they are no path in quotes.
The path has the quote in it that stands around it. Only the first and the last
character of the text behind `from` are compared. -/
theorem taken_not_wellFormed :
    ¬ ∀ (prelude : String) (reference : BlockReference),
        ofPrelude? prelude = some reference ↔ WellFormed reference prelude.toList := by
  intro h
  have htaken : ofPrelude? "base from \"a.css\" \"b.css\""
      = some ⟨"base", "a.css\" \"b.css"⟩ := by decide
  obtain ⟨quote, hspells, hnew⟩ := (h _ _).1 htaken
  have hquote := hspells.isQuote
  simp only [isQuote, Bool.or_eq_true, beq_iff_eq] at hquote
  rcases hquote with rfl | rfl
  · exact hnew (by decide)
  · exact absurd hspells.quote_mem (by decide)

end BlockReference

end BlockStyles
