import BlockStyles.Proofs.Selector.Shape

/-!
# `BlockStyles.Proofs.Selector.Display`: written selectors are read back

The written form of a selector has a space where one compound ends, a comma where a
selector ends, and brackets around an attribute. Each piece is read up to where the
next one begins, so a list of selectors is read from its written form, up to an
opening brace or the end of the text behind it.

Values are written without quotes, and they are trimmed and unquoted again when they are
read. Nothing else changes, so the selectors are the same if no value is changed by this.

* `Simple.reads_text`, `Compound.read_text`, `Chain.read_text`, `readList_text`: from the
  simple selector up to the list.
* `readList_listText`: selectors that have been read are read again, up to their values.
-/

set_option autoImplicit false

namespace BlockStyles.Selector

open BlockStyles.Text

variable {text rest : List Char}

/-- A list stays as it is if all that is in it does. Lists of selectors, compounds and
parts are all read again one by one. -/
theorem map_eq_self_iff {α : Type} {f : α → α} {l : List α} : l.map f = l ↔ ∀ a ∈ l, f a = a := by
  have h : l.map f = l.map id ↔ ∀ a ∈ l, f a = id a := List.map_inj_left
  rwa [List.map_id] at h

/-! ### Attributes -/

namespace Attribute

/-- The value is written as it is read: white space and quotes would come off it. An attribute
without a value has nothing that could change. -/
def HasPlainValue (attr : Attribute) : Prop :=
  ∀ value ∈ attr.value, unquote (trim value.toList) = value.toList

/-- The attribute that is read from what is written: its value is trimmed and unquoted again. -/
def reread (attr : Attribute) : Attribute :=
  { attr with value := attr.value.map fun value => .ofList (unquote (trim value.toList)) }

/-- An attribute is read again as it was just if its value is written as it is read. A
value loses its quotes and the blanks around it when it is read, and printing does not
put them back. -/
theorem reread_eq_self_iff {attr : Attribute} : attr.reread = attr ↔ attr.HasPlainValue := by
  obtain ⟨space, name, _ | value⟩ := attr
  · simp [reread, HasPlainValue]
  · have hvalue : (⟨space, name, some value⟩ : Attribute).HasPlainValue
        ↔ unquote (trim value.toList) = value.toList := by
      simp [HasPlainValue]
    rw [hvalue, ← String.ofList_inj, String.ofList_toList]
    simp [reread]

/-- The written form between the brackets, up to the value. -/
def qualified (attr : Attribute) : List Char :=
  match attr.space with
  | some space => space.toList ++ '|' :: attr.name.toList
  | none => attr.name.toList

/-- The written form between the brackets. -/
def content (attr : Attribute) : List Char :=
  match attr.value with
  | some value => attr.qualified ++ '=' :: value.toList
  | none => attr.qualified

/-- An attribute is written between brackets. The opening bracket is the mark by which
it is known, and the closing one ends it. -/
theorem toList_text (attr : Attribute) : attr.text.toList = '[' :: (attr.content ++ [']']) := by
  obtain ⟨space, name, value⟩ := attr
  cases space <;> cases value <;> simp [text, content, qualified]

variable {attr : Attribute}

/-- The first equals sign in an attribute is the one ahead of its value. A reader cuts
at the first one, so it cuts at the right place. -/
theorem WellFormed.equals_qualified (h : attr.WellFormed) : '=' ∉ attr.qualified := by
  unfold qualified
  split
  · rename_i space hspace
    simp [h.equals_space space hspace, h.equals_name]
  · exact h.equals_name

/-- There is no closing bracket inside an attribute, so the one behind it is where it
ends. -/
theorem WellFormed.bracket_content (h : attr.WellFormed) : ']' ∉ attr.content := by
  have hqualified : ']' ∉ attr.qualified := by
    unfold qualified
    split
    · rename_i space hspace
      simp [h.bracket_space space hspace, h.bracket_name]
    · exact h.bracket_name
  unfold content
  split
  · rename_i value hvalue
    simp [hqualified, h.bracket_value value hvalue]
  · exact hqualified

/-- There is no white space around what stands ahead of the value. It begins with the namespace
or the name and ends with the name, which are trimmed. -/
theorem WellFormed.trim_qualified (h : attr.WellFormed) : trim attr.qualified = attr.qualified := by
  unfold qualified
  split
  · rename_i space hspace
    exact trim_append_cons (by decide) (h.trim_space space hspace) h.trim_name
  · exact h.trim_name

/-- An attribute is read from what is written between its brackets, up to its value.
It is cut at the first equals sign and then at the first bar, and the marks that were
written are these. -/
theorem WellFormed.ofContent_content (h : attr.WellFormed) :
    ofContent attr.content = attr.reread := by
  have hsplit : splitFirst '=' attr.content
      = attr.value.map fun value => (attr.qualified, value.toList) := by
    unfold content
    split
    · rename_i value hvalue
      rw [splitFirst_append _ h.equals_qualified, hvalue]
      rfl
    · rename_i hvalue
      rw [splitFirst_eq_none h.equals_qualified, hvalue]
      rfl
  have hbar : splitFirst '|' attr.qualified
      = attr.space.map fun space => (space.toList, attr.name.toList) := by
    unfold qualified
    split
    · rename_i space hspace
      rw [splitFirst_append _ (h.bar_space space hspace), hspace]
      rfl
    · rename_i hspace
      rw [splitFirst_eq_none (h.bar_name hspace), hspace]
      rfl
  have htrim := h.trim_qualified
  have hname := h.trim_name
  have hspace := h.trim_space
  -- The value is needed to know the text, so this is said before the attribute is taken
  -- apart.
  have hcontent : attr.value = none → attr.content = attr.qualified := by
    intro hvalue
    rw [content, hvalue]
  obtain ⟨space, name, value⟩ := attr
  unfold ofContent
  rw [hsplit]
  cases value with
  | none =>
    simp only [Option.map_none, hcontent, htrim, hbar]
    cases space with
    | none => simp [qualified, reread]
    | some space => simp [hspace, hname, reread]
  | some value =>
    simp only [Option.map_some, htrim, hbar]
    cases space with
    | none => simp [qualified, reread]
    | some space => simp [hspace, hname, reread]

end Attribute

/-! ### Simple selectors -/

/-- The characters that a simple selector can begin with. A name is read up to where
one of its own characters is missing, which leaves open that another simple selector
begins there. -/
def startsSimple (c : Char) : Bool :=
  isIdentifierChar c || ['.', '#', ':', '[', '&', '*'].contains c

namespace Simple

/-- A value in the selector is written as it is read. Only an attribute can have one. -/
def HasPlainValue (simple : Simple) : Prop :=
  ∀ condition, simple = attr condition → condition.HasPlainValue

/-- The simple selector that is read from what is written. Names are read as they are. -/
def reread : Simple → Simple
  | attr condition => attr condition.reread
  | type name => type name
  | cls name => cls name
  | id name => id name
  | pseudoClass name => pseudoClass name
  | pseudoElement name => pseudoElement name
  | universal => universal
  | parent => parent

variable {simple : Simple}

/-- A simple selector is read again as it was just if the value in it is. -/
theorem reread_eq_self_iff : simple.reread = simple ↔ simple.HasPlainValue := by
  cases simple <;> simp [reread, HasPlainValue, Attribute.reread_eq_self_iff]

/-- What has a name and no value does not change when it is read again. -/
theorem reread_of_named? {named : List Char × String} (h : simple.named? = some named) :
    simple.reread = simple := by
  cases simple <;> first | rfl | cases h

/-- What has a name is written as its mark and its name. -/
theorem toList_text_of_named? {mark : List Char} {name : String}
    (h : simple.named? = some (mark, name)) : simple.text.toList = mark ++ name.toList := by
  cases simple <;> cases h <;> simp [text]

/-- A simple selector is read from its written form, up to what cannot go on with its
name. What has no name ends with its own mark, so then anything may follow. -/
theorem reads_text (h : simple.WellFormed)
    (hrest : simple.named?.isSome → ∀ c ∈ rest.head?, isIdentifierChar c = false) :
    Reads (simple.text.toList ++ rest) simple.reread rest := by
  -- What has a name is written in one way for all five forms; the others have a case each.
  cases hnamed : simple.named? with
  | some named =>
    obtain ⟨mark, name⟩ := named
    rw [toList_text_of_named? hnamed, List.append_assoc, reread_of_named? hnamed]
    exact .named rest hnamed ((wellFormed_iff_of_named? hnamed).1 h) (hrest (by simp [hnamed]))
  | none =>
    cases simple with
    | universal => exact .universal rest
    | parent => exact .parent rest
    | attr condition =>
      have hreads := Reads.attr condition.content rest (Attribute.WellFormed.bracket_content h)
      rw [Attribute.WellFormed.ofContent_content h] at hreads
      rw [text, Attribute.toList_text, List.cons_append, List.append_assoc]
      exact hreads
    | _ => cases hnamed

/-- A simple selector is read from a text that begins like one. If it begins with a
character of names, the selector is an element type, since all others have a mark in
front. -/
theorem Reads.exists_cons (h : Reads text simple rest) :
    ∃ c tail, text = c :: tail ∧ startsSimple c
      ∧ (isIdentifierChar c → ∃ name, simple = type name) := by
  cases h with
  | @named _ mark name _ hnamed hname =>
    obtain ⟨c, tail, htext, hc⟩ := exists_cons_of_isIdentifier hname
    cases simple <;> cases hnamed
    case named.type =>
      exact ⟨c, _, by rw [htext]; rfl, by simp [startsSimple, hc], fun _ => ⟨_, rfl⟩⟩
    all_goals exact ⟨_, _, rfl, by decide, fun h => absurd h (by decide)⟩
  | universal => exact ⟨_, _, rfl, by decide, fun h => absurd h (by decide)⟩
  | parent => exact ⟨_, _, rfl, by decide, fun h => absurd h (by decide)⟩
  | attr content => exact ⟨_, _, rfl, by decide, fun h => absurd h (by decide)⟩

/-- What is written for a simple selector begins like one, since it can be read. What
is read may differ in its value, but not in being an element type. -/
theorem exists_cons_text (h : simple.WellFormed) :
    ∃ c tail, simple.text.toList = c :: tail ∧ startsSimple c
      ∧ (isIdentifierChar c → ∃ name, simple = type name) := by
  have hreads : Reads (simple.text.toList ++ []) simple.reread [] :=
    reads_text h fun _ c hc => by cases hc
  rw [List.append_nil] at hreads
  obtain ⟨c, tail, htext, hc, htype⟩ := hreads.exists_cons
  refine ⟨c, tail, htext, hc, fun hidentifier => ?_⟩
  obtain ⟨name, hname⟩ := htype hidentifier
  cases simple <;> cases hname
  exact ⟨name, rfl⟩

/-- There is no simple selector where none can begin. At the end of the text none
begins, either. -/
theorem exists_read_eq_error (h : ∀ c ∈ text.head?, startsSimple c = false) :
    ∃ left, read text = .error left := by
  cases hread : read text with
  | error left => exact ⟨left, rfl⟩
  | ok result =>
    obtain ⟨c, tail, rfl, hc, -⟩ := (read_eq_ok_iff.1 hread).exists_cons
    rw [h c rfl] at hc
    cases hc

end Simple

/-! ### Compounds -/

namespace Compound

/-- The values in the compound are written as they are read, each one in its attribute. -/
def HasPlainValues (compound : Compound) : Prop :=
  ∀ simple ∈ compound, simple.HasPlainValue

/-- The compound that is read from what is written. -/
def reread (compound : Compound) : Compound :=
  compound.map Simple.reread

/-- A compound is read again as it was just if the values in it are. -/
theorem reread_eq_self_iff {compound : Compound} :
    compound.reread = compound ↔ compound.HasPlainValues := by
  simp [reread, HasPlainValues, map_eq_self_iff, Simple.reread_eq_self_iff]

/-- The simple selectors of a compound are written one behind the other, with nothing
in between. -/
theorem toList_text_cons (simple : Simple) (compound : Compound) :
    (Compound.text (simple :: compound)).toList
      = simple.text.toList ++ (Compound.text compound).toList := by
  simp [Compound.text]

/-- A run of simple selectors is read from its written form, up to where none begins.
Since nothing is written in between, each of them must end where the next begins. -/
theorem readRun_text {compound : Compound} (hsimples : ∀ simple ∈ compound, simple.WellFormed)
    (hapart : compound.IsChain Simple.Apart)
    (hrest : ∀ c ∈ rest.head?, startsSimple c = false) :
    readRun ((Compound.text compound).toList ++ rest) = (compound.reread, rest) := by
  induction compound with
  | nil => exact readRun_of_error (Simple.exists_read_eq_error hrest)
  | cons simple compound ih =>
    obtain ⟨hsimple, hsimples⟩ := List.forall_mem_cons.1 hsimples
    obtain ⟨hnext, hapart⟩ := List.isChain_cons.1 hapart
    have hafter := ih hsimples hapart
    have hstart : simple.named?.isSome →
        ∀ c ∈ ((Compound.text compound).toList ++ rest).head?, isIdentifierChar c = false := by
      intro hnamed c hc
      cases compound with
      | nil =>
        have hnone := hrest c hc
        simp only [startsSimple, Bool.or_eq_false_iff] at hnone
        exact hnone.1
      -- The next one is no element type, so it begins with a mark.
      | cons next compound =>
        obtain ⟨d, tail, htext, -, htype⟩ :=
          Simple.exists_cons_text (hsimples next List.mem_cons_self)
        rw [toList_text_cons, htext] at hc
        cases hc
        rw [Bool.eq_false_iff]
        intro hidentifier
        obtain ⟨name, hname⟩ := htype hidentifier
        exact hnext next rfl hnamed name hname
    rw [toList_text_cons, List.append_assoc,
      readRun_of_read (Simple.read_eq_ok_iff.2 (Simple.reads_text hsimple hstart)), hafter]
    rfl

/-- A compound begins like the first of its simple selectors. Compounds are not empty,
as nothing is read from no text. -/
theorem exists_cons_text {compound : Compound} (h : compound.WellFormed) :
    ∃ c tail, (Compound.text compound).toList = c :: tail ∧ startsSimple c := by
  cases compound with
  | nil => exact absurd rfl h.ne_nil
  | cons simple compound =>
    obtain ⟨c, tail, htext, hc, -⟩ :=
      Simple.exists_cons_text (h.simples simple List.mem_cons_self)
    exact ⟨c, _, by rw [toList_text_cons, htext]; rfl, hc⟩

/-- A compound is read from its written form, up to where no simple selector begins.
It has one, which is what tells reading it from reading a run. -/
theorem read_text {compound : Compound} (h : compound.WellFormed)
    (hrest : ∀ c ∈ rest.head?, startsSimple c = false) :
    read ((Compound.text compound).toList ++ rest) = .ok (compound.reread, rest) := by
  rw [read, readRun_text h.simples h.apart hrest]
  cases compound with
  | nil => exact absurd rfl h.ne_nil
  | cons simple compound => rfl

/-- Where no simple selector begins there is no compound, and the error is found at
this place. -/
theorem read_eq_error (h : ∀ c ∈ text.head?, startsSimple c = false) : read text = .error text := by
  rw [read, readRun_of_error (Simple.exists_read_eq_error h)]

end Compound

/-! ### Chains -/

/-- What a simple selector begins with is no blank, and none of the signs between
selectors. So what stands between compounds and selectors is never taken for a part of
them. -/
theorem startsSimple_eq_false {c : Char}
    (h : isBlank c ∨ c = '>' ∨ c = '+' ∨ c = '~' ∨ c = ',' ∨ c = '\x7b') :
    startsSimple c = false := by
  simp only [isBlank, Bool.or_eq_true, beq_iff_eq] at h
  rcases h with (((rfl | rfl) | rfl) | rfl) | rfl | rfl | rfl | rfl | rfl <;> decide

/-- Where a simple selector begins there are no blanks to skip. -/
theorem skipBlanks_of_startsSimple {c : Char} (hc : startsSimple c) (rest : List Char) :
    skipBlanks (c :: rest) = c :: rest := by
  refine skipBlanks_eq_self fun d hd => ?_
  cases hd
  rw [Bool.eq_false_iff]
  intro hblank
  rw [startsSimple_eq_false (.inl hblank)] at hc
  cases hc

/-- A combinator is read from its written form, up to the compound behind it. The
compound is needed: a blank is a combinator just if no sign stands behind it. -/
theorem Combinator.read?_text {combinator : Combinator} (h : combinator ≠ .none) {c : Char}
    (hc : startsSimple c) (rest : List Char) :
    Combinator.read? (combinator.text.toList ++ c :: rest) = some (combinator, c :: rest) := by
  have hne : ∀ {d : Char}, isBlank d ∨ d = '>' ∨ d = '+' ∨ d = '~' ∨ d = ',' ∨ d = '\x7b' →
      c ≠ d := by
    rintro d hd rfl
    rw [startsSimple_eq_false hd] at hc
    cases hc
  have hskip : skipBlanks (c :: rest) = c :: rest := skipBlanks_of_startsSimple hc rest
  cases combinator with
  | none => exact absurd rfl h
  -- Its written form is a blank, which is read as one when none of the signs has been
  -- found.
  | descendant =>
    have htext : skipBlanks (Combinator.descendant.text.toList ++ c :: rest) = c :: rest := hskip
    unfold Combinator.read?
    rw [htext]
    split
    · exact absurd (List.cons.inj ‹_›).1 (hne (by simp))
    · exact absurd (List.cons.inj ‹_›).1 (hne (by simp))
    · exact absurd (List.cons.inj ‹_›).1 (hne (by simp))
    · simp [Combinator.text]
  | child => exact congrArg (fun text => some (Combinator.child, text)) hskip
  | adjacent => exact congrArg (fun text => some (Combinator.adjacent, text)) hskip
  | general => exact congrArg (fun text => some (Combinator.general, text)) hskip

/-- Behind a selector there is nothing, or, perhaps behind blanks, a comma or an
opening brace. Blanks would be taken for a combinator, but are not, since no compound
stands behind them. -/
def EndsChain (text : List Char) : Prop :=
  ∀ c ∈ (skipBlanks text).head?, c = ',' ∨ c = '\x7b'

/-- No compound stands behind a selector, blanks or none. So the reader of parts finds
nothing to go on with. -/
theorem EndsChain.startsSimple_skipBlanks (h : EndsChain text) :
    ∀ c ∈ (skipBlanks text).head?, startsSimple c = false := by
  intro c hc
  rcases h c hc with rfl | rfl <;> decide

/-- No sign that is a combinator stands behind a selector, blanks or none. Both marks
that may stand there, a comma and a brace, are no combinators. -/
theorem EndsChain.ne_sign (h : EndsChain text) :
    ∀ c ∈ (skipBlanks text).head?, c ≠ '>' ∧ c ≠ '+' ∧ c ≠ '~' := by
  intro c hc
  rcases h c hc with rfl | rfl <;> decide

/-- The last compound of a selector ends with it: what stands right behind it is a
blank, or what ends the selector. -/
theorem EndsChain.startsSimple (h : EndsChain text) :
    ∀ c ∈ text.head?, startsSimple c = false := by
  intro c hc
  cases hblank : isBlank c with
  | true => exact startsSimple_eq_false (.inl hblank)
  | false =>
    refine h.startsSimple_skipBlanks c ?_
    rw [skipBlanks_eq_self]
    · exact hc
    · intro d hd
      cases hc.symm.trans hd
      exact hblank

namespace Chain

/-- The values in the selector are written as they are read, in every one of its
compounds. -/
def HasPlainValues (selector : Chain) : Prop :=
  ∀ part ∈ selector.parts, part.compound.HasPlainValues

/-- The selector that is read from what is written. Combinators are read as they are. -/
def reread (selector : Chain) : Chain :=
  ⟨selector.parts.map fun part => { part with compound := part.compound.reread }⟩

/-- A selector is read again as it was just if the values in it are. Combinators are
read as they were written. -/
theorem reread_eq_self_iff {selector : Chain} :
    selector.reread = selector ↔ selector.HasPlainValues := by
  obtain ⟨parts⟩ := selector
  have hpart : ∀ part : Part, (⟨part.compound.reread, part.combinator⟩ : Part) = part
      ↔ part.compound.HasPlainValues := by
    -- A part stays as it is just if its compound does, as its combinator always does.
    rintro ⟨compound, combinator⟩
    simp [Compound.reread_eq_self_iff]
  simp [reread, HasPlainValues, map_eq_self_iff, hpart]

/-- Where neither a sign nor a compound follows, no further part is read. Blanks may
be there, and are left with the rest. -/
theorem readParts_end (compound : Compound)
    (hsign : ∀ c ∈ (skipBlanks text).head?, c ≠ '>' ∧ c ≠ '+' ∧ c ≠ '~')
    (h : ∃ left, Compound.read (skipBlanks text) = .error left) :
    readParts compound text = ([⟨compound, .none⟩], text) := by
  have hcombinator : ∀ combinator after, Combinator.read? text = some (combinator, after) →
      after = skipBlanks text := by
    intro combinator after hread
    unfold Combinator.read? at hread
    split at hread
    · exact absurd rfl (hsign _ (by rw [‹skipBlanks text = _›]; rfl)).1
    · exact absurd rfl (hsign _ (by rw [‹skipBlanks text = _›]; rfl)).2.1
    · exact absurd rfl (hsign _ (by rw [‹skipBlanks text = _›]; rfl)).2.2
    · split at hread
      · cases hread
        rfl
      · cases hread
  -- If blanks are taken for a combinator, no compound stands behind them.
  obtain ⟨left, hleft⟩ := h
  rw [readParts]
  split
  · rfl
  · rename_i combinator after hread
    split
    · rfl
    · rename_i hnext
      rw [hcombinator combinator after hread, hleft] at hnext
      cases hnext

/-- Behind a combinator the chain goes on. What is read there is a chain of its own,
so that reading a selector can be followed by induction on its parts. -/
theorem readParts_of_read {compound : Compound} {combinator : Combinator} {parts : List Part}
    {after : List Char} (hcombinator : Combinator.read? text = some (combinator, after))
    (h : Chain.read after = .ok (⟨parts⟩, rest)) :
    readParts compound text = (⟨compound, combinator⟩ :: parts, rest) := by
  unfold Chain.read at h
  -- The reader has found this combinator and this compound, so only one branch is left.
  split at h
  · cases h
  · rename_i next left hnext
    rw [readParts]
    split
    · rename_i hread
      rw [hcombinator] at hread
      cases hread
    · rename_i hread
      rw [hcombinator] at hread
      cases hread
      split
      · rename_i hfail
        rw [hnext] at hfail
        cases hfail
      · rename_i hok
        rw [hnext] at hok
        cases hok
        cases h
        rfl

/-- A selector is written as its first compound, the combinator behind it, and the
rest of the selector. -/
theorem toList_text_cons (part : Part) (parts : List Part) :
    (Chain.text ⟨part :: parts⟩).toList
      = (Compound.text part.compound).toList
        ++ (part.combinator.text.toList ++ (Chain.text ⟨parts⟩).toList) := by
  simp [Chain.text, Part.text]

/-- A selector begins like its first compound. A reader can tell by this character
that a selector begins, and that no blank stands in front of it. -/
theorem exists_cons_text {selector : Chain} (h : selector.WellFormed) :
    ∃ c tail, selector.text.toList = c :: tail ∧ startsSimple c := by
  obtain ⟨parts⟩ := selector
  have hhead : ∀ {compound : Compound} {combinator : Combinator} {more : List Part},
      compound.WellFormed → ∃ c tail,
        (Chain.text ⟨⟨compound, combinator⟩ :: more⟩).toList = c :: tail ∧ startsSimple c := by
    intro compound combinator more hcompound
    obtain ⟨c, tail, htext, hc⟩ := Compound.exists_cons_text hcompound
    exact ⟨c, _, by rw [toList_text_cons, htext]; rfl, hc⟩
  cases (h : PartsWellFormed parts) with
  | last hcompound => exact hhead hcompound
  | cons hcompound => exact hhead hcompound

/-- A selector is read from its written form, up to a comma or an opening brace. The
induction is on the parts, of which all but the last have a combinator: the compound
is read up to that, and the last one up to the end of the selector. -/
theorem read_text {selector : Chain} (h : selector.WellFormed) (hrest : EndsChain rest) :
    read (selector.text.toList ++ rest) = .ok (selector.reread, rest) := by
  obtain ⟨parts⟩ := selector
  have hparts : PartsWellFormed parts := h
  clear h
  induction hparts with
  | @last compound hcompound =>
    have htext : (Chain.text ⟨[⟨compound, .none⟩]⟩).toList = (Compound.text compound).toList := by
      simp [Chain.text, Part.text, Combinator.text]
    rw [read, htext, Compound.read_text hcompound hrest.startsSimple]
    dsimp only
    rw [readParts_end compound.reread hrest.ne_sign
      ⟨_, Compound.read_eq_error hrest.startsSimple_skipBlanks⟩]
    rfl
  | @cons compound combinator parts hcompound hcombinator hparts ih =>
    have hselector : (⟨parts⟩ : Chain).WellFormed := hparts
    obtain ⟨c, tail, htext, hc⟩ := exists_cons_text hselector
    have hafter := ih
    rw [htext, List.cons_append] at hafter
    have hread := Combinator.read?_text hcombinator hc (tail ++ rest)
    -- A combinator is written with a space in front.
    have hspace : ∀ d ∈ (combinator.text.toList ++ c :: (tail ++ rest)).head?,
        startsSimple d = false := by
      intro d hd
      cases combinator with
      | none => exact absurd rfl hcombinator
      | _ => cases hd; decide
    rw [read, toList_text_cons, htext, List.append_assoc, List.append_assoc, List.cons_append,
      Compound.read_text hcompound hspace]
    dsimp only
    rw [readParts_of_read hread hafter]
    rfl

end Chain

/-! ### Lists -/

/-- Further selectors, each behind a comma and a space. This form has the comma ahead
of each selector, as reading has it, and the written list has it in between. -/
def moreText (selectors : List Chain) : List Char :=
  selectors.flatMap fun selector => ',' :: ' ' :: selector.text.toList

/-- A list is written as its first selector and the further ones. The reader of lists
has the same form: one selector, and then those behind commas. -/
theorem toList_listText_cons (selector : Chain) (selectors : List Chain) :
    (listText (selector :: selectors)).toList = selector.text.toList ++ moreText selectors := by
  induction selectors generalizing selector with
  | nil => simp [listText, moreText]
  | cons next selectors ih =>
    have hcomma : (", " : String).toList = [',', ' '] := rfl
    have hnext := ih next
    simp only [listText, List.map_cons] at hnext ⊢
    rw [String.intercalate_cons_cons, String.toList_append, String.toList_append, hnext, hcomma]
    simp [moreText]

/-- A selector behind a comma is read, and then further ones. The equation has the
reader on both sides, so that an induction can use it. -/
theorem readMore_of_read {after : List Char} {selector : Chain}
    (hcomma : skipBlanks text = ',' :: after)
    (h : Chain.read (skipBlanks after) = .ok (selector, rest)) :
    readMore text = (selector :: (readMore rest).1, (readMore rest).2) := by
  rw [readMore]
  -- The comma and the selector are known, and with them the branch that is taken.
  split
  · rename_i hskip
    rw [hcomma] at hskip
    cases hskip
    split
    · rename_i hfail
      rw [h] at hfail
      cases hfail
    · rename_i hok
      rw [h] at hok
      cases hok
      rfl
  · rename_i hnot
    exact absurd hcomma (hnot after)

/-- Where no comma follows, there are no further selectors, and blanks are left with
the rest. -/
theorem readMore_end (h : ∀ c ∈ (skipBlanks text).head?, c ≠ ',') : readMore text = ([], text) := by
  rw [readMore]
  split
  · rename_i hskip
    rw [hskip] at h
    exact absurd rfl (h _ rfl)
  · rfl

/-- A selector ends where further ones are written, or where the list ends. In the one
case a comma stands there, in the other what ends the list. -/
theorem endsChain_moreText (selectors : List Chain)
    (hrest : ∀ c ∈ (skipBlanks rest).head?, c = '\x7b') :
    EndsChain (moreText selectors ++ rest) := by
  cases selectors with
  | nil => exact fun c hc => .inr (hrest c hc)
  | cons selector selectors => exact fun c hc => .inl (Option.mem_some.1 hc).symm

/-- Further selectors are read from their written form. Each one ends at the comma of
the next, or at the end of the list. -/
theorem readMore_text {selectors : List Chain} (h : ∀ s ∈ selectors, s.WellFormed)
    (hrest : ∀ c ∈ (skipBlanks rest).head?, c = '\x7b') :
    readMore (moreText selectors ++ rest) = (selectors.map Chain.reread, rest) := by
  induction selectors with
  | nil => exact readMore_end fun c hc => hrest c hc ▸ by decide
  | cons selector selectors ih =>
    obtain ⟨hselector, hmore⟩ := List.forall_mem_cons.1 h
    obtain ⟨c, tail, htext, hc⟩ := Chain.exists_cons_text hselector
    have hread := Chain.read_text hselector (endsChain_moreText selectors hrest)
    have hskip : skipBlanks (' ' :: (selector.text.toList ++ (moreText selectors ++ rest)))
        = selector.text.toList ++ (moreText selectors ++ rest) := by
      rw [htext]
      exact skipBlanks_of_startsSimple hc _
    -- The selector that is read is followed by the further ones, for which the induction
    -- speaks.
    have hall : moreText (selector :: selectors) ++ rest
        = ',' :: ' ' :: (selector.text.toList ++ (moreText selectors ++ rest)) := by
      simp [moreText]
    rw [hall, readMore_of_read (skipBlanks_eq_self fun d hd => by cases hd; decide)
      (hskip ▸ hread), ih hmore]
    rfl

/-- A list of selectors is read from its written form, up to an opening brace or the end.
There has to be a selector in it, as no list is read from nothing. -/
theorem readList_text {selectors : List Chain} (hne : selectors ≠ [])
    (h : ∀ s ∈ selectors, s.WellFormed) (hrest : ∀ c ∈ (skipBlanks rest).head?, c = '\x7b') :
    readList ((listText selectors).toList ++ rest) = .ok (selectors.map Chain.reread, rest) := by
  cases selectors with
  | nil => exact absurd rfl hne
  | cons selector selectors =>
    obtain ⟨hselector, hmore⟩ := List.forall_mem_cons.1 h
    obtain ⟨c, tail, htext, hc⟩ := Chain.exists_cons_text hselector
    have hread := Chain.read_text hselector (endsChain_moreText selectors hrest)
    have hskip : skipBlanks (selector.text.toList ++ (moreText selectors ++ rest))
        = selector.text.toList ++ (moreText selectors ++ rest) := by
      rw [htext]
      exact skipBlanks_of_startsSimple hc _
    rw [readList, toList_listText_cons, List.append_assoc, hskip, hread]
    dsimp only
    rw [readMore_text hmore hrest]
    rfl

/-- Nothing but values changes when selectors are read again. So the list is the same
just if all its values are. -/
theorem map_reread_eq_self_iff {selectors : List Chain} :
    selectors.map Chain.reread = selectors ↔ ∀ s ∈ selectors, s.HasPlainValues := by
  simp [map_eq_self_iff, Chain.reread_eq_self_iff]

/-- Selectors that are all of a text are read again from their written form, all of it. They are
the same if no value is changed by trimming and unquoting it once more, and otherwise they are
not. -/
theorem readList_listText {selectors : List Chain} (h : readList text = .ok (selectors, [])) :
    readList (listText selectors).toList = .ok (selectors.map Chain.reread, [])
      ∧ (readList (listText selectors).toList = .ok (selectors, [])
        ↔ ∀ s ∈ selectors, s.HasPlainValues) := by
  obtain ⟨hne, hselectors⟩ := wellFormed_of_readList h
  have hread : readList ((listText selectors).toList ++ [])
      = .ok (selectors.map Chain.reread, []) :=
    readList_text hne hselectors fun c hc => by cases hc
  rw [List.append_nil] at hread
  refine ⟨hread, ?_⟩
  rw [hread, ← map_reread_eq_self_iff]
  simp

/-- Quotes and blanks around them go for good when they are read first, and
combinators are written in one way. The value has no quotes then, and is read again as
it is. -/
theorem readList_listText_quoted :
    ∃ selectors,
      readList "div>.a [ state | size = \"large\" ]  ,&:hover".toList = .ok (selectors, [])
      ∧ listText selectors = "div > .a [state|size=large], &:hover"
      ∧ readList (listText selectors).toList = .ok (selectors, []) := by
  let large : Attribute := ⟨some "state", "size", some "large"⟩
  let selectors : List Chain :=
    [⟨[⟨[.type "div"], .child⟩, ⟨[.cls "a"], .descendant⟩, ⟨[.attr large], .none⟩]⟩,
      ⟨[⟨[.parent, .pseudoClass "hover"], .none⟩]⟩]
  have h : readList "div>.a [ state | size = \"large\" ]  ,&:hover".toList
      = .ok (selectors, []) := by decide +kernel
  exact ⟨selectors, h, by decide +kernel,
    (readList_listText h).1.trans (by decide +kernel)⟩

/-- The written form leaves out quotes that the value needs: the blank in front of it
is read as part of the value within them, and trimmed off without. So the condition on
values cannot be left out. -/
theorem readList_listText_blank :
    ∃ selectors again, readList "[a=\" b\"]".toList = .ok (selectors, [])
      ∧ listText selectors = "[a= b]" ∧ readList (listText selectors).toList = .ok (again, [])
      ∧ selectors ≠ again := by
  let withValue (value : String) : List Chain :=
    [⟨[⟨[.attr ⟨none, "a", some value⟩], .none⟩]⟩]
  exact ⟨withValue " b", withValue "b", by decide +kernel, by decide +kernel, by decide +kernel,
    by decide +kernel⟩

end BlockStyles.Selector
