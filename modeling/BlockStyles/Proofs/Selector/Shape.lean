import BlockStyles.Proofs.Text.Blanks
import BlockStyles.Proofs.Text.Identifiers
import BlockStyles.Selector.Reader
import Mathlib.Data.List.Chain
import Mathlib.Data.List.TakeWhile

/-!
# `BlockStyles.Proofs.Selector.Shape`: the shape of selectors that have been read

Reading cuts a text where marks stand, so what it makes of a text does not hold these
marks: names are identifiers, the parts of an attribute are trimmed, an element type
does not come right behind a name, and nothing but the last compound of a selector is
without a combinator. This is what lets the written form of a selector be read again.

* `Attribute.wellFormed_ofContent`: what stands between two brackets makes a well-formed
  attribute.
* `Simple.read_eq_ok_iff`: what a simple selector is read from.
* `Chain.wellFormed_of_read`, `wellFormed_of_readList`: selectors that have been read are
  well formed.
-/

set_option autoImplicit false

namespace BlockStyles.Selector

open BlockStyles.Text

/-! ### Attributes -/

/-- The parts of an attribute are trimmed and do not hold the marks that they end at.
Nothing is said about the trimming of the value, since it may have been quoted. -/
structure Attribute.WellFormed (attr : Attribute) : Prop where
  trim_space : ∀ space ∈ attr.space, trim space.toList = space.toList
  trim_name : trim attr.name.toList = attr.name.toList
  bar_space : ∀ space ∈ attr.space, '|' ∉ space.toList
  /-- Only a name behind a namespace can hold a bar. -/
  bar_name : attr.space = none → '|' ∉ attr.name.toList
  equals_space : ∀ space ∈ attr.space, '=' ∉ space.toList
  equals_name : '=' ∉ attr.name.toList
  bracket_space : ∀ space ∈ attr.space, ']' ∉ space.toList
  bracket_name : ']' ∉ attr.name.toList
  bracket_value : ∀ value ∈ attr.value, ']' ∉ value.toList

/-- A text that is not cut at a mark does not hold it. -/
theorem not_mem_of_splitFirst_eq_none {mark : Char} {text : List Char}
    (h : splitFirst mark text = none) : mark ∉ text := by
  unfold splitFirst at h
  split at h
  · rename_i hdrop
    intro hmem
    exact absurd (List.dropWhile_eq_nil_iff.1 hdrop mark hmem) (by simp)
  · cases h

/-- What is left of a value without its quotes was in it before. A mark that a value
must not hold is therefore not brought in by taking quotes off. -/
theorem mem_of_mem_unquote {c : Char} {text : List Char} (h : c ∈ unquote text) : c ∈ text := by
  rcases unquote_eq_self_or_quoted text with hself | ⟨quote, -, htext⟩
  · exact hself ▸ h
  · rw [htext]
    exact List.mem_append_left _ (List.mem_cons_of_mem _ h)

/-- The namespace and the name of an attribute, from the text ahead of its value. The
hypotheses are what cutting and trimming have made sure of up to there. A bar ends the namespace,
and without a namespace there is none. -/
theorem Attribute.wellFormed_of_qualified {qualified : List Char} {value : Option (List Char)}
    (htrim : trim qualified = qualified) (hequals : '=' ∉ qualified) (hbracket : ']' ∉ qualified)
    (hvalue : ∀ v ∈ value, ']' ∉ v) {space : Option (List Char)} {name : List Char}
    (h : (match splitFirst '|' qualified with
      | some (space, name) => (some (trim space), trim name)
      | none => (none, qualified)) = (space, name)) :
    Attribute.WellFormed ⟨space.map String.ofList, .ofList name, value.map String.ofList⟩ := by
  -- Whether there is a namespace is decided by the first bar.
  cases hsplit : splitFirst '|' qualified with
  | none =>
    rw [hsplit] at h
    cases h
    constructor <;> simp_all [not_mem_of_splitFirst_eq_none hsplit]
  | some parts =>
    obtain ⟨before, after⟩ := parts
    rw [hsplit] at h
    cases h
    obtain ⟨rfl, hbar⟩ := splitFirst_eq_some hsplit
    -- A mark that is not in the whole text is in neither of its parts, trimmed or not.
    have hbefore : ∀ c, c ∉ before ++ '|' :: after → c ∉ trim before := fun c hc hmem =>
      hc (List.mem_append_left _ (mem_of_mem_trim hmem))
    have hafter : ∀ c, c ∉ before ++ '|' :: after → c ∉ trim after := fun c hc hmem =>
      hc (List.mem_append_right _ (List.mem_cons_of_mem _ (mem_of_mem_trim hmem)))
    have hnobar : '|' ∉ trim before := fun hmem => hbar (mem_of_mem_trim hmem)
    constructor <;> simp_all [trim_trim]

/-- What stands between two brackets is a well-formed attribute. It ends at the first
closing bracket, so there is none in it, and its value stands behind the first equals
sign. -/
theorem Attribute.wellFormed_ofContent {content : List Char} (h : ']' ∉ content) :
    (ofContent content).WellFormed := by
  unfold ofContent
  -- Whether there is a value is decided by the first equals sign.
  cases hsplit : splitFirst '=' content with
  | none =>
    refine wellFormed_of_qualified (trim_trim content) (fun hmem => ?_) (fun hmem => ?_)
      (fun v hv => by cases hv) rfl
    · exact not_mem_of_splitFirst_eq_none hsplit (mem_of_mem_trim hmem)
    · exact h (mem_of_mem_trim hmem)
  | some parts =>
    obtain ⟨before, after⟩ := parts
    obtain ⟨rfl, hequals⟩ := splitFirst_eq_some hsplit
    refine wellFormed_of_qualified (trim_trim before) (fun hmem => ?_) (fun hmem => ?_)
      (fun v hv hmem => ?_) rfl
    · exact hequals (mem_of_mem_trim hmem)
    · exact h (List.mem_append_left _ (mem_of_mem_trim hmem))
    · cases hv
      exact h (List.mem_append_right _
        (List.mem_cons_of_mem _ (mem_of_mem_trim (mem_of_mem_unquote hmem))))

/-! ### Simple selectors -/

namespace Simple

/-- The mark and the name of a simple selector that has a name. An element type has no
mark. What the five forms have in common is said of these once. -/
def named? : Simple → Option (List Char × String)
  | type name => some ([], name)
  | cls name => some (['.'], name)
  | id name => some (['#'], name)
  | pseudoClass name => some ([':'], name)
  | pseudoElement name => some ([':', ':'], name)
  | universal => none
  | parent => none
  | attr _ => none

/-- The simple selector is read from the front of the text and leaves the rest. A name
goes on as far as it can, so what is left does not begin with a character of names. -/
inductive Reads : List Char → Simple → List Char → Prop where
  | named {simple : Simple} {mark : List Char} {name : String} (rest : List Char)
      (h : simple.named? = some (mark, name)) (hname : isIdentifier name)
      (hrest : ∀ c ∈ rest.head?, isIdentifierChar c = false) :
      Reads (mark ++ (name.toList ++ rest)) simple rest
  | universal (rest : List Char) : Reads ('*' :: rest) .universal rest
  | parent (rest : List Char) : Reads ('&' :: rest) .parent rest
  | attr (content rest : List Char) (h : ']' ∉ content) :
      Reads ('[' :: (content ++ ']' :: rest)) (.attr (.ofContent content)) rest

/-- A name that has been read goes as far as it can. What stands behind it cannot be
taken for a part of the name when the text is read again. -/
theorem isIdentifierChar_head_of_read {text rest : List Char} {name : String}
    (h : Identifier.read text = .ok (name, rest)) :
    ∀ c ∈ rest.head?, isIdentifierChar c = false := by
  unfold Identifier.read at h
  split at h
  · cases h
  · cases h
    have hhead := List.head?_dropWhile_not isIdentifierChar text
    intro c hc
    rw [hc] at hhead
    exact hhead

/-- What has a name is read as its mark and its name, with the way from a name to a
selector given. -/
theorem reads_of_readNamed {start text rest : List Char} {make : String → Simple}
    {simple : Simple} (mark : List Char) (hmake : ∀ name, (make name).named? = some (mark, name))
    (h : readNamed start make text = .ok (simple, rest)) : Reads (mark ++ text) simple rest := by
  unfold readNamed at h
  split at h
  · rename_i name left hread
    cases h
    obtain ⟨htext, hname⟩ := Identifier.read_eq_ok hread
    rw [htext]
    exact .named rest (hmake name) hname (isIdentifierChar_head_of_read hread)
  · cases h

/-- A name is read behind its mark. Which form is read depends on the first two
characters: the marks are all different, and a name begins with none of them. -/
theorem read_named {simple : Simple} {mark rest : List Char} {name : String}
    (h : simple.named? = some (mark, name)) (hname : isIdentifier name)
    (hrest : ∀ c ∈ rest.head?, isIdentifierChar c = false) :
    read (mark ++ (name.toList ++ rest)) = .ok (simple, rest) := by
  have hread (start : List Char) (make : String → Simple) :
      readNamed start make (name.toList ++ rest) = .ok (make name, rest) := by
    rw [readNamed, Identifier.read_append hname hrest]
  have hmark : ∀ (d : Char) (more : List Char), isIdentifierChar d = false →
      name.toList ++ rest ≠ d :: more := by
    intro d more hd heq
    obtain ⟨c, tail, htext, hc⟩ := exists_cons_of_isIdentifier hname
    rw [htext] at heq
    cases (List.cons.inj heq).1
    rw [hd] at hc
    cases hc
  cases simple with
  | universal => cases h
  | parent => cases h
  | attr condition => cases h
  | cls name => cases h; exact hread _ _
  | id name => cases h; exact hread _ _
  | pseudoElement name => cases h; exact hread _ _
  -- A second colon behind the mark would make it a pseudo-element.
  | pseudoClass name =>
    cases h
    rw [List.singleton_append, read.eq_4 _ fun more => hmark ':' more (by decide)]
    exact hread _ _
  -- An element type comes last, when none of the marks has been found in front.
  | type name =>
    cases h
    rw [List.nil_append, read.eq_8 _ (fun more => hmark '.' more (by decide))
      (fun more => hmark '#' more (by decide)) (fun more => hmark ':' (':' :: more) (by decide))
      (fun more => hmark ':' more (by decide)) (fun more => hmark '[' more (by decide))
      (fun more => hmark '&' more (by decide)) (fun more => hmark '*' more (by decide))]
    exact hread _ _

/-- What a simple selector is read from, in both directions. With it nobody needs to
look into the reader again. -/
theorem read_eq_ok_iff {text rest : List Char} {simple : Simple} :
    read text = .ok (simple, rest) ↔ Reads text simple rest := by
  constructor
  · intro h
    unfold read at h
    -- One branch for each mark, and the last for a name without one.
    split at h
    · exact reads_of_readNamed ['.'] (fun _ => rfl) h
    · exact reads_of_readNamed ['#'] (fun _ => rfl) h
    · exact reads_of_readNamed [':', ':'] (fun _ => rfl) h
    · exact reads_of_readNamed [':'] (fun _ => rfl) h
    · unfold readAttribute at h
      split at h
      · rename_i content left hsplit
        cases h
        obtain ⟨rfl, hbracket⟩ := splitFirst_eq_some hsplit
        exact .attr content rest hbracket
      · cases h
    · cases h
      exact .parent rest
    · cases h
      exact .universal rest
    · exact reads_of_readNamed [] (fun _ => rfl) h
  · intro h
    cases h with
    | named _ hnamed hname hrest => exact read_named hnamed hname hrest
    | universal => rfl
    | parent => rfl
    | attr content _ hbracket =>
      rw [read, readAttribute, splitFirst_append _ hbracket]

/-- A colon is no simple selector if neither a name nor a colon comes behind it. This
is how a declaration is told from a selector. -/
theorem exists_read_colon_eq_error {c : Char} {rest : List Char} (hcolon : c ≠ ':')
    (hname : isIdentifierChar c = false) : ∃ left, read (':' :: c :: rest) = .error left := by
  have hidentifier : Identifier.read (c :: rest) = .error (c :: rest) := by
    simp [Identifier.read, hname]
  refine ⟨':' :: c :: rest, ?_⟩
  rw [read.eq_4 _ fun more heq => hcolon (List.cons.inj heq).1, readNamed, hidentifier]

/-- The names in a simple selector are identifiers, and its attribute is well formed. -/
def WellFormed : Simple → Prop
  | type name => isIdentifier name
  | cls name => isIdentifier name
  | id name => isIdentifier name
  | pseudoClass name => isIdentifier name
  | pseudoElement name => isIdentifier name
  | universal => True
  | parent => True
  | attr condition => condition.WellFormed

/-- A selector with a name is well formed just if the name is an identifier. Nothing
else is asked of it, whatever its mark. -/
theorem wellFormed_iff_of_named? {simple : Simple} {mark : List Char} {name : String}
    (h : simple.named? = some (mark, name)) : simple.WellFormed ↔ isIdentifier name := by
  cases simple <;> cases h <;> rfl

/-- Two simple selectors can be written one behind the other: an element type would go
on with the name that it stands behind. -/
def Apart (first second : Simple) : Prop :=
  first.named?.isSome → ∀ name, second ≠ type name

variable {text rest : List Char} {simple : Simple}

/-- A simple selector that has been read is well formed. Names are read as
identifiers, and an attribute ends at its bracket. -/
theorem Reads.wellFormed (h : Reads text simple rest) : simple.WellFormed := by
  cases h with
  | named _ hnamed hname => exact (wellFormed_iff_of_named? hnamed).2 hname
  | universal => trivial
  | parent => trivial
  | attr content _ hbracket => exact Attribute.wellFormed_ofContent hbracket

/-- Two that are read one behind the other can be written so. Behind a name no
character of names is left, with which an element type would begin. -/
theorem Reads.apart {next : Simple} {left : List Char} (h : Reads text simple rest)
    (hnext : Reads rest next left) : simple.Apart next := by
  intro hsome name hname
  subst hname
  cases h with
  | named _ hnamed _ hrest =>
    cases hnext with
    | named _ htype hidentifier =>
      cases htype
      obtain ⟨c, tail, htext, hc⟩ := exists_cons_of_isIdentifier hidentifier
      rw [hrest c (by rw [htext]; rfl)] at hc
      cases hc
  | universal => cases hsome
  | parent => cases hsome
  | attr => cases hsome

end Simple

/-! ### Compounds and chains -/

/-- A compound has a simple selector, and its simple selectors can be written one
behind the other. It is what reading makes sure of and writing needs. -/
structure Compound.WellFormed (compound : Compound) : Prop where
  ne_nil : compound ≠ []
  simples : ∀ simple ∈ compound, simple.WellFormed
  apart : compound.IsChain Simple.Apart

namespace Compound

variable {text rest : List Char} {simple : Simple}

/-- A run goes on behind a simple selector that can be read. As an equation it lets a
proof unroll a run, one simple selector at a time. -/
theorem readRun_of_read (h : Simple.read text = .ok (simple, rest)) :
    readRun text = (simple :: (readRun rest).1, (readRun rest).2) := by
  rw [readRun]
  split
  · rename_i hfail
    rw [h] at hfail
    cases hfail
  · rename_i hok
    rw [h] at hok
    cases hok
    rfl

/-- A run ends where no simple selector can be read. What is left is the text in front
of that place, with nothing taken off. -/
theorem readRun_of_error (h : ∃ left, Simple.read text = .error left) :
    readRun text = ([], text) := by
  obtain ⟨left, h⟩ := h
  rw [readRun]
  split
  · rfl
  · rename_i hok
    rw [h] at hok
    cases hok

/-- The simple selectors of a run are well formed and apart. For the latter it is said
as well that the first of them was read at the front, which is what the one ahead of
it has to know. -/
theorem wellFormed_readRun (text : List Char) :
    (∀ simple ∈ (readRun text).1, simple.WellFormed)
      ∧ (readRun text).1.IsChain Simple.Apart
      ∧ ∀ simple ∈ (readRun text).1.head?, ∃ rest, Simple.Reads text simple rest := by
  fun_induction readRun text with
  | case1 => exact ⟨fun simple h => (by cases h), .nil, fun simple h => (by cases h)⟩
  | case2 text simple rest hread _ more left hrun ih =>
    rw [hrun] at ih
    obtain ⟨hsimples, hapart, hhead⟩ := ih
    have hreads := Simple.read_eq_ok_iff.1 hread
    refine ⟨List.forall_mem_cons.2 ⟨hreads.wellFormed, hsimples⟩, ?_, ?_⟩
    · refine List.isChain_cons.2 ⟨fun next hnext => ?_, hapart⟩
      obtain ⟨after, hafter⟩ := hhead next hnext
      exact hreads.apart hafter
    · intro first hfirst
      cases hfirst
      exact ⟨rest, hreads⟩

/-- A compound that has been read is well formed. It is not empty, since that is
refused. -/
theorem wellFormed_of_read {compound : Compound} (h : read text = .ok (compound, rest)) :
    compound.WellFormed := by
  obtain ⟨hsimples, hapart, -⟩ := wellFormed_readRun text
  unfold read at h
  split at h
  · cases h
  · rename_i hne heq
    cases h
    rw [heq] at hsimples hapart
    exact ⟨fun hnil => hne (hnil ▸ rfl), hsimples, hapart⟩

end Compound

/-- The parts of a selector: every compound but the last has a combinator behind it.
So there is a compound at the least, and the selector can be written. -/
inductive PartsWellFormed : List Part → Prop where
  | last {compound : Compound} (h : compound.WellFormed) : PartsWellFormed [⟨compound, .none⟩]
  | cons {compound : Compound} {combinator : Combinator} {parts : List Part}
      (h : compound.WellFormed) (hcombinator : combinator ≠ .none)
      (hparts : PartsWellFormed parts) : PartsWellFormed (⟨compound, combinator⟩ :: parts)

/-- The selector has the shape of one that has been read. -/
def Chain.WellFormed (selector : Chain) : Prop :=
  PartsWellFormed selector.parts

/-- A combinator that is read is one. Blanks alone stand for the descendant
combinator, and no blanks for none at all. -/
theorem Combinator.ne_none_of_read? {text rest : List Char} {combinator : Combinator}
    (h : Combinator.read? text = some (combinator, rest)) : combinator ≠ .none := by
  unfold Combinator.read? at h
  split at h
  · cases h
    exact nofun
  · cases h
    exact nofun
  · cases h
    exact nofun
  · split at h
    · cases h
      exact nofun
    · cases h

/-- The chain behind a compound has the shape of parts. It ends with a compound that
nothing follows, and up to there each one has the combinator that was read. -/
theorem Chain.wellFormed_readParts {compound : Compound} (text : List Char)
    (h : compound.WellFormed) : PartsWellFormed (readParts compound text).1 := by
  fun_induction readParts compound text with
  | case1 => exact .last h
  | case2 => exact .last h
  | case3 compound text combinator after hc next rest hn _ parts left hparts ih =>
    rw [hparts] at ih
    exact .cons h (Combinator.ne_none_of_read? hc) (ih (Compound.wellFormed_of_read hn))

/-- A selector that has been read is well formed. It has a first compound, and each
further one was read behind a combinator. -/
theorem Chain.wellFormed_of_read {text rest : List Char} {selector : Chain}
    (h : read text = .ok (selector, rest)) : selector.WellFormed := by
  unfold read at h
  split at h
  · cases h
  · rename_i compound left hread
    cases h
    exact wellFormed_readParts left (Compound.wellFormed_of_read hread)

/-- The further selectors of a list are well formed, each read behind its comma. -/
theorem wellFormed_readMore (text : List Char) : ∀ s ∈ (readMore text).1, s.WellFormed := by
  fun_induction readMore text with
  | case1 => exact fun s hs => by cases hs
  | case2 text after hc selector rest hn _ more left hmore ih =>
    rw [hmore] at ih
    exact List.forall_mem_cons.2 ⟨Chain.wellFormed_of_read hn, ih⟩
  | case3 => exact fun s hs => by cases hs

/-- A list of selectors that has been read is not empty, and its selectors are well
formed. This is what the written form of the list needs to be read again. -/
theorem wellFormed_of_readList {text rest : List Char} {selectors : List Chain}
    (h : readList text = .ok (selectors, rest)) :
    selectors ≠ [] ∧ ∀ selector ∈ selectors, selector.WellFormed := by
  unfold readList at h
  split at h
  · cases h
  · rename_i selector left hread
    have hmore := wellFormed_readMore left
    cases h
    exact ⟨List.cons_ne_nil _ _, List.forall_mem_cons.2 ⟨Chain.wellFormed_of_read hread, hmore⟩⟩

end BlockStyles.Selector
