import BlockStyles.Selector.Basic
import BlockStyles.Text.Blank
import BlockStyles.Text.Identifier
import BlockStyles.Text.Quoted
import BlockStyles.Text.Split

/-!
# `BlockStyles.Selector.Reader`: reading selectors

Each form of selector is read from the front of a text, and as much of the text
as belongs to it is taken. Blanks end a compound: `.a .b` is two of them. A
complex selector stops before blanks or a combinator that no compound follows,
so what trails behind a selector is left for whoever reads next.

Every reader drops a front part of the text and nothing else (the `_shorter`
lemmas), which is why reading ends.
-/

set_option autoImplicit false

namespace BlockStyles.Selector

open BlockStyles.Text

/-! ### Simple selectors -/

/-- The attribute written between two brackets: a value behind the first `=`,
a namespace before the first `|` of what stands ahead of it, all trimmed, and
the value without quotes. -/
def Attribute.ofContent (content : List Char) : Attribute :=
  let (qualified, value) :=
    match splitFirst '=' content with
    | some (qualified, value) => (trim qualified, some (unquote (trim value)))
    | none => (trim content, none)
  let (space, name) :=
    match splitFirst '|' qualified with
    | some (space, name) => (some (trim space), trim name)
    | none => (none, qualified)
  { space := space.map String.ofList, name := .ofList name, value := value.map String.ofList }

namespace Simple

/-- Reads an identifier and makes a simple selector of it; where there is none,
reading stopped at `start`. -/
def readNamed (start : List Char) (make : String → Simple) (text : List Char) : Reading Simple :=
  match Identifier.read text with
  | .ok (name, rest) => .ok (make name, rest)
  | .error _ => .error start

/-- Reads an attribute selector whose opening bracket has been read: everything
up to the next closing bracket is its content. -/
def readAttribute (start text : List Char) : Reading Simple :=
  match splitFirst ']' text with
  | some (content, rest) => .ok (.attr (.ofContent content), rest)
  | none => .error start

/-- Reads a simple selector. The first character, and a second colon, tell
which one it is. -/
def read (text : List Char) : Reading Simple :=
  match text with
  | '.' :: rest => readNamed text .cls rest
  | '#' :: rest => readNamed text .id rest
  -- Two colons come before one.
  | ':' :: ':' :: rest => readNamed text .pseudoElement rest
  | ':' :: rest => readNamed text .pseudoClass rest
  | '[' :: rest => readAttribute text rest
  | '&' :: rest => .ok (.parent, rest)
  | '*' :: rest => .ok (.universal, rest)
  | _ => readNamed text .type text

/-- What is left behind a named selector is a proper end of the text. The
identifier takes at least one character, whatever is made of it. -/
theorem readNamed_shorter {start text rest : List Char} {make : String → Simple} {simple : Simple}
    (h : readNamed start make text = .ok (simple, rest)) :
    rest <:+ text ∧ rest.length < text.length := by
  unfold readNamed at h
  split at h
  · rename_i name left hread
    simp only [Except.ok.injEq, Prod.mk.injEq] at h
    obtain ⟨-, rfl⟩ := h
    exact Identifier.read_shorter hread
  · cases h

/-- What is left behind an attribute is a proper end of the text, as the
closing bracket has been read at least. The content may be empty. -/
theorem readAttribute_shorter {start text rest : List Char} {simple : Simple}
    (h : readAttribute start text = .ok (simple, rest)) :
    rest <:+ text ∧ rest.length < text.length := by
  unfold readAttribute at h
  split at h
  · rename_i content left hsplit
    simp only [Except.ok.injEq, Prod.mk.injEq] at h
    obtain ⟨-, rfl⟩ := h
    obtain ⟨rfl, -⟩ := splitFirst_eq_some hsplit
    exact ⟨⟨content ++ [']'], by simp⟩, by simp only [List.length_append, List.length_cons]; omega⟩
  · cases h

/-- A character in front of a text changes nothing about what is left of it. -/
private theorem shorter_cons {c : Char} {text rest : List Char}
    (h : rest <:+ text ∧ rest.length < text.length) :
    rest <:+ c :: text ∧ rest.length < (c :: text).length :=
  ⟨h.1.trans (List.suffix_cons c text), by simp only [List.length_cons]; omega⟩

/-- What is left behind a simple selector is a proper end of the text. Every
form takes a character: the mark it begins with, or the first one of a type's
name. -/
theorem read_shorter {text rest : List Char} {simple : Simple}
    (h : read text = .ok (simple, rest)) : rest <:+ text ∧ rest.length < text.length := by
  unfold read at h
  split at h
  · exact shorter_cons (readNamed_shorter h)
  · exact shorter_cons (readNamed_shorter h)
  · exact shorter_cons (shorter_cons (readNamed_shorter h))
  · exact shorter_cons (readNamed_shorter h)
  · exact shorter_cons (readAttribute_shorter h)
  · simp only [Except.ok.injEq, Prod.mk.injEq] at h
    exact ⟨h.2 ▸ List.suffix_cons _ _, by simp [h.2]⟩
  · simp only [Except.ok.injEq, Prod.mk.injEq] at h
    exact ⟨h.2 ▸ List.suffix_cons _ _, by simp [h.2]⟩
  · exact readNamed_shorter h

end Simple

/-! ### Compound selectors -/

namespace Compound

/-- Reads simple selectors for as long as there are any. -/
def readRun (text : List Char) : Compound × List Char :=
  match h : Simple.read text with
  | .error _ => ([], text)
  | .ok (simple, rest) =>
    have : rest.length < text.length := (Simple.read_shorter h).2
    let (more, left) := readRun rest
    (simple :: more, left)
termination_by text.length

/-- Reads a compound selector: at least one simple selector. -/
def read (text : List Char) : Reading Compound :=
  match readRun text with
  | ([], _) => .error text
  | (compound, rest) => .ok (compound, rest)

/-- What is left behind a run is an end of the text. The run may be empty, so
it need not be a proper one. -/
theorem readRun_suffix (text : List Char) : (readRun text).2 <:+ text := by
  fun_induction readRun text with
  | case1 => exact List.suffix_rfl
  | case2 text simple rest h _ more left hrun ih =>
    rw [hrun] at ih
    exact ih.trans (Simple.read_shorter h).1

/-- Behind a run that is not empty less is left than there was, since its
first simple selector has taken something. -/
theorem readRun_length {text : List Char} (h : (readRun text).1 ≠ []) :
    (readRun text).2.length < text.length := by
  revert h
  fun_cases readRun text with
  | case1 => exact fun h => absurd rfl h
  | case2 simple rest hread hlength more left hrun =>
    intro _
    have := (readRun_suffix rest).length_le
    rw [hrun] at this
    exact Nat.lt_of_le_of_lt this hlength

/-- What is left behind a compound is a proper end of the text, for a
compound is a run that is not empty. -/
theorem read_shorter {text rest : List Char} {compound : Compound}
    (h : read text = .ok (compound, rest)) : rest <:+ text ∧ rest.length < text.length := by
  unfold read at h
  have hsuffix := readRun_suffix text
  have hlength := @readRun_length text
  split at h
  · cases h
  · rename_i c r hne hrun
    simp only [Except.ok.injEq, Prod.mk.injEq] at h
    obtain ⟨rfl, rfl⟩ := h
    rw [hrun] at hsuffix hlength
    exact ⟨hsuffix, hlength (fun hc => hne (hc ▸ rfl))⟩

end Compound

/-! ### Complex selectors -/

/-- Reads what stands between two compounds: a symbol with or without blanks
around it, or blanks alone, which mean a descendant. -/
def Combinator.read? (text : List Char) : Option (Combinator × List Char) :=
  match skipBlanks text with
  | '>' :: rest => some (.child, skipBlanks rest)
  | '+' :: rest => some (.adjacent, skipBlanks rest)
  | '~' :: rest => some (.general, skipBlanks rest)
  | rest => if rest.length < text.length then some (.descendant, rest) else Option.none

/-- What is left behind a combinator is an end of the text. That it is a
proper one is not needed: a compound follows, and that takes something. -/
theorem Combinator.read?_suffix {text rest : List Char} {combinator : Combinator}
    (h : Combinator.read? text = some (combinator, rest)) : rest <:+ text := by
  have hskip := skipBlanks_suffix text
  -- The three symbols are treated alike, with the blanks on both sides of them.
  have symbol {c : Char} {after : List Char} (heq : skipBlanks text = c :: after) :
      skipBlanks after <:+ text :=
    (skipBlanks_suffix after).trans ((List.suffix_cons c after).trans (heq ▸ hskip))
  unfold Combinator.read? at h
  split at h
  · rename_i heq
    cases h
    exact symbol heq
  · rename_i heq
    cases h
    exact symbol heq
  · rename_i heq
    cases h
    exact symbol heq
  · split at h
    · cases h
      exact hskip
    · cases h

namespace Chain

/-- The parts from `compound` on, which has just been read: as long as a
combinator and another compound follow, the chain goes on. -/
def readParts (compound : Compound) (text : List Char) : List Part × List Char :=
  match hc : Combinator.read? text with
  | none => ([⟨compound, .none⟩], text)
  | some (combinator, after) =>
    match hn : Compound.read after with
    | .error _ => ([⟨compound, .none⟩], text)
    | .ok (next, rest) =>
      have : rest.length < text.length := by
        have := (Combinator.read?_suffix hc).length_le
        have := (Compound.read_shorter hn).2
        omega
      let (parts, left) := readParts next rest
      (⟨compound, combinator⟩ :: parts, left)
termination_by text.length

/-- Reads a complex selector. -/
def read (text : List Char) : Reading Chain :=
  match Compound.read text with
  | .error left => .error left
  | .ok (compound, rest) =>
    let (parts, left) := readParts compound rest
    .ok (⟨parts⟩, left)

/-- What is left behind the parts of a chain is an end of the text, even where
a combinator has been read in vain and is given back. -/
theorem readParts_suffix (compound : Compound) (text : List Char) :
    (readParts compound text).2 <:+ text := by
  fun_induction readParts compound text with
  | case1 => exact List.suffix_rfl
  | case2 => exact List.suffix_rfl
  | case3 compound text combinator after hc next rest hn _ parts left hparts ih =>
    rw [hparts] at ih
    exact ih.trans ((Compound.read_shorter hn).1.trans (Combinator.read?_suffix hc))

/-- What is left behind a complex selector is a proper end of the text, as
its first compound has taken something. -/
theorem read_shorter {text rest : List Char} {selector : Chain}
    (h : read text = .ok (selector, rest)) : rest <:+ text ∧ rest.length < text.length := by
  unfold read at h
  split at h
  · cases h
  · rename_i compound left hread
    simp only [Except.ok.injEq, Prod.mk.injEq] at h
    obtain ⟨-, rfl⟩ := h
    have hsuffix := readParts_suffix compound left
    have hshort := Compound.read_shorter hread
    exact ⟨hsuffix.trans hshort.1, by have := hsuffix.length_le; omega⟩

end Chain

/-! ### Lists of selectors -/

/-- Reads further selectors, each behind a comma with or without blanks around
it. A comma that no selector follows is left. -/
def readMore (text : List Char) : List Chain × List Char :=
  match hc : skipBlanks text with
  | ',' :: after =>
    match hn : Chain.read (skipBlanks after) with
    | .error _ => ([], text)
    | .ok (selector, rest) =>
      have : rest.length < text.length := by
        have h₁ := (skipBlanks_suffix text).length_le
        have h₂ := (skipBlanks_suffix after).length_le
        have h₃ := (Chain.read_shorter hn).2
        rw [hc] at h₁
        simp only [List.length_cons] at h₁
        omega
      let (more, left) := readMore rest
      (selector :: more, left)
  | _ => ([], text)
termination_by text.length

/-- Reads a list of selectors: at least one, after blanks. -/
def readList (text : List Char) : Reading (List Chain) :=
  match Chain.read (skipBlanks text) with
  | .error left => .error left
  | .ok (selector, rest) =>
    let (more, left) := readMore rest
    .ok (selector :: more, left)

/-- What is left behind further selectors is an end of the text. Where a
comma is followed by no selector, the blanks and the comma are among it. -/
theorem readMore_suffix (text : List Char) : (readMore text).2 <:+ text := by
  fun_induction readMore text with
  | case1 => exact List.suffix_rfl
  | case2 text after hc selector rest hn _ more left hmore ih =>
    rw [hmore] at ih
    have hcomma : after <:+ text := (List.suffix_cons _ _).trans (hc ▸ skipBlanks_suffix text)
    exact ih.trans ((Chain.read_shorter hn).1.trans ((skipBlanks_suffix after).trans hcomma))
  | case3 => exact List.suffix_rfl

/-- What is left behind a list of selectors is a proper end of the text. By
this the body of a rule is shorter than the rule, which is why reading rules
ends. -/
theorem readList_shorter {text rest : List Char} {selectors : List Chain}
    (h : readList text = .ok (selectors, rest)) : rest <:+ text ∧ rest.length < text.length := by
  unfold readList at h
  split at h
  · cases h
  · rename_i selector left hread
    simp only [Except.ok.injEq, Prod.mk.injEq] at h
    obtain ⟨-, rfl⟩ := h
    have hsuffix := readMore_suffix left
    have hshort := Chain.read_shorter hread
    have hskip := skipBlanks_suffix text
    exact ⟨hsuffix.trans (hshort.1.trans hskip), by
      have := hsuffix.length_le
      have := hskip.length_le
      omega⟩

end BlockStyles.Selector
