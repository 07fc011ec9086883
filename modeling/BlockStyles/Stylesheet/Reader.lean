import BlockStyles.Selector.Reader
import BlockStyles.Stylesheet.Flatten
import BlockStyles.Stylesheet.SyntaxError
import BlockStyles.Text.Comment
import BlockStyles.Text.RawValue

/-!
# `BlockStyles.Stylesheet.Reader`: reading stylesheets

A rule is a list of selectors and, between braces, items. Each item is a nested
rule if it reads as one and a declaration otherwise; where neither can be read,
the items end and the closing brace is due. A stylesheet is a sequence of
at-rules and rules, told apart by their first character; the first that cannot
be read makes the whole source invalid, and the place where its reading stopped
is reported.

Comments are blanked before anything is read, so positions are places in the
blanked text.

* `Rule.read_shorter`, `readItems_suffix`: readers only drop a front part of the text.
-/

set_option autoImplicit false

namespace BlockStyles

open BlockStyles.Text
open BlockStyles.Selector (readList readList_shorter)

/-! ### Declarations -/

/-- The end of a value that marks it as important. -/
def importantMark : List Char := ['!', 'i', 'm', 'p', 'o', 'r', 't', 'a', 'n', 't']

/-- A value without the mark of importance at its end, and whether it had one. -/
def splitImportant (value : List Char) : List Char × Bool :=
  if importantMark.isSuffixOf value then
    (trimEnd (value.take (value.length - importantMark.length)), true)
  else
    (value, false)

namespace Declaration

/-- Reads a declaration, with the semicolon behind it if there is one. A mark of
importance alone is no value. -/
def read? (source text : List Char) : Option (Declaration × List Char) :=
  let start := skipBlanks text
  match Identifier.read start with
  | .error _ => none
  | .ok (property, afterProperty) =>
    match skipBlanks afterProperty with
    | ':' :: afterColon =>
      match RawValue.read (skipBlanks afterColon) with
      | .error _ => none
      | .ok (raw, afterValue) =>
        let (value, important) := splitImportant (trim raw)
        if value.isEmpty then
          none
        else
          let declaration : Declaration :=
            { property, value := .ofList value, important, position := .ofSuffix source start }
          -- A raw value ends at a semicolon, a brace or the end of the text.
          match skipBlanks afterValue with
          | ';' :: rest => some (declaration, rest)
          | rest => some (declaration, rest)
    | _ => none

/-- What is left behind a declaration is a proper end of the text, with or
without a semicolon at its end. -/
theorem read?_shorter {source text rest : List Char} {declaration : Declaration}
    (h : read? source text = some (declaration, rest)) :
    rest <:+ text ∧ rest.length < text.length := by
  unfold read? at h
  dsimp only at h
  split at h
  · cases h
  · rename_i property afterProperty hproperty
    split at h
    · rename_i afterColon hcolon
      split at h
      · cases h
      · rename_i raw afterValue hvalue
        -- Each stage of the reading leaves an end of what the stage before it left,
        -- and the property takes at least one character.
        have hstart := skipBlanks_suffix text
        have hident := Identifier.read_shorter hproperty
        have hcolon' : afterColon <:+ afterProperty :=
          (List.suffix_cons _ _).trans (hcolon ▸ skipBlanks_suffix afterProperty)
        have hraw := (RawValue.read_shorter hvalue).1.trans (skipBlanks_suffix afterColon)
        have hskip := skipBlanks_suffix afterValue
        have hall : afterValue <:+ afterProperty := hraw.trans hcolon'
        have hrest : rest <:+ afterValue := by
          split at h
          · cases h
          · split at h
            · rename_i heq
              cases h
              exact (List.suffix_cons _ _).trans (heq ▸ hskip)
            · cases h
              exact hskip
        refine ⟨hrest.trans (hall.trans (hident.1.trans hstart)), ?_⟩
        have := hrest.length_le
        have := hall.length_le
        have := hstart.length_le
        omega
    · cases h

end Declaration

/-! ### Rules -/

mutual

/-- Reads a rule. `source` is the whole text, in which its positions lie. -/
def Rule.read (source text : List Char) : Reading Rule :=
  match hs : readList (skipBlanks text) with
  | .error left => .error left
  | .ok (selectors, afterSelectors) =>
    match hb : skipBlanks afterSelectors with
    | '{' :: body =>
      have : body.length < text.length := by
        have := (skipBlanks_suffix text).length_le
        have := (readList_shorter hs).2
        have := (skipBlanks_suffix afterSelectors).length_le
        simp only [hb, List.length_cons] at this
        omega
      let (items, afterItems) := readItems source body
      match skipBlanks afterItems with
      | '}' :: rest => .ok (⟨selectors, items, .ofSuffix source (skipBlanks text)⟩, rest)
      | left => .error left
    | left => .error left
termination_by (text.length, 0)

/-- Reads items for as long as there are any. An item that took nothing would end
the list. -/
def readItems (source text : List Char) : List (Item Rule) × List Char :=
  match Rule.read source text with
  | .ok (rule, rest) =>
    if rest.length < text.length then
      let (items, left) := readItems source rest
      (.rule rule :: items, left)
    else
      ([], text)
  | .error _ =>
    match hd : Declaration.read? source text with
    | some (declaration, rest) =>
      have : rest.length < text.length := (Declaration.read?_shorter hd).2
      let (items, left) := readItems source rest
      (.declaration declaration :: items, left)
    | none => ([], text)
termination_by (text.length, 1)

end

mutual

/-- What is left behind a rule is a proper end of the text. The selectors
have taken something, and whatever stands in the body leaves an end of it. -/
theorem Rule.read_shorter {source text rest : List Char} {rule : Rule}
    (h : Rule.read source text = .ok (rule, rest)) : rest <:+ text ∧ rest.length < text.length := by
  unfold Rule.read at h
  split at h
  · cases h
  · rename_i selectors afterSelectors hs
    split at h
    · rename_i body hb
      dsimp only at h
      split at h
      · rename_i left heq
        simp only [Except.ok.injEq, Prod.mk.injEq] at h
        obtain ⟨-, rfl⟩ := h
        have hlist := readList_shorter hs
        have hbody : body <:+ afterSelectors :=
          (List.suffix_cons _ _).trans (hb ▸ skipBlanks_suffix afterSelectors)
        -- The brace that opens the body is not part of it.
        have hlength : body.length < text.length := by
          have := hbody.length_le
          have := (skipBlanks_suffix text).length_le
          omega
        have hrest : left <:+ body :=
          (List.suffix_cons _ _).trans
            ((heq ▸ skipBlanks_suffix _).trans (readItems_suffix source body))
        refine ⟨hrest.trans (hbody.trans (hlist.1.trans (skipBlanks_suffix text))), ?_⟩
        have := hrest.length_le
        omega
      · cases h
    · cases h
termination_by (text.length, 0)

/-- What is left behind the items of a body is an end of the text. An item
that took nothing would end the list, but by the two lemmas there is none. -/
theorem readItems_suffix (source text : List Char) : (readItems source text).2 <:+ text := by
  unfold readItems
  split
  · rename_i rule rest hr
    split
    · exact (readItems_suffix source rest).trans (Rule.read_shorter hr).1
    · exact List.suffix_rfl
  · split
    · rename_i declaration rest hd
      have := (Declaration.read?_shorter hd).2
      exact (readItems_suffix source rest).trans (Declaration.read?_shorter hd).1
    · exact List.suffix_rfl
termination_by (text.length, 1)

end

/-! ### At-rules -/

/-- Reads an at-rule whose `@` has been read: its name, the raw text behind it,
and a semicolon. `source` is the whole text, and the at-rule starts at `start`. -/
def AtRule.read (source start text : List Char) : Reading AtRule :=
  match Identifier.read text with
  | .error left => .error left
  | .ok (name, afterName) =>
    match RawValue.read (skipBlanks afterName) with
    | .error left => .error left
    | .ok (raw, ';' :: rest) =>
      .ok ({ name, prelude := .ofList (trim raw), position := .ofSuffix source start }, rest)
    | .ok (_, left) => .error left

/-- What is left behind an at-rule is a proper end of the text, as its name
has taken something. -/
theorem AtRule.read_shorter {source start text rest : List Char} {atRule : AtRule}
    (h : AtRule.read source start text = .ok (atRule, rest)) :
    rest <:+ text ∧ rest.length < text.length := by
  unfold AtRule.read at h
  split at h
  · cases h
  · rename_i name afterName hname
    split at h
    · cases h
    · rename_i raw left hraw
      simp only [Except.ok.injEq, Prod.mk.injEq] at h
      obtain ⟨-, rfl⟩ := h
      -- The name has at least one letter, so what stands behind it is shorter already.
      have hident := Identifier.read_shorter hname
      have hvalue := (RawValue.read_shorter hraw).1.trans (skipBlanks_suffix afterName)
      have hleft := (List.suffix_cons ';' left).trans hvalue
      refine ⟨hleft.trans hident.1, ?_⟩
      have := hleft.length_le
      omega
    · cases h

/-! ### Stylesheets -/

/-- Reads statements up to the end of `text`, which is what is left of `source`. -/
def Stylesheet.readStatements (source text : List Char) : Except SyntaxError Stylesheet :=
  match ht : trimStart text with
  | [] => .ok ⟨[], []⟩
  | '@' :: body =>
    match hr : AtRule.read source ('@' :: body) body with
    | .error left => .error (.of .atRule source left)
    | .ok (atRule, rest) =>
      have : rest.length < text.length := by
        have := (trimStart_suffix text).length_le
        have := (AtRule.read_shorter hr).2
        simp only [ht, List.length_cons] at *
        omega
      (readStatements source rest).map fun sheet =>
        { sheet with atRules := atRule :: sheet.atRules }
  -- Whatever does not start with an `@` has to be a rule.
  | start =>
    match hr : Rule.read source start with
    | .error left => .error (.of .rule source left)
    | .ok (rule, rest) =>
      have : rest.length < text.length := by
        have := (trimStart_suffix text).length_le
        have := (Rule.read_shorter hr).2
        simp only [ht] at *
        omega
      (readStatements source rest).map fun sheet =>
        { sheet with rules := rule :: sheet.rules }
termination_by text.length

/-- Reads a whole source: comments are blanked, statements read, and nested
rules written out. -/
def Stylesheet.ofSource (source : String) : Except SyntaxError Stylesheet :=
  let text := blankComments source.toList
  (readStatements text text).map Stylesheet.flatten

end BlockStyles
