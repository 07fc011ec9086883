import BlockStyles.Proofs.Stylesheet.Steps
import BlockStyles.Proofs.Text.Positions
import Mathlib.Logic.Relation

/-!
# `BlockStyles.Proofs.Stylesheet.Rests`: what readers leave, and where that begins

A reader that is done with the front of a text leaves the rest of it, and one that gives up
says where by what was left. Nothing else than the length of such a rest is known where a position
is asked for. That is enough, as rests are ends of the text that is read: there is no reader that
leaves another text, however many of them read on behind each other or inside each other.

* `Leaves`: the readers of stylesheets with what each of them leaves.
* `Leaves.suffix`: that is an end of what was read.
* `Stylesheet.rests_have_places`: all of them begin at places of the text, shorter ones later.
-/

set_option autoImplicit false

namespace BlockStyles

open BlockStyles.Text
open BlockStyles.Selector (Simple Compound Combinator Chain readMore readList)

variable {source text rest : List Char}

/-! ### Readers -/

/-- What is left of the text that was read: what stands behind the value or, if there
is none, the text from where the reading stopped. Places are asked for in either case. -/
def Text.Reading.left {α : Type} : Reading α → List Char
  | .ok (_, rest) => rest
  | .error left => left

/-- A reader that takes the front of a text or stops somewhere in it leaves an end of
it. Most readers have a lemma for each of the two. -/
theorem Text.Reading.left_suffix {α : Type} {reading : Reading α}
    (hrest : ∀ value rest, reading = .ok (value, rest) → rest <:+ text)
    (hstop : ∀ stop, reading = .error stop → stop <:+ text) : reading.left <:+ text := by
  cases reading with
  | ok result => exact hrest result.1 result.2 rfl
  | error stop => exact hstop stop rfl

/-- One of the readers that reading the stylesheet `source` is put together from is given `text`,
and it leaves `rest`. The repeated ones are those for runs of simple selectors, for the parts of a
selector, for selectors behind commas and for items. -/
inductive Leaves (source : List Char) : List Char → List Char → Prop where
  | character (c : Char) (rest : List Char) : Leaves source (c :: rest) rest
  | blanks (text : List Char) : Leaves source text (skipBlanks text)
  | space (text : List Char) : Leaves source text (trimStart text)
  | identifier (text : List Char) : Leaves source text (Identifier.read text).left
  | value (text : List Char) : Leaves source text (RawValue.read text).left
  | named (mark text : List Char) (make : String → Simple) :
      Leaves source (mark ++ text) (Simple.readNamed (mark ++ text) make text).left
  | bracketed (text : List Char) :
      Leaves source ('[' :: text) (Simple.readAttribute ('[' :: text) text).left
  | simple (text : List Char) : Leaves source text (Simple.read text).left
  | run (text : List Char) : Leaves source text (Compound.readRun text).2
  | compound (text : List Char) : Leaves source text (Compound.read text).left
  | combinator (text rest : List Char) (combinator : Combinator)
      (h : Combinator.read? text = some (combinator, rest)) : Leaves source text rest
  | parts (compound : Compound) (text : List Char) :
      Leaves source text (Chain.readParts compound text).2
  | chain (text : List Char) : Leaves source text (Chain.read text).left
  | more (text : List Char) : Leaves source text (readMore text).2
  | list (text : List Char) : Leaves source text (readList text).left
  | declaration (text rest : List Char) (declaration : Declaration)
      (h : Declaration.read? source text = some (declaration, rest)) : Leaves source text rest
  | items (text : List Char) : Leaves source text (readItems source text).2
  | rule (text : List Char) : Leaves source text (Rule.read source text).left
  | atRule (text : List Char) :
      Leaves source ('@' :: text) (AtRule.read source ('@' :: text) text).left
  | statement (text rest : List Char) (kind : StatementKind)
      (h : Stylesheet.statement? source text = some (kind, .ok rest)) : Leaves source text rest
  | failure (text stop : List Char) (kind : StatementKind)
      (h : Stylesheet.FailsAt source kind stop text) : Leaves source text stop

/-! ### Rests are ends -/

/-- What is left behind a mark and a name is an end of the text with the mark. If
there is no name, that is all of it. -/
theorem Selector.Simple.readNamed_suffix (mark : List Char) (make : String → Simple)
    (text : List Char) : (readNamed (mark ++ text) make text).left <:+ mark ++ text := by
  refine Reading.left_suffix (fun simple rest h => ?_) (fun stop h => ?_)
  · exact (readNamed_shorter h).1.trans (List.suffix_append _ _)
  · unfold readNamed at h
    split at h
    · cases h
    · exact Except.error.inj h ▸ List.suffix_rfl

/-- What is left behind an attribute is an end of the text with its bracket, whether
the closing one is found or not. -/
theorem Selector.Simple.readAttribute_suffix (mark : List Char) (text : List Char) :
    (readAttribute (mark ++ text) text).left <:+ mark ++ text := by
  refine Reading.left_suffix (fun simple rest h => ?_) (fun stop h => ?_)
  · exact (readAttribute_shorter h).1.trans (List.suffix_append _ _)
  · unfold readAttribute at h
    split at h
    · cases h
    · exact Except.error.inj h ▸ List.suffix_rfl

/-- A simple selector of any form leaves an end of the text, each form being read
behind its own mark. -/
theorem Selector.Simple.read_suffix (text : List Char) : (Simple.read text).left <:+ text := by
  unfold Simple.read
  split
  · exact readNamed_suffix ['.'] _ _
  · exact readNamed_suffix ['#'] _ _
  · exact readNamed_suffix [':', ':'] _ _
  · exact readNamed_suffix [':'] _ _
  · exact readAttribute_suffix ['['] _
  · exact List.suffix_cons _ _
  · exact List.suffix_cons _ _
  · exact readNamed_suffix [] _ _

/-- Every reader leaves an end of the text that it was given. There is one case for
each reader; what it needs is known beside the reader. -/
theorem Leaves.suffix (h : Leaves source text rest) : rest <:+ text := by
  cases h with
  | character c => exact List.suffix_cons c rest
  | blanks => exact skipBlanks_suffix text
  | space => exact trimStart_suffix text
  | identifier =>
    exact Reading.left_suffix (fun _ _ h => (Identifier.read_shorter h).1)
      (fun _ h => Identifier.read_eq_error h ▸ List.suffix_rfl)
  | value =>
    exact Reading.left_suffix (fun _ _ h => (RawValue.read_shorter h).1)
      (fun _ h => RawValue.read_eq_error h ▸ List.suffix_rfl)
  | named mark text make => exact Simple.readNamed_suffix mark make text
  | bracketed text => exact Simple.readAttribute_suffix ['['] text
  | simple => exact Simple.read_suffix text
  | run => exact Compound.readRun_suffix text
  -- Readers that take something have a lemma about the rest, and one about where they stop.
  | compound =>
    exact Reading.left_suffix (fun _ _ h => (Compound.read_shorter h).1)
      (fun _ h => Compound.stop_eq h ▸ List.suffix_rfl)
  | combinator _ _ combinator h => exact Combinator.read?_suffix h
  | parts compound => exact Chain.readParts_suffix compound text
  | chain =>
    exact Reading.left_suffix (fun _ _ h => (Chain.read_shorter h).1)
      (fun _ h => Chain.stop_eq h ▸ List.suffix_rfl)
  | more => exact Selector.readMore_suffix text
  | list =>
    exact Reading.left_suffix (fun _ _ h => (Selector.readList_shorter h).1)
      (fun _ h => Selector.readList_eq_error h ▸ skipBlanks_suffix text)
  | declaration _ _ declaration h => exact (Declaration.read?_shorter h).1
  | items => exact readItems_suffix source text
  | rule =>
    exact Reading.left_suffix (fun _ _ h => (Rule.read_shorter h).1)
      (fun _ h => (Rule.read_eq_error h).1)
  -- An at-rule is read behind its sign, and may stop right there.
  | atRule text =>
    refine Reading.left_suffix (fun _ _ h => ?_) (fun stop h => ?_)
    · exact (AtRule.read_shorter h).1.trans (List.suffix_cons '@' text)
    · have hstop : stop <:+ text := by
        rcases AtRule.read_eq_error h with rfl | ⟨hstop, -⟩
        · exact List.suffix_rfl
        · exact hstop
      exact hstop.trans (List.suffix_cons '@' text)
  | statement _ _ kind h => exact Stylesheet.suffix_of_statement? h
  | failure _ _ kind h => exact h.stops.1

/-- Any readers that read on behind each other leave an end of the first text. An end
of an end is one of the whole text. -/
theorem Leaves.suffix_of_reflTransGen (h : Relation.ReflTransGen (Leaves source) text rest) :
    rest <:+ text := by
  induction h with
  | refl => exact List.suffix_rfl
  | tail _ hlast ih => exact hlast.suffix.trans ih

/-! ### Rests have places -/

namespace Stylesheet

/-- Readers leave ends of the texts that they are given. In a text that is not too
long, each end begins at a place that the offsets lead to, and the less of the text is
left, the later that is. So a length says as much as a place, and a place is never
asked for that is not there. -/
theorem rests_have_places (hsize : byteLength text < 2 ^ 32 - 1) :
    (∀ source part rest, Relation.ReflTransGen (Leaves source) part rest → rest <:+ part)
      ∧ (∀ rest, rest <:+ text → (Position.ofSuffix text rest).IsPlaceOf text rest)
      ∧ ∀ rest later, rest <:+ text → later <:+ text → later.length < rest.length →
          (Position.ofSuffix text rest).Before (Position.ofSuffix text later) :=
  ⟨fun _ _ _ => Leaves.suffix_of_reflTransGen,
    fun _ => Position.isPlaceOf_ofSuffix hsize,
    fun _ _ => Position.before_ofSuffix hsize⟩

/-- A property of two bytes: behind it there are a character and two bytes less.
Columns count characters, and offsets count bytes. -/
theorem rests_have_places_wide :
    let text := ".é \x7b\n ü: x \x7d".toList
    let rest := "ü: x \x7d".toList
    let later := ": x \x7d".toList
    byteLength text < 2 ^ 32 - 1
      ∧ Identifier.read rest = .ok ("ü", later)
      ∧ (Position.ofSuffix text rest).IsPlaceOf text rest
      ∧ byteLength text - byteLength later = 9
      ∧ Position.ofSuffix? text later = some ⟨2, 3⟩
      ∧ (Position.ofSuffix text rest).Before (Position.ofSuffix text later) := by
  intro text rest later
  have hsize : byteLength text < 2 ^ 32 - 1 := by decide +kernel
  have hread : Identifier.read rest = .ok ("ü", later) := by decide +kernel
  obtain ⟨hleft, hplace, hbefore⟩ := rests_have_places hsize
  have hrest : rest <:+ text := ⟨".é \x7b\n ".toList, by decide +kernel⟩
  -- The reader of names, given the one text, leaves the other.
  have hlater : later <:+ rest := by
    have hleaves := hleft text rest _ (.single (.identifier rest))
    rw [hread] at hleaves
    exact hleaves
  exact ⟨hsize, hread, hplace rest hrest, by decide +kernel, by decide +kernel,
    hbefore rest later hrest (hlater.trans hrest) (by decide +kernel)⟩

end Stylesheet

end BlockStyles
