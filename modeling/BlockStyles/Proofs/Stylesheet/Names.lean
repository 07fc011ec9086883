import BlockStyles.Stylesheet.Reader

/-!
# `BlockStyles.Proofs.Stylesheet.Names`: classes in stylesheets have names

A class in a selector that has been read is written as an identifier: the reader
takes nothing else behind a dot. Nesting only puts compounds together, so this
also holds of the rules of a stylesheet that has been flattened.

* `Selector.isProper_of_readList`: the selectors that are read are proper.
* `Selector.isProper_nestAll`: nesting keeps them so.
* `Stylesheet.isProper_of_ofSource`: the selectors of a stylesheet are proper.
* `Stylesheet.readStatements_atRule`: an at-rule in front is read first.
-/

set_option autoImplicit false

namespace BlockStyles

open BlockStyles.Text

/-! ### Selectors -/

namespace Selector

/-- The classes in a compound are identifiers. Only this part of what reading makes
sure of is needed for the names of classes in blocks. -/
def Compound.IsProper (compound : Compound) : Prop :=
  ∀ name, Simple.cls name ∈ compound → isIdentifier name

/-- The classes in a selector are identifiers. -/
def Chain.IsProper (selector : Chain) : Prop :=
  ∀ part ∈ selector.parts, part.compound.IsProper

/-- What is read with a name has an identifier for it. One reader serves for types,
ids, classes and the two kinds of pseudo selectors. -/
theorem Simple.isIdentifier_of_readNamed {start text rest : List Char} {make : String → Simple}
    {simple : Simple} (h : readNamed start make text = .ok (simple, rest)) :
    ∃ name, simple = make name ∧ isIdentifier name := by
  unfold readNamed at h
  split at h
  · rename_i name left hread
    cases h
    exact ⟨name, rfl, (Identifier.read_eq_ok hread).2⟩
  · cases h

/-- A class that has been read is an identifier. None of the other forms is read as a class. -/
theorem Simple.isIdentifier_of_read {text rest : List Char} {name : String}
    (h : read text = .ok (.cls name, rest)) : isIdentifier name := by
  unfold read at h
  -- The first branch is that of a dot. In all others what is read is no class.
  split at h
  · obtain ⟨_, heq, hname⟩ := isIdentifier_of_readNamed h
    cases heq
    exact hname
  · obtain ⟨_, heq, -⟩ := isIdentifier_of_readNamed h
    cases heq
  · obtain ⟨_, heq, -⟩ := isIdentifier_of_readNamed h
    cases heq
  · obtain ⟨_, heq, -⟩ := isIdentifier_of_readNamed h
    cases heq
  · unfold readAttribute at h
    split at h <;> cases h
  · cases h
  · cases h
  · obtain ⟨_, heq, -⟩ := isIdentifier_of_readNamed h
    cases heq

namespace Compound

/-- All classes in a run are identifiers, each being read as one. The induction
follows the reader; a run may be empty. -/
theorem isProper_readRun (text : List Char) : (readRun text).1.IsProper := by
  fun_induction readRun text with
  | case1 => exact fun name hname => by cases hname
  | case2 text simple rest hread _ more left hrun ih =>
    rw [hrun] at ih
    intro name hname
    rcases List.mem_cons.1 hname with rfl | hname
    · exact Simple.isIdentifier_of_read hread
    · exact ih name hname

/-- The classes in a compound that has been read are identifiers. It is a run that is
not empty. -/
theorem isProper_of_read {text rest : List Char} {compound : Compound}
    (h : read text = .ok (compound, rest)) : compound.IsProper := by
  have hrun := isProper_readRun text
  unfold read at h
  split at h
  · cases h
  · rename_i heq
    cases h
    rwa [heq] at hrun

end Compound

namespace Chain

/-- Classes in the parts of a selector are identifiers, if those in its first compound
are. -/
theorem isProper_readParts {compound : Compound} (text : List Char) (h : compound.IsProper) :
    ∀ part ∈ (readParts compound text).1, part.compound.IsProper := by
  fun_induction readParts compound text with
  | case1 => exact fun part hpart => List.mem_singleton.1 hpart ▸ h
  | case2 => exact fun part hpart => List.mem_singleton.1 hpart ▸ h
  | case3 compound text combinator after hc next rest hn _ parts left hparts ih =>
    rw [hparts] at ih
    intro part hpart
    rcases List.mem_cons.1 hpart with rfl | hpart
    · exact h
    · exact ih (Compound.isProper_of_read hn) part hpart

/-- Classes in a selector that has been read are identifiers. Its compounds are read
one by one, and combinators have no names. -/
theorem isProper_of_read {text rest : List Char} {selector : Chain}
    (h : read text = .ok (selector, rest)) : selector.IsProper := by
  unfold read at h
  split at h
  · cases h
  · rename_i compound left hread
    cases h
    exact isProper_readParts left (Compound.isProper_of_read hread)

end Chain

/-- The classes in the selectors behind commas are identifiers. A comma with no
selector behind it ends the list and adds nothing. -/
theorem isProper_readMore (text : List Char) : ∀ s ∈ (readMore text).1, s.IsProper := by
  fun_induction readMore text with
  | case1 => exact fun s hs => by cases hs
  | case2 text after hc selector rest hn _ more left hmore ih =>
    rw [hmore] at ih
    intro s hs
    rcases List.mem_cons.1 hs with rfl | hs
    · exact Chain.isProper_of_read hn
    · exact ih s hs
  | case3 => exact fun s hs => by cases hs

/-- The classes in all selectors of a list that has been read are identifiers. The
selectors of a rule are such a list. -/
theorem isProper_of_readList {text rest : List Char} {selectors : List Chain}
    (h : readList text = .ok (selectors, rest)) : ∀ s ∈ selectors, s.IsProper := by
  unfold readList at h
  split at h
  · cases h
  · rename_i selector left hread
    have hmore := isProper_readMore left
    cases h
    intro s hs
    rcases List.mem_cons.1 hs with rfl | hs
    · exact Chain.isProper_of_read hread
    · exact hmore s hs

/-! ### Nesting -/

/-- Nesting keeps the classes of both selectors and brings in no others. A key that
takes the conditions of an inner head takes the classes among them. -/
theorem isProper_nestParts {outer inner : List Part}
    (houter : ∀ part ∈ outer, part.compound.IsProper)
    (hinner : ∀ part ∈ inner, part.compound.IsProper) :
    ∀ part ∈ nestParts outer inner, part.compound.IsProper := by
  fun_induction nestParts outer inner with
  | case1 => exact houter
  | case2 => exact hinner
  | case3 key head tail _ =>
    intro part hpart
    rcases List.mem_cons.1 hpart with rfl | hpart
    -- The merged compound has the classes of the key and those of the inner head.
    · intro name hname
      rcases List.mem_append.1 hname with hname | hname
      · exact houter key List.mem_cons_self name hname
      · exact hinner head List.mem_cons_self name ((List.mem_filter.1 hname).1)
    · exact hinner part (List.mem_cons_of_mem _ hpart)
  | case4 key head tail _ =>
    intro part hpart
    rcases List.mem_cons.1 hpart with rfl | hpart
    · exact houter key List.mem_cons_self
    · exact hinner part hpart
  | case5 part next outer inner _ ih =>
    intro p hp
    rcases List.mem_cons.1 hp with rfl | hp
    · exact houter p List.mem_cons_self
    · exact ih (fun q hq => houter q (List.mem_cons_of_mem _ hq)) hinner p hp

/-- Nesting lists of selectors keeps classes identifiers, too, each selector of one
being nested in each of the other. -/
theorem isProper_nestAll {outer inner : List Chain} (houter : ∀ s ∈ outer, s.IsProper)
    (hinner : ∀ s ∈ inner, s.IsProper) : ∀ s ∈ nestAll outer inner, s.IsProper := by
  intro s hs
  obtain ⟨parent, hparent, hs⟩ := List.mem_flatMap.1 hs
  obtain ⟨child, hchild, rfl⟩ := List.mem_map.1 hs
  exact isProper_nestParts (houter parent hparent) (hinner child hchild)

end Selector

/-! ### Rules -/

/-- The selectors of a rule and of all rules in it are proper. These are the selectors
as they are written, each of which is nested later. -/
inductive Rule.IsProper : Rule → Prop where
  | intro (selectors : List Selector.Chain) (items : List (Item Rule)) (position : Position)
      (hselectors : ∀ s ∈ selectors, s.IsProper)
      (hitems : ∀ rule, Item.rule rule ∈ items → IsProper rule) :
      IsProper ⟨selectors, items, position⟩

mutual

/-- The selectors of a rule that has been read are proper, and those of the rules in
it. It goes together with the items, by the length of what is left to be read. -/
theorem Rule.isProper_of_read {source text rest : List Char} {rule : Rule}
    (h : Rule.read source text = .ok (rule, rest)) : rule.IsProper := by
  unfold Rule.read at h
  split at h
  · cases h
  · rename_i selectors afterSelectors hselectors
    split at h
    · rename_i body hbody
      dsimp only at h
      split at h
      -- The items are read from what follows the brace, which is shorter.
      · have hlength : body.length < text.length := by
          have := (skipBlanks_suffix text).length_le
          have := (Selector.readList_shorter hselectors).2
          have := (skipBlanks_suffix afterSelectors).length_le
          simp only [hbody, List.length_cons] at this
          omega
        have hitems := isProper_readItems source body
        cases h
        exact .intro _ _ _ (Selector.isProper_of_readList hselectors) hitems
      · cases h
    · cases h
termination_by (text.length, 0)

/-- The rules among items that have been read are proper. Items and rules are read by
each other, so this is proved together with the statement for rules. -/
theorem isProper_readItems (source text : List Char) :
    ∀ rule, Item.rule rule ∈ (readItems source text).1 → rule.IsProper := by
  unfold readItems
  split
  · rename_i rule rest hrule
    split
    · intro r hr
      rcases List.mem_cons.1 hr with hr | hr
      · cases hr
        exact Rule.isProper_of_read hrule
      · exact isProper_readItems source rest r hr
    · exact fun r hr => by cases hr
  -- A declaration has no selectors, so only the items behind it count.
  · split
    · rename_i declaration rest hdeclaration
      have := (Declaration.read?_shorter hdeclaration).2
      intro r hr
      rcases List.mem_cons.1 hr with hr | hr
      · cases hr
      · exact isProper_readItems source rest r hr
    · exact fun r hr => by cases hr
termination_by (text.length, 1)

end

/-! ### Flattening -/

mutual

/-- If the selectors that a rule is flattened with are proper, so are those of all
rules that come of it. This, and the next two, follow the functions that flatten rules
and items. -/
theorem Rule.isProper_flattenAs {selectors : List Selector.Chain}
    (hselectors : ∀ s ∈ selectors, s.IsProper) : (rule : Rule) → rule.IsProper →
      ∀ r ∈ rule.flattenAs selectors, ∀ s ∈ r.selectors, s.IsProper
  | ⟨own, items, position⟩, h => by
    obtain ⟨_, _, _, -, hitems⟩ := h
    have hinner := isProper_flattenItems hselectors items hitems
    unfold Rule.flattenAs
    dsimp only
    split
    · exact hinner
    -- The rule itself comes first, with the selectors that it has been given.
    · intro r hr
      rcases List.mem_cons.1 hr with rfl | hr
      · exact hselectors
      · exact hinner r hr

/-- Of items the rules are flattened, one after the other. The selectors above them
are proper too, and nesting brings in no other classes. -/
theorem isProper_flattenItems {outer : List Selector.Chain} (houter : ∀ s ∈ outer, s.IsProper) :
    (items : List (Item Rule)) → (∀ rule, Item.rule rule ∈ items → rule.IsProper) →
      ∀ r ∈ flattenItems outer items, ∀ s ∈ r.selectors, s.IsProper
  | [], _ => fun r hr => by cases hr
  | item :: items, h => by
    intro r hr
    rcases List.mem_append.1 hr with hr | hr
    · exact isProper_flattenItem houter item (fun rule hrule => h rule (by simp [hrule])) r hr
    · exact isProper_flattenItems houter items
        (fun rule hrule => h rule (List.mem_cons_of_mem _ hrule)) r hr

/-- A nested rule is flattened with its own selectors inside those of the outer one. A
declaration leaves no rule. -/
theorem isProper_flattenItem {outer : List Selector.Chain} (houter : ∀ s ∈ outer, s.IsProper) :
    (item : Item Rule) → (∀ rule, item = .rule rule → rule.IsProper) →
      ∀ r ∈ flattenItem outer item, ∀ s ∈ r.selectors, s.IsProper
  | .declaration _, _ => fun r hr => by cases hr
  | .rule ⟨selectors, items, position⟩, h => by
    have hrule := h _ rfl
    have hselectors : ∀ s ∈ selectors, s.IsProper := by
      cases hrule
      assumption
    exact Rule.isProper_flattenAs (Selector.isProper_nestAll houter hselectors)
      ⟨selectors, items, position⟩ hrule

end

/-! ### Stylesheets -/

namespace Stylesheet

/-- At the end of a text there are no statements. White space may be left. This is where
the recursion over the statements ends. -/
theorem readStatements_end {source text : List Char} (h : trimStart text = []) :
    readStatements source text = .ok ⟨[], []⟩ := by
  rw [readStatements]
  split
  · rfl
  · simp_all
  · simp_all

/-- An empty source is an empty stylesheet. Files that are empty serve as examples,
since they make blocks with nothing but a root. -/
theorem ofSource_empty : ofSource "" = .ok ⟨[], []⟩ := by
  rw [ofSource, readStatements_end (by decide)]
  rfl

/-- An at-rule in front of a text is the first of its at-rules. What is behind it is
read as if it were all there is. -/
theorem readStatements_atRule {source text body rest : List Char} {atRule : AtRule}
    (h : trimStart text = '@' :: body)
    (hread : AtRule.read source ('@' :: body) body = .ok (atRule, rest)) :
    readStatements source text
      = (readStatements source rest).map fun sheet =>
        { sheet with atRules := atRule :: sheet.atRules } := by
  rw [readStatements]
  -- The text begins with an `@`, which leaves the second branch, and the at-rule is known.
  split
  · simp_all
  · rename_i body' hbody
    rw [h] at hbody
    cases hbody
    split
    · rename_i hfail
      rw [hread] at hfail
      cases hfail
    · rename_i hok
      rw [hread] at hok
      cases hok
      rfl
  · simp_all

/-- All rules of a text are proper, wherever at-rules stand between them. The
induction follows the reader, and a failure has no sheet to speak of. -/
theorem isProper_readStatements {source text : List Char} {sheet : Stylesheet}
    (h : readStatements source text = .ok sheet) : ∀ rule ∈ sheet.rules, rule.IsProper := by
  fun_induction readStatements source text generalizing sheet with
  | case1 =>
    cases h
    exact fun rule hrule => by cases hrule
  | case2 => cases h
  -- An at-rule has no selectors; the rules are those of the rest.
  | case3 text body ht atRule rest hread _ ih =>
    cases hrest : readStatements source rest with
    | error fault =>
      rw [hrest] at h
      cases h
    | ok others =>
      rw [hrest] at h
      cases h
      have hothers := ih hrest
      exact hothers
  | case4 => cases h
  -- A rule comes in front of those of the rest.
  | case5 text rule rest _ _ hread _ ih =>
    cases hrest : readStatements source rest with
    | error fault =>
      rw [hrest] at h
      cases h
    | ok others =>
      rw [hrest] at h
      cases h
      intro r hr
      rcases List.mem_cons.1 hr with rfl | hr
      · exact Rule.isProper_of_read hread
      · exact ih hrest r hr

/-- The selectors of a stylesheet that has been read are proper. That they are nested
and flattened before they are seen makes no difference. -/
theorem isProper_of_ofSource {source : String} {sheet : Stylesheet}
    (h : ofSource source = .ok sheet) :
    ∀ rule ∈ sheet.rules, ∀ selector ∈ rule.selectors, selector.IsProper := by
  unfold ofSource at h
  dsimp only at h
  cases hread : readStatements (blankComments source.toList) (blankComments source.toList) with
  | error fault =>
    rw [hread] at h
    cases h
  | ok nested =>
    rw [hread] at h
    cases h
    intro rule hrule
    -- The rule comes of one that was written at the top.
    obtain ⟨outer, houter, hrule⟩ := List.mem_flatMap.1 hrule
    have hproper := isProper_readStatements hread outer houter
    have hselectors : ∀ s ∈ outer.selectors, s.IsProper := by
      cases hproper
      assumption
    exact Rule.isProper_flattenAs hselectors outer hproper rule hrule

end Stylesheet

end BlockStyles
