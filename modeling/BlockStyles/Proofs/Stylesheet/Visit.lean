import BlockStyles.Proofs.Selector.Nesting
import BlockStyles.Proofs.Selector.Shape
import BlockStyles.Stylesheet.Flatten

/-!
# `BlockStyles.Proofs.Stylesheet.Visit`: what flattening makes of a forest of rules

A forest of rules is visited rule by rule, each rule before the rules nested in it, with the
absolute selectors that it has there. Flattening goes the same way: it writes out every rule that
is visited, under its absolute selectors and with its own declarations, but for those that only
frame others. What it keeps is read off this one equation.

* `Rule.flattenAs_eq`: flattening writes out the rules of a visit.
* `Selector.Chain.EndsAtKey.nest`: a nested selector has the shape of those it is made of.
* `Selector.Chain.Within.nest`: and it holds the outer one, with more conditions on its key.
* `Rule.nested_induction`: induction on the rules nested in a rule, without a look at its items.
* `Rule.exists_kept`: the selectors of a rule that only frames others are in those of one of them.
* `Stylesheet.keptBy_flatten`: nothing of a forest is lost.
-/

set_option autoImplicit false

namespace BlockStyles

open BlockStyles.Text (Position)
open BlockStyles.Selector (Chain Combinator Part nestAll nestParts)

/-! ### Selectors inside others -/

namespace Selector

/-- The selector has a last part, which is the only one that leads on to no other.
Selectors that have been read are of this shape. -/
def Chain.EndsAtKey (selector : Chain) : Prop :=
  ∃ front compound, selector.parts = front ++ [⟨compound, .none⟩]
    ∧ ∀ part ∈ front, part.combinator ≠ .none

/-- Every compound of the selector is the beginning of the one at its place in the
other. So the other selector has all conditions of this one, and perhaps more. -/
def Chain.Within (selector other : Chain) : Prop :=
  ∀ (i : Nat) (part : Part), selector.parts[i]? = some part →
    ∃ part', other.parts[i]? = some part' ∧ part.compound <+: part'.compound

namespace Chain

variable {outer inner other : Chain}

/-- A selector that ends at its key has a first part, which may be the key. In a
nested selector this part is joined with the key of the outer one. -/
theorem EndsAtKey.exists_cons (h : inner.EndsAtKey) : ∃ head tail, inner.parts = head :: tail := by
  obtain ⟨front, compound, hparts, -⟩ := h
  cases front with
  | nil => exact ⟨_, _, hparts⟩
  | cons head front => exact ⟨_, _, hparts⟩

/-- A nested selector has the shape of those it is made of. The outer key leads on
now, unless it has taken the conditions of the inner head, and then it leads on as
that does. It ends at the inner key. -/
theorem EndsAtKey.nest (houter : outer.EndsAtKey) (hinner : inner.EndsAtKey) :
    (outer.nest inner).EndsAtKey := by
  obtain ⟨front, key, hfront, hleads⟩ := houter
  obtain ⟨before, last, hbefore, hleads'⟩ := hinner
  have hdescendant : Combinator.descendant ≠ .none := by decide
  cases before with
  | nil =>
    -- The head of the inner selector is its key.
    rw [List.nil_append] at hbefore
    rw [Chain.nest, hfront, hbefore, nestParts_append]
    split
    · exact ⟨front, _, rfl, hleads⟩
    · refine ⟨front ++ [⟨key, .descendant⟩], last, by simp, ?_⟩
      exact List.forall_mem_append.2 ⟨hleads, List.forall_mem_singleton.2 hdescendant⟩
  | cons head before =>
    obtain ⟨hhead, hrest⟩ := List.forall_mem_cons.1 hleads'
    rw [List.cons_append] at hbefore
    rw [Chain.nest, hfront, hbefore, nestParts_append]
    split
    · refine ⟨front ++ Part.merge ⟨key, .none⟩ head :: before, last, ?_, ?_⟩
      · rw [List.append_assoc, List.cons_append]
      · have hmerge : (Part.merge ⟨key, .none⟩ head).combinator ≠ .none := by
          rwa [Part.merge, if_neg hhead]
        exact List.forall_mem_append.2 ⟨hleads, List.forall_mem_cons.2 ⟨hmerge, hrest⟩⟩
    · refine ⟨front ++ ⟨key, .descendant⟩ :: head :: before, last, ?_, ?_⟩
      · rw [List.append_assoc, List.cons_append, List.cons_append]
      · exact List.forall_mem_append.2
          ⟨hleads, List.forall_mem_cons.2 ⟨hdescendant, List.forall_mem_cons.2 ⟨hhead, hrest⟩⟩⟩

/-- A selector holds itself. -/
theorem Within.refl (selector : Chain) : selector.Within selector :=
  fun _ part h => ⟨part, h, List.prefix_rfl⟩

/-- What is in a selector is in every selector that this one is in. -/
theorem Within.trans (h : outer.Within inner) (h' : inner.Within other) : outer.Within other := by
  intro i part hpart
  obtain ⟨middle, hmiddle, hprefix⟩ := h i part hpart
  obtain ⟨last, hlast, hprefix'⟩ := h' i middle hmiddle
  exact ⟨last, hlast, hprefix.trans hprefix'⟩

/-- A nested selector holds the outer one, with more conditions on its key. The parts
in front of the key are the same, and the key is at the same place. -/
theorem Within.nest (houter : outer.EndsAtKey) (hinner : inner.EndsAtKey) :
    outer.Within (outer.nest inner) := by
  obtain ⟨front, key, hfront, -⟩ := houter
  obtain ⟨head, tail, htail⟩ := hinner.exists_cons
  obtain ⟨key', more, hnest, hkey⟩ : ∃ key' more,
      (outer.nest inner).parts = front ++ key' :: more ∧ key <+: key'.compound := by
    rw [Chain.nest, hfront, htail, nestParts_append]
    split
    · exact ⟨_, _, rfl, List.prefix_append _ _⟩
    · exact ⟨_, _, rfl, List.prefix_rfl⟩
  intro i part hpart
  rw [hfront] at hpart
  rw [hnest]
  -- A place in front of the key, or that of the key, behind which the outer selector has
  -- nothing.
  rcases Nat.lt_or_ge i front.length with hlt | hge
  · rw [List.getElem?_append_left hlt] at hpart ⊢
    exact ⟨part, hpart, List.prefix_rfl⟩
  · rw [List.getElem?_append_right hge] at hpart ⊢
    obtain ⟨hzero, rfl⟩ : i - front.length = 0 ∧ part = ⟨key, .none⟩ := by
      cases hi : i - front.length with
      | zero => simpa [hi, eq_comm] using hpart
      | succ n => simp [hi] at hpart
    exact ⟨key', by simp [hzero], hkey⟩

/-- Selectors of the shape of those that have been read end at their keys. A
combinator stands between any two parts, and none behind the last. -/
theorem endsAtKey_of_wellFormed (h : outer.WellFormed) : outer.EndsAtKey := by
  obtain ⟨parts⟩ := outer
  change PartsWellFormed parts at h
  induction h with
  | last => exact ⟨[], _, rfl, nofun⟩
  | @cons compound combinator parts _ hcombinator _ ih =>
    obtain ⟨front, key, hparts, hleads⟩ := ih
    refine ⟨⟨compound, combinator⟩ :: front, key, ?_,
      List.forall_mem_cons.2 ⟨hcombinator, hleads⟩⟩
    exact congrArg (List.cons _) hparts

end Chain

end Selector

/-! ### Visits -/

/-- A rule that is visited, with its absolute selectors. The rule has the selectors
that are written for it, so both can be compared. -/
structure Visited where
  absolute : List Chain
  rule : Rule

mutual

/-- The rule, given its absolute selectors, and behind it everything nested in it.
Other than flattening, it leaves out no rule and keeps each one as it is. -/
def Rule.visitAs (absolute : List Chain) : Rule → List Visited
  | ⟨selectors, items, position⟩ =>
    ⟨absolute, ⟨selectors, items, position⟩⟩ :: visitItems absolute items

/-- The rules nested among items, as seen from outside of `outer`. -/
def visitItems (outer : List Chain) : List (Item Rule) → List Visited
  | [] => []
  | item :: items => visitItem outer item ++ visitItems outer items

/-- The rules that an item holds, as seen from outside of `outer`. -/
def visitItem (outer : List Chain) : Item Rule → List Visited
  | .declaration _ => []
  | .rule ⟨selectors, items, position⟩ =>
    Rule.visitAs (nestAll outer selectors) ⟨selectors, items, position⟩

end

/-- The rule, whose selectors are absolute, and everything nested in it. -/
def Rule.visit (rule : Rule) : List Visited :=
  rule.visitAs rule.selectors

/-- All rules of a forest in the order of a visit. -/
def Stylesheet.visit (sheet : Stylesheet) : List Visited :=
  sheet.rules.flatMap Rule.visit

namespace Visited

/-- Whether the rule holds nested rules and no declarations. These are the rules that
are not written out. -/
def isFrame (visited : Visited) : Bool :=
  (visited.rule.items.filter (·.declaration?.isSome)).isEmpty
    && visited.rule.items.any (·.rule?.isSome)

/-- The rule by itself: its absolute selectors and its own declarations. -/
def own (visited : Visited) : Rule :=
  ⟨visited.absolute, visited.rule.items.filter (·.declaration?.isSome), visited.rule.position⟩

end Visited

mutual

/-- Flattening writes out the rules of a visit but for those that only frame others.
All that is said about flattening is shown with this equation, by induction on a
forest that is visited. -/
theorem Rule.flattenAs_eq (absolute : List Chain) : (rule : Rule) →
    rule.flattenAs absolute
      = ((rule.visitAs absolute).filter (!·.isFrame)).map Visited.own
  | ⟨selectors, items, position⟩ => by
    let visited : Visited := ⟨absolute, ⟨selectors, items, position⟩⟩
    rw [Rule.flattenAs, Rule.visitAs, flattenItems_eq absolute items]
    split
    · rename_i hcondition
      have hframe : visited.isFrame = true := hcondition
      rw [List.filter_cons_of_neg (by simp [visited, hframe])]
    · rename_i hcondition
      have hkept : visited.isFrame = false := Bool.not_eq_true _ ▸ hcondition
      rw [List.filter_cons_of_pos (by simp [visited, hkept])]
      rfl

/-- Flattening items writes out the rules of their visit, which goes through one after
the other. -/
theorem flattenItems_eq (outer : List Chain) : (items : List (Item Rule)) →
    flattenItems outer items = ((visitItems outer items).filter (!·.isFrame)).map Visited.own
  | [] => rfl
  | item :: items => by
    rw [flattenItems, visitItems, flattenItem_eq outer item, flattenItems_eq outer items,
      List.filter_append, List.map_append]

/-- Flattening a single item does so, too: it is a rule or has nothing to visit. A
frame, that is a rule with nested rules and no declarations, is visited and not
written out. -/
theorem flattenItem_eq (outer : List Chain) : (item : Item Rule) →
    flattenItem outer item = ((visitItem outer item).filter (!·.isFrame)).map Visited.own
  | .declaration _ => rfl
  | .rule ⟨selectors, items, position⟩ =>
    Rule.flattenAs_eq (nestAll outer selectors) ⟨selectors, items, position⟩

end

/-- A stylesheet is flattened to the rules of its visit, without those that only frame
others. -/
theorem Stylesheet.rules_flatten (sheet : Stylesheet) :
    sheet.flatten.rules = (sheet.visit.filter (!·.isFrame)).map Visited.own := by
  rw [flatten, visit, List.filter_flatMap, List.map_flatMap]
  exact congrArg (List.flatMap · sheet.rules) (funext fun rule => rule.flattenAs_eq _)

/-! ### Going through a forest -/

/-- Among items, the nested rules are visited in their order. A visit does not look at
declarations. -/
theorem visitItems_eq (outer : List Chain) (items : List (Item Rule)) :
    visitItems outer items
      = (items.filterMap Item.rule?).flatMap fun inner =>
        inner.visitAs (nestAll outer inner.selectors) := by
  induction items with
  | nil => rfl
  | cons item items ih =>
    rw [visitItems, ih]
    rcases item with _ | ⟨selectors, inner, position⟩ <;> rfl

/-- A rule is visited before the rules nested in it, one after the other. With this
the three functions of a visit need not be looked at any more. -/
theorem Rule.visitAs_eq (absolute : List Chain) (rule : Rule) :
    rule.visitAs absolute
      = ⟨absolute, rule⟩ :: rule.nested.flatMap fun inner =>
        inner.visitAs (nestAll absolute inner.selectors) := by
  obtain ⟨selectors, items, position⟩ := rule
  rw [visitAs, visitItems_eq]
  rfl

/-- A nested rule is smaller than the rule around it. Inductions over nested rules end
by this. -/
theorem Rule.sizeOf_nested_lt {rule inner : Rule} (h : inner ∈ rule.nested) :
    sizeOf inner < sizeOf rule := by
  obtain ⟨item, hitem, hinner⟩ := List.mem_filterMap.1 h
  obtain ⟨selectors, items, position⟩ := rule
  have hsize := List.sizeOf_lt_of_mem hitem
  cases item with
  | declaration declaration => cases hinner
  | rule nested =>
    cases hinner
    simp only [Item.rule.sizeOf_spec, Rule.mk.sizeOf_spec] at hsize ⊢
    omega

/-- What is so of a rule whenever it is so of the rules nested in it is so of every
rule. Items play no part in this, unlike in the induction that comes with the type. -/
theorem Rule.nested_induction {P : Rule → Prop}
    (h : ∀ rule : Rule, (∀ inner ∈ rule.nested, P inner) → P rule) (rule : Rule) : P rule :=
  h rule fun inner _ => nested_induction h inner
termination_by sizeOf rule
decreasing_by exact sizeOf_nested_lt ‹_›

/-- A selector of nested lists is one of the outer list with one of the inner list in
it. -/
theorem mem_nestAll {outer inner : List Chain} {selector : Chain} :
    selector ∈ nestAll outer inner
      ↔ ∃ parent ∈ outer, ∃ child ∈ inner, parent.nest child = selector := by
  simp only [nestAll, List.mem_flatMap, List.mem_map]

/-- What is visited with a rule is the rule, or it is visited with one of the rules
nested in it. -/
theorem Rule.mem_visitAs_iff {absolute : List Chain} {rule : Rule} {visited : Visited} :
    visited ∈ rule.visitAs absolute ↔ visited = ⟨absolute, rule⟩
      ∨ ∃ inner ∈ rule.nested, visited ∈ inner.visitAs (nestAll absolute inner.selectors) := by
  rw [visitAs_eq, List.mem_cons, List.mem_flatMap]

/-- What is visited from a rule that is visited is visited. It has the same absolute
selectors both times. -/
theorem Rule.mem_visitAs_trans {absolute : List Chain} {rule : Rule} {visited other : Visited}
    (h : visited ∈ rule.visitAs absolute) (hother : other ∈ visited.rule.visitAs visited.absolute) :
    other ∈ rule.visitAs absolute := by
  induction rule using Rule.nested_induction generalizing absolute with
  | h rule ih =>
    rcases mem_visitAs_iff.1 h with rfl | ⟨inner, hinner, hvisited⟩
    · exact hother
    · exact mem_visitAs_iff.2 (.inr ⟨inner, hinner, ih inner hinner hvisited⟩)

/-! ### What is kept -/

/-- The rule has selectors, and each of them ends at its key. Without selectors a rule
would have nothing to be kept in. -/
structure Rule.IsShaped (rule : Rule) : Prop where
  ne_nil : rule.selectors ≠ []
  selectors : ∀ selector ∈ rule.selectors, selector.EndsAtKey

/-- The declarations written directly in a rule, each at the position of the rule. By
the position the rule can be told among those that are written out. -/
def Rule.placed (rule : Rule) : List (Position × Declaration) :=
  rule.declarations.map fun declaration => (rule.position, declaration)

/-- All rules that are visited are shaped as rules are that have been read. -/
def Stylesheet.IsShaped (forest : Stylesheet) : Prop :=
  ∀ visited ∈ forest.visit, visited.rule.IsShaped

/-- Nothing of the forest is lost in the output, which has no nested rules.
Declarations are kept in their order and with their rules, and selectors with all of
their conditions. -/
structure Stylesheet.KeptBy (forest : Stylesheet) (output : List Rule) : Prop where
  flat : ∀ rule ∈ output, rule.nested = []
  /-- The declarations come in the order of the visit, each under the position of its rule. -/
  declarations : output.flatMap Rule.placed = forest.visit.flatMap (·.rule.placed)
  endsAtKey : ∀ rule ∈ output, ∀ selector ∈ rule.selectors, selector.EndsAtKey
  /-- The selectors of every rule are there, be it in those of rules nested in it. -/
  within : ∀ visited ∈ forest.visit, ∀ selector ∈ visited.absolute,
    ∃ rule ∈ output, ∃ other ∈ rule.selectors, selector.Within other

namespace Visited

variable {visited : Visited}

/-- A rule by itself has no rules in it. Its declarations stay, in their order. -/
theorem nested_own (visited : Visited) : visited.own.nested = [] := by
  rw [Rule.nested, List.filterMap_eq_nil_iff]
  intro item hitem
  have hdeclaration := (List.mem_filter.1 hitem).2
  cases item with
  | declaration declaration => rfl
  | rule rule => cases hdeclaration

/-- It has the declarations that it had. -/
theorem declarations_own (visited : Visited) :
    visited.own.declarations = visited.rule.declarations := by
  rw [Rule.declarations, Rule.declarations, own, List.filterMap_filter]
  refine congrArg (List.filterMap · visited.rule.items) (funext fun item => ?_)
  cases item <;> rfl

/-- The declarations of a rule by itself are at the same position. What is kept of a
rule is told by these pairs, so it can be looked for among the rules that are written
out. -/
theorem placed_own (visited : Visited) : visited.own.placed = visited.rule.placed := by
  rw [Rule.placed, Rule.placed, visited.declarations_own]
  rfl

/-- A rule that only frames others has no declarations, and there is a rule in it. The
first is why nothing is lost with it, the second why its selectors are found
elsewhere. -/
theorem of_isFrame (h : visited.isFrame) :
    visited.rule.declarations = [] ∧ ∃ inner, inner ∈ visited.rule.nested := by
  obtain ⟨hnone, hsome⟩ := Bool.and_eq_true_iff.1 h
  constructor
  · rw [Rule.declarations, List.filterMap_eq_nil_iff]
    rw [List.isEmpty_iff, List.filter_eq_nil_iff] at hnone
    exact fun item hitem => Option.not_isSome_iff_eq_none.1 (hnone item hitem)
  · obtain ⟨item, hitem, hrule⟩ := List.any_eq_true.1 hsome
    obtain ⟨inner, hinner⟩ := Option.isSome_iff_exists.1 hrule
    exact ⟨inner, List.mem_filterMap.2 ⟨item, hitem, hinner⟩⟩

end Visited

namespace Rule

variable {absolute : List Chain} {rule inner : Rule}

/-- The absolute selectors of a nested rule end at their keys, if those around it do.
This is what makes the absolute selectors products of those on the way. -/
theorem endsAtKey_nestAll (habsolute : ∀ selector ∈ absolute, selector.EndsAtKey)
    (hinner : inner.IsShaped) :
    ∀ selector ∈ nestAll absolute inner.selectors, selector.EndsAtKey := by
  intro selector hselector
  obtain ⟨parent, hparent, child, hchild, rfl⟩ := mem_nestAll.1 hselector
  exact (habsolute parent hparent).nest (hinner.selectors child hchild)

/-- All absolute selectors of a visit end at their keys, if those do that the visit
has started with. -/
theorem endsAtKey_of_mem_visitAs (habsolute : ∀ selector ∈ absolute, selector.EndsAtKey)
    (hshaped : ∀ visited ∈ rule.visitAs absolute, visited.rule.IsShaped) :
    ∀ visited ∈ rule.visitAs absolute, ∀ selector ∈ visited.absolute, selector.EndsAtKey := by
  induction rule using Rule.nested_induction generalizing absolute with
  | h rule ih =>
    intro visited hvisited
    rcases mem_visitAs_iff.1 hvisited with rfl | ⟨inner, hinner, hin⟩
    · exact habsolute
    · have hbelow : ∀ other ∈ inner.visitAs (nestAll absolute inner.selectors),
          other.rule.IsShaped := fun other hother =>
        hshaped other (mem_visitAs_iff.2 (.inr ⟨inner, hinner, hother⟩))
      have hself := hbelow _ (mem_visitAs_iff.2 (.inl rfl))
      exact ih inner hinner (endsAtKey_nestAll habsolute hself) hbelow visited hin

/-- The absolute selectors of a rule are in those of a rule that is written out: the
rule itself or, if it only frames others, one of them. The induction goes down along
first nested rules, to one that has declarations or nothing in it. -/
theorem exists_kept (habsolute : ∀ selector ∈ absolute, selector.EndsAtKey)
    (hshaped : ∀ visited ∈ rule.visitAs absolute, visited.rule.IsShaped) {selector : Chain}
    (hselector : selector ∈ absolute) :
    ∃ visited ∈ rule.visitAs absolute, visited.isFrame = false
      ∧ ∃ other ∈ visited.absolute, selector.Within other := by
  induction rule using Rule.nested_induction generalizing absolute selector with
  | h rule ih =>
    have hfirst : ⟨absolute, rule⟩ ∈ rule.visitAs absolute := mem_visitAs_iff.2 (.inl rfl)
    cases hframe : Visited.isFrame ⟨absolute, rule⟩ with
    | false => exact ⟨_, hfirst, hframe, selector, hselector, .refl selector⟩
    -- The rule is left out, so the selector is looked for in the first rule nested in it.
    | true =>
      obtain ⟨-, inner, hinner⟩ := Visited.of_isFrame hframe
      have hbelow : ∀ other ∈ inner.visitAs (nestAll absolute inner.selectors),
          other.rule.IsShaped := fun other hother =>
        hshaped other (mem_visitAs_iff.2 (.inr ⟨inner, hinner, hother⟩))
      have hself : inner.IsShaped := hbelow _ (mem_visitAs_iff.2 (.inl rfl))
      obtain ⟨child, hchild⟩ := List.exists_mem_of_ne_nil _ hself.ne_nil
      obtain ⟨visited, hvisited, hkept, other, hother, hwithin⟩ :=
        ih inner hinner (endsAtKey_nestAll habsolute hself) hbelow
          (mem_nestAll.2 ⟨selector, hselector, child, hchild, rfl⟩)
      have hnest := Chain.Within.nest (habsolute selector hselector) (hself.selectors child hchild)
      exact ⟨visited, mem_visitAs_iff.2 (.inr ⟨inner, hinner, hvisited⟩), hkept, other, hother,
        hnest.trans hwithin⟩

end Rule

namespace Stylesheet

variable {forest : Stylesheet}

/-- A visit of a forest visits each of its rules, with the selectors that are written
for it. -/
theorem mem_visit_iff {visited : Visited} :
    visited ∈ forest.visit ↔ ∃ rule ∈ forest.rules, visited ∈ rule.visitAs rule.selectors :=
  List.mem_flatMap

/-- In a forest of shaped rules all absolute selectors end at their keys. At the top
selectors are their own absolute ones, and on the way down nesting keeps it. -/
theorem IsShaped.endsAtKey (h : forest.IsShaped) :
    ∀ visited ∈ forest.visit, ∀ selector ∈ visited.absolute, selector.EndsAtKey := by
  intro visited hvisited
  obtain ⟨rule, hrule, hin⟩ := mem_visit_iff.1 hvisited
  have hbelow : ∀ other ∈ rule.visitAs rule.selectors, other.rule.IsShaped := fun other hother =>
    h other (mem_visit_iff.2 ⟨rule, hrule, hother⟩)
  have hself := hbelow _ (Rule.mem_visitAs_iff.2 (.inl rfl))
  exact Rule.endsAtKey_of_mem_visitAs hself.selectors hbelow visited hin

/-- Flattening loses nothing of a forest of rules that are shaped as rules are when
they have been read. Each of the four points is read off the rules of the visit that
are written out. -/
theorem keptBy_flatten (h : forest.IsShaped) : forest.KeptBy forest.flatten.rules := by
  have hoff : ∀ rule, rule ∈ forest.flatten.rules
      ↔ ∃ visited ∈ forest.visit, visited.isFrame = false ∧ visited.own = rule := by
    intro rule
    simp [rules_flatten, and_assoc]
  constructor
  case flat =>
    intro rule hrule
    obtain ⟨visited, -, -, rfl⟩ := (hoff rule).1 hrule
    exact visited.nested_own
  case declarations =>
    -- The rules that are left out have no declarations.
    rw [rules_flatten, List.flatMap_map]
    induction forest.visit with
    | nil => rfl
    | cons visited visits ih =>
      cases hframe : visited.isFrame with
      | false =>
        rw [List.filter_cons_of_pos (by simp [hframe]), List.flatMap_cons, List.flatMap_cons, ih,
          visited.placed_own]
      | true =>
        have hnone : visited.rule.placed = [] := by
          rw [Rule.placed, (Visited.of_isFrame hframe).1, List.map_nil]
        rw [List.filter_cons_of_neg (by simp [hframe]), List.flatMap_cons, ih, hnone,
          List.nil_append]
  case endsAtKey =>
    intro rule hrule
    obtain ⟨visited, hvisited, -, rfl⟩ := (hoff rule).1 hrule
    exact h.endsAtKey visited hvisited
  case within =>
    intro visited hvisited selector hselector
    obtain ⟨rule, hrule, hin⟩ := mem_visit_iff.1 hvisited
    have hbelow : ∀ other ∈ visited.rule.visitAs visited.absolute, other ∈ forest.visit :=
      fun other hother => mem_visit_iff.2 ⟨rule, hrule, Rule.mem_visitAs_trans hin hother⟩
    obtain ⟨kept, hkept, hframe, other, hother, hwithin⟩ :=
      Rule.exists_kept (h.endsAtKey visited hvisited) (fun v hv => h v (hbelow v hv)) hselector
    exact ⟨kept.own, (hoff _).2 ⟨kept, hbelow kept hkept, hframe, rfl⟩, other, hother, hwithin⟩

end Stylesheet

end BlockStyles
