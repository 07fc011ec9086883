import BlockStyles.Proofs.Stylesheet.Visit
import Mathlib.Data.List.Infix

/-!
# `BlockStyles.Proofs.Stylesheet.Levels`: absolute selectors as a product of levels

A rule somewhere in a forest has the rules around it above it, level by level. Flattening goes down
and combines the selectors of a level with what it has from the levels above, so the selectors of
the outermost rule are combined first. Nesting is associative, so the absolute selectors of a rule
are the product of its levels, and it does not matter which of them are combined first.

* `Rule.LeadsTo`: the levels from a rule down to one that stands in it.
* `Rule.LeadsTo.visitAs_infix`: at the end of the levels a rule is visited with their product.
* `Rule.exists_leadsTo`: there are no other visits.
* `Stylesheet.flatten_by_levels`: what is written out has the product of its levels as selectors.
-/

set_option autoImplicit false

namespace BlockStyles

open BlockStyles.Selector (Chain Grouping empty_nestAll nestAll nestAll_assoc nestAll_empty product)

/-- The last rule is the first one or stands in it, perhaps with others in between.
The levels are the selectors of all these rules, as they are written, from the
outermost on. There can be several rules with the same levels, and then each of them
is led to. -/
inductive Rule.LeadsTo : Rule → List (List Chain) → Rule → Prop where
  | here (rule : Rule) : LeadsTo rule [rule.selectors] rule
  | inside {outer inner rule : Rule} {levels : List (List Chain)} (hinner : inner ∈ outer.nested)
      (h : LeadsTo inner levels rule) : LeadsTo outer (outer.selectors :: levels) rule

namespace Rule

variable {outer inner rule : Rule} {levels : List (List Chain)} {above absolute : List Chain}

/-- The visit of a nested rule is part of the visit of the rule around it. It is one
piece of it, since a rule is visited with all that is in it before the next one is. -/
theorem visitAs_infix_of_mem_nested (h : inner ∈ outer.nested) (absolute : List Chain) :
    inner.visitAs (nestAll absolute inner.selectors) <:+: outer.visitAs absolute := by
  have hnested : inner.visitAs (nestAll absolute inner.selectors)
      ∈ outer.nested.map fun rule => rule.visitAs (nestAll absolute rule.selectors) :=
    List.mem_map.2 ⟨inner, h, rfl⟩
  rw [visitAs_eq absolute outer, List.flatMap_def]
  exact (List.infix_of_mem_flatten hnested).trans (List.suffix_cons _ _).isInfix

/-- At the end of the levels the rule is visited with their product inside of what is
above. The induction is on the way down, with any selectors above: each step puts one
level to them, which associativity moves to the levels below. -/
theorem LeadsTo.visitAs_infix (h : outer.LeadsTo levels rule) (above : List Chain) :
    rule.visitAs (nestAll above (product levels))
      <:+: outer.visitAs (nestAll above outer.selectors) := by
  induction h generalizing above with
  | here rule =>
    rw [product, product, nestAll_empty]
  | @inside outer inner rule levels hinner _ ih =>
    have hbelow := ih (nestAll above outer.selectors)
    rw [nestAll_assoc] at hbelow
    exact hbelow.trans (visitAs_infix_of_mem_nested hinner _)

/-- Every rule that is visited stands at the end of some levels, and is visited with
their product. So flattening brings in no selectors that are not combined from levels. -/
theorem exists_leadsTo {visited : Visited}
    (h : visited ∈ rule.visitAs (nestAll above rule.selectors)) :
    ∃ levels, rule.LeadsTo levels visited.rule
      ∧ visited.absolute = nestAll above (product levels) := by
  induction rule using Rule.nested_induction generalizing above with
  | h rule ih =>
    rcases mem_visitAs_iff.1 h with rfl | ⟨inner, hinner, hin⟩
    · exact ⟨_, .here rule, by rw [product, product, nestAll_empty]⟩
    · obtain ⟨levels, hlevels, habsolute⟩ := ih inner hinner hin
      exact ⟨_, .inside hinner hlevels, by rw [habsolute, nestAll_assoc, product]⟩

/-- What is written out follows the visit: a piece of the visit is a piece of what is
written out. -/
theorem flattenAs_infix {selectors : List Chain}
    (h : rule.visitAs selectors <:+: outer.visitAs absolute) :
    rule.flattenAs selectors <:+: outer.flattenAs absolute := by
  rw [flattenAs_eq, flattenAs_eq]
  exact (h.filter _).map _

end Rule

namespace Stylesheet

/-- Nesting is associative, and the empty selector is its identity on both sides; so
all ways to combine levels give the same selectors. With these a rule at any depth of
a forest is written out, in whichever way its levels are combined, and no other rules
are. What is written out for a rule is one piece of the flattened sheet: the rule, if
it has declarations or nothing in it, and what is in it. -/
theorem flatten_by_levels :
    (∀ outer inner innermost : Chain,
        (outer.nest inner).nest innermost = outer.nest (inner.nest innermost))
      ∧ (∀ selector : Chain,
        selector.nest .empty = selector ∧ Chain.empty.nest selector = selector)
      ∧ (∀ group : Grouping, group.product = product group.levels)
      ∧ ∀ forest : Stylesheet,
        (∀ top ∈ forest.rules, ∀ (group : Grouping) (rule : Rule),
          top.LeadsTo group.levels rule → rule.flattenAs group.product <:+: forest.flatten.rules)
        ∧ ∀ written ∈ forest.flatten.rules, ∃ top ∈ forest.rules, ∃ levels rule,
          top.LeadsTo levels rule ∧ written.selectors = product levels
            ∧ written.declarations = rule.declarations ∧ written.position = rule.position := by
  refine ⟨Chain.nest_assoc, fun selector => ⟨selector.nest_nil, selector.nil_nest⟩,
    Grouping.product_eq, fun forest => ⟨?_, ?_⟩⟩
  · intro top htop group rule hlevels
    -- With the empty selector above, the levels are all there is.
    have hvisit := hlevels.visitAs_infix [.empty]
    rw [empty_nestAll, empty_nestAll, ← group.product_eq] at hvisit
    exact (Rule.flattenAs_infix hvisit).trans (List.infix_flatMap_of_mem htop Rule.flatten)
  · intro written hwritten
    -- What is written out has been visited, and visits come from levels only.
    rw [rules_flatten] at hwritten
    obtain ⟨visited, hvisited, rfl⟩ := List.mem_map.1 hwritten
    obtain ⟨top, htop, hin⟩ := mem_visit_iff.1 (List.mem_of_mem_filter hvisited)
    rw [← empty_nestAll top.selectors] at hin
    obtain ⟨levels, hlevels, habsolute⟩ := Rule.exists_leadsTo hin
    rw [empty_nestAll] at habsolute
    exact ⟨top, htop, levels, visited.rule, hlevels, habsolute, visited.declarations_own, rfl⟩

/-- Two selectors on the first level, a combinator behind the `&` of the second one,
and an `&` with a condition on the third: the selectors are the same if the inner
levels are combined first. Each selector of a level is combined with each of the next,
in this order. -/
theorem flatten_by_levels_three :
    let first : Chain := ⟨[⟨[.cls "a"], .none⟩]⟩
    let other : Chain := ⟨[⟨[.cls "b"], .none⟩]⟩
    let second : Chain := ⟨[⟨[.parent], .child⟩, ⟨[.cls "c"], .none⟩]⟩
    let third : Chain := ⟨[⟨[.parent, .pseudoClass "hover"], .none⟩]⟩
    let innermost : Rule := ⟨[third], [], ⟨3, 1⟩⟩
    let inner : Rule := ⟨[second], [.rule innermost], ⟨2, 1⟩⟩
    let outer : Rule := ⟨[first, other], [.rule inner], ⟨1, 1⟩⟩
    let fromOutside : Grouping := .join (.join (.level [first, other]) (.level [second]))
      (.level [third])
    let fromInside : Grouping := .join (.level [first, other])
      (.join (.level [second]) (.level [third]))
    outer.LeadsTo fromInside.levels innermost
      ∧ innermost.flattenAs fromInside.product <:+: (flatten ⟨[], [outer]⟩).rules
      ∧ fromInside.product = fromOutside.product
      ∧ Selector.listText fromInside.product = ".a > .c:hover, .b > .c:hover" := by
  intro first other second third innermost inner outer fromOutside fromInside
  -- Both groupings have the three levels in this order.
  have hlevels : outer.LeadsTo fromInside.levels innermost :=
    .inside (List.mem_singleton_self inner)
      (.inside (List.mem_singleton_self innermost) (.here innermost))
  obtain ⟨-, -, hproduct, hforest⟩ := flatten_by_levels
  have hwritten := (hforest ⟨[], [outer]⟩).1 outer (List.mem_singleton_self outer) fromInside
    innermost hlevels
  exact ⟨hlevels, hwritten, (hproduct fromInside).trans (hproduct fromOutside).symm, by decide⟩

end Stylesheet

end BlockStyles
