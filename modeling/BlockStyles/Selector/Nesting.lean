import BlockStyles.Selector.Basic

/-!
# `BlockStyles.Selector.Nesting`: a selector written inside another

A selector of a nested rule is relative to each selector of the rule around it.
If its first compound holds the parent selector `&`, that compound is merged
into the key of the outer selector; otherwise the whole of it describes an
element inside.

* `nest_nil`, `nil_nest`: the empty selector changes nothing, on either side.
-/

set_option autoImplicit false

namespace BlockStyles.Selector

/-- Whether the compound speaks of the element of the enclosing rule. -/
def Compound.hasParent (compound : Compound) : Bool :=
  compound.any (· == .parent)

/-- The compound without its parent selectors. -/
def Compound.withoutParent (compound : Compound) : Compound :=
  compound.filter (· != .parent)

/-- The key of the outer selector, with the conditions of the inner head added
to it. It leads on as the inner head does, if that is followed by anything. -/
def Part.merge (key head : Part) : Part where
  compound := key.compound ++ head.compound.withoutParent
  combinator := if head.combinator = .none then key.combinator else head.combinator

/-- The parts of an outer selector followed by those of an inner one. -/
def nestParts : List Part → List Part → List Part
  | outer, [] => outer
  | [], inner => inner
  | [key], head :: tail =>
    if head.compound.hasParent then
      key.merge head :: tail
    else
      { key with combinator := .descendant } :: head :: tail
  | part :: next :: outer, inner => part :: nestParts (next :: outer) inner

/-- The inner selector as seen from outside the outer one. -/
def Chain.nest (outer inner : Chain) : Chain :=
  ⟨nestParts outer.parts inner.parts⟩

/-- The empty selector inside another one adds nothing to it. -/
theorem Chain.nest_nil (outer : Chain) : outer.nest ⟨[]⟩ = outer := by
  simp [nest, nestParts]

/-- Inside the empty selector another one is what it is, even if it speaks of
a parent: there is no key to merge it with. -/
theorem Chain.nil_nest (inner : Chain) : (⟨[]⟩ : Chain).nest inner = inner := by
  obtain ⟨parts⟩ := inner
  cases parts <;> simp [nest, nestParts]

/-- Every inner selector under every outer one, the outer ones first in order. -/
def nestAll (outer inner : List Chain) : List Chain :=
  outer.flatMap fun parent => inner.map parent.nest

end BlockStyles.Selector
