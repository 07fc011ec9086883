import BlockStyles.Selector.Nesting

/-!
# `BlockStyles.Proofs.Selector.Nesting`: nesting in any order

A selector inside a selector inside a third one can be put together from the inside or from the
outside. What decides how two selectors join is the head of the inner one, and it speaks of the
element around it before it is joined to something inside just as after: a merge keeps the `&` of
the key it adds to. So nesting is associative, and the empty selector is its identity; the same
holds of lists of selectors, each of one list in each of another.

* `nestParts_append`: only the key of an outer selector is touched.
* `Chain.nest_assoc`: nesting is associative.
* `Grouping.product_eq`: levels can be combined in any order.
-/

set_option autoImplicit false

namespace BlockStyles.Selector

/-! ### Merging -/

/-- There is a `&` in two compounds together if there is one in either. -/
@[simp]
theorem Compound.hasParent_append (compound more : Compound) :
    Compound.hasParent (compound ++ more) = (compound.hasParent || more.hasParent) :=
  List.any_append

/-- Each `&` is dropped where it stands, so two compounds together lose those of
either. -/
@[simp]
theorem Compound.withoutParent_append (compound more : Compound) :
    Compound.withoutParent (compound ++ more) = compound.withoutParent ++ more.withoutParent :=
  List.filter_append ..

/-- No `&` is left when all of them have been dropped. With the lemmas around it, this
is what associativity of nesting is computed by. -/
@[simp]
theorem Compound.hasParent_withoutParent (compound : Compound) :
    compound.withoutParent.hasParent = false := by
  simp [hasParent, withoutParent]

/-- Dropping each `&` twice is dropping it once. -/
@[simp]
theorem Compound.withoutParent_withoutParent (compound : Compound) :
    compound.withoutParent.withoutParent = compound.withoutParent := by
  simp [withoutParent]

namespace Part

/-- A merge keeps the parent selectors of the part that it adds to, and brings in no
others. This is what makes nesting associative: merging something in does not change
how a part joins what is around it. -/
theorem hasParent_merge (key head : Part) :
    (key.merge head).compound.hasParent = key.compound.hasParent := by
  simp [merge]

/-- Conditions are added in the order of the parts, and the last combinator that leads
on counts. It does not matter, then, which two of three parts are merged first. -/
theorem merge_assoc (outer inner innermost : Part) :
    (outer.merge inner).merge innermost = outer.merge (inner.merge innermost) := by
  by_cases hinnermost : innermost.combinator = .none <;> simp [merge, hinnermost]

/-- What leads on to a descendant does so with more conditions, too. So the blank can
be put behind a key before it is merged or after. -/
theorem merge_descendant (key head : Part) :
    key.merge { head with combinator := .descendant }
      = { key.merge head with combinator := .descendant } := by
  simp [merge]

end Part

/-! ### Parts -/

variable {outer : List Part}

/-- What lies directly inside a selector, with nothing said about it, is the selector. -/
@[simp]
theorem nestParts_nil (outer : List Part) : nestParts outer [] = outer := by
  simp [nestParts]

/-- Nothing around it leaves a selector as it is, with each `&` in it. -/
@[simp]
theorem nil_nestParts (inner : List Part) : nestParts [] inner = inner := by
  cases inner <;> simp [nestParts]

/-- In front of the key of an outer selector nothing changes. The key is the last
part, so a part with others behind it stays. -/
theorem nestParts_cons (part : Part) (h : outer ≠ []) (inner : List Part) :
    nestParts (part :: outer) inner = part :: nestParts outer inner := by
  cases outer with
  | nil => exact absurd rfl h
  | cons next outer => cases inner <;> simp [nestParts]

/-- A key either takes the conditions of the inner head or leads on to it. It is the
head that decides, by a `&` in it. -/
theorem nestParts_key (key head : Part) (tail : List Part) :
    nestParts [key] (head :: tail)
      = if head.compound.hasParent then key.merge head :: tail
        else { key with combinator := .descendant } :: head :: tail := by
  simp [nestParts]

/-- The parts in front of the key of an outer selector stay as they are, and the tail
of the inner one does. Only the key and the inner head meet. -/
theorem nestParts_append (front : List Part) (key head : Part) (tail : List Part) :
    nestParts (front ++ [key]) (head :: tail)
      = front ++ (if head.compound.hasParent then key.merge head :: tail
        else { key with combinator := .descendant } :: head :: tail) := by
  induction front with
  | nil => exact nestParts_key key head tail
  | cons part front ih =>
    rw [List.cons_append, nestParts_cons part (by simp), ih, List.cons_append]

/-- What lies inside a selector has parts, since none of the outer ones goes away.
Associativity needs this, as the inner selector is looked at by its first part. -/
theorem nestParts_ne_nil (h : outer ≠ []) (inner : List Part) : nestParts outer inner ≠ [] := by
  cases outer with
  | nil => exact absurd rfl h
  | cons part outer =>
    cases outer with
    | cons next outer => simp [nestParts_cons]
    | nil =>
      cases inner with
      | nil => simp
      | cons head tail =>
        rw [nestParts_key]
        split <;> simp

/-- What is put inside a selector does not change whether its head speaks of the
element around it. The head can only change if it is the key as well, and then a merge
keeps its `&`. -/
theorem nestParts_head (head : Part) (tail innermost : List Part) :
    ∃ head' tail', nestParts (head :: tail) innermost = head' :: tail'
      ∧ head'.compound.hasParent = head.compound.hasParent := by
  cases tail with
  | cons next tail => exact ⟨head, _, nestParts_cons head (by simp) innermost, rfl⟩
  | nil =>
    cases innermost with
    | nil => exact ⟨head, [], nestParts_nil _, rfl⟩
    | cons first rest =>
      rw [nestParts_key]
      split
      · exact ⟨_, _, rfl, Part.hasParent_merge head first⟩
      · exact ⟨_, _, rfl, rfl⟩

/-- Behind a key that takes the conditions of the inner head, what is innermost joins
as it does without the key. This is the case of associativity in which the inner
selector may be a single part, so that two joins meet in it. -/
theorem nestParts_merge (key head : Part) (tail innermost : List Part)
    (h : head.compound.hasParent) :
    nestParts (key.merge head :: tail) innermost
      = nestParts [key] (nestParts (head :: tail) innermost) := by
  cases tail with
  | cons next tail =>
    have hrest : next :: tail ≠ [] := List.cons_ne_nil next tail
    rw [nestParts_cons _ hrest, nestParts_cons head hrest, nestParts_key, if_pos h]
  -- The merged part is the key of what lies around, so now the innermost head decides.
  | nil =>
    cases innermost with
    | nil => rw [nestParts_nil, nestParts_nil, nestParts_key, if_pos h]
    | cons first rest =>
      rw [nestParts_key, nestParts_key]
      split
      -- The innermost head is merged, too.
      · have hmerge : (head.merge first).compound.hasParent := (Part.hasParent_merge ..).trans h
        rw [nestParts_key, if_pos hmerge, Part.merge_assoc]
      · rw [nestParts_key, if_pos h, Part.merge_descendant]

/-- Nesting is associative in the parts. The induction is on the outer selector, of which only the
key joins anything. -/
theorem nestParts_assoc (outer inner innermost : List Part) :
    nestParts (nestParts outer inner) innermost = nestParts outer (nestParts inner innermost) := by
  induction outer with
  | nil => rw [nil_nestParts, nil_nestParts]
  | cons key outer ih =>
    by_cases houter : outer = []
    · subst houter
      cases inner with
      | nil => rw [nestParts_nil, nil_nestParts]
      | cons head tail =>
        by_cases hparent : head.compound.hasParent
        · rw [nestParts_key, if_pos hparent, nestParts_merge key head tail innermost hparent]
        · obtain ⟨head', tail', hnest, hhead⟩ := nestParts_head head tail innermost
          rw [nestParts_key, if_neg hparent, nestParts_cons _ (by simp), hnest, nestParts_key,
            if_neg (hhead ▸ hparent)]
    · rw [nestParts_cons key houter, nestParts_cons key (nestParts_ne_nil houter inner), ih,
        nestParts_cons key houter]

/-! ### Selectors and lists of them -/

/-- The empty selector, which says nothing about the element inside it. It is never
read from a text, and serves as the identity of nesting. -/
def Chain.empty : Chain := ⟨[]⟩

/-- Nesting is associative. A selector in a selector in a third one can be put
together from either end. -/
theorem Chain.nest_assoc (outer inner innermost : Chain) :
    (outer.nest inner).nest innermost = outer.nest (inner.nest innermost) :=
  congrArg Chain.mk (nestParts_assoc outer.parts inner.parts innermost.parts)

/-- Nesting is associative in lists of selectors, too, with the selectors in the same
order: first by the outermost one, then by the one in the middle. -/
theorem nestAll_assoc (outer inner innermost : List Chain) :
    nestAll (nestAll outer inner) innermost = nestAll outer (nestAll inner innermost) := by
  have hnest : ∀ parent child : Chain, (parent.nest child).nest = parent.nest ∘ child.nest :=
    fun parent child => funext (parent.nest_assoc child)
  simp only [nestAll, List.flatMap_assoc, List.flatMap_map, List.map_flatMap, List.map_map, hnest]

/-- Each selector stays as it is with the empty one inside it. It is the identity from
the right, and `empty_nestAll` says that it is one from the left. -/
@[simp]
theorem nestAll_empty (outer : List Chain) : nestAll outer [.empty] = outer := by
  simp [nestAll, Chain.empty, Chain.nest_nil, List.flatMap_singleton']

/-- Each selector stays as it is inside the empty one. -/
@[simp]
theorem empty_nestAll (inner : List Chain) : nestAll [.empty] inner = inner := by
  have hid : Chain.empty.nest = id := funext Chain.nil_nest
  simp [nestAll, hid]

/-! ### Levels -/

/-- The selectors of levels that lie inside one another, combined from the innermost
level on. No levels at all leave the empty selector, which adds nothing to what comes
inside. -/
def product : List (List Chain) → List Chain
  | [] => [.empty]
  | level :: levels => nestAll level (product levels)

/-- The levels can be divided anywhere: those inside are combined, those outside are,
and then the two. -/
theorem product_append (outer inner : List (List Chain)) :
    product (outer ++ inner) = nestAll (product outer) (product inner) := by
  induction outer with
  | nil => exact (empty_nestAll _).symm
  | cons level outer ih => rw [List.cons_append, product, ih, product, nestAll_assoc]

/-- A way to combine levels that lie inside one another: no level, a single one, or a group of
them with the next group inside. -/
inductive Grouping where
  | none
  | level (selectors : List Chain)
  | join (outer inner : Grouping)

namespace Grouping

/-- The levels that are combined, from the outermost on. -/
def levels : Grouping → List (List Chain)
  | none => []
  | level selectors => [selectors]
  | join outer inner => outer.levels ++ inner.levels

/-- The selectors that this way of combining the levels gives. -/
def product : Grouping → List Chain
  | none => [.empty]
  | level selectors => selectors
  | join outer inner => nestAll outer.product inner.product

/-- All ways to combine the same levels give the same selectors. By induction on the
way of combining, both sides of a join are what the order from the innermost level on
gives. -/
theorem product_eq (group : Grouping) : group.product = Selector.product group.levels := by
  induction group with
  | none => rfl
  | level selectors => exact (nestAll_empty selectors).symm
  | join outer inner houter hinner => rw [product, levels, product_append, houter, hinner]

end Grouping

end BlockStyles.Selector
