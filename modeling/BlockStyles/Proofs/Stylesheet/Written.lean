import BlockStyles.Proofs.Folds
import BlockStyles.Proofs.Selector.Display
import BlockStyles.Proofs.Stylesheet.Steps

/-!
# `BlockStyles.Proofs.Stylesheet.Written`: written stylesheets are read back

A stylesheet is written with every item on a line of its own. A rule in a rule and a
declaration are told apart by what follows the names at their front, and a value by where
its quotes and parentheses close, so the tree that has been written is the one
that is read. Nothing is said about positions, which are those of the written text.

* `Declaration.read?_written`, `AtRule.read_written`: declarations and at-rules are read from their
  written forms.
* `Rule.exists_read_eq_error_of_declaration`: a declaration is not taken for a rule, which is tried
  first.
* `Rule.read_written`: a rule is read from its written form with all that is in it.
* `Stylesheet.unplaced_flatten`: positions play no part in flattening.
* `Stylesheet.ofSource_written`: so is a stylesheet, and it is flattened then.
-/

set_option autoImplicit false

namespace BlockStyles

open BlockStyles.Text
open BlockStyles.Selector (Chain Compound Simple readList listText)

variable {source text rest left : List Char}

/-! ### Writing -/

/-- The value with the mark of importance behind it, if it is important. This is the
text that is read as a value and then split again. -/
def Declaration.raw (declaration : Declaration) : List Char :=
  if declaration.important then declaration.value.toList ++ ' ' :: importantMark
  else declaration.value.toList

/-- The property and the value with a colon between them and a semicolon at the end. -/
def Declaration.written (declaration : Declaration) : List Char :=
  declaration.property.toList ++ ':' :: ' ' :: (declaration.raw ++ [';'])

/-- The name behind an `@`, the text behind the name, and a semicolon. -/
def AtRule.written (atRule : AtRule) : List Char :=
  '@' :: (atRule.name.toList ++ ' ' :: (atRule.prelude.toList ++ [';']))

mutual

/-- The selectors and, between braces, the items, each on its own line. The position
is not written: it is where the text stands. -/
def Rule.written : Rule → List Char
  | ⟨selectors, items, _⟩ =>
    (listText selectors).toList ++ ' ' :: '\x7b' :: '\n' :: (itemsText items ++ ['\x7d'])

/-- The items, each with the end of its line. -/
def itemsText : List (Item Rule) → List Char
  | [] => []
  | item :: items => itemText item ++ '\n' :: itemsText items

/-- The written form of an item. -/
def itemText : Item Rule → List Char
  | .declaration declaration => declaration.written
  | .rule ⟨selectors, items, position⟩ => Rule.written ⟨selectors, items, position⟩

end

/-- The at-rules and then the rules, each on lines of its own. -/
def Stylesheet.written (sheet : Stylesheet) : List Char :=
  sheet.atRules.flatMap (fun atRule => atRule.written ++ ['\n'])
    ++ sheet.rules.flatMap (fun rule => rule.written ++ ['\n'])

/-! ### What can be written -/

/-- The text can stand as a value: it has no white space around it, no mark of
importance at its end, closes its quotes and parentheses, and has no terminator
outside them. -/
structure IsValue (text : List Char) : Prop where
  ne_nil : text ≠ []
  trimmed : trim text = text
  unmarked : ¬ importantMark <:+ text
  sealed : RawValue.Sealed 0 text

/-- Whether a text can stand as a value can be tested, since scanning it decides
whether it is sealed. -/
instance (text : List Char) : Decidable (IsValue text) :=
  decidable_of_iff
    (text ≠ [] ∧ trim text = text ∧ ¬ importantMark <:+ text ∧ RawValue.Sealed 0 text)
    ⟨fun ⟨hne, htrim, hmark, hsealed⟩ => ⟨hne, htrim, hmark, hsealed⟩,
      fun ⟨hne, htrim, hmark, hsealed⟩ => ⟨hne, htrim, hmark, hsealed⟩⟩

/-- The property is an identifier, and the value can stand as one. -/
structure Declaration.IsWritable (declaration : Declaration) : Prop where
  property : isIdentifier declaration.property
  value : IsValue declaration.value.toList

/-- The name is an identifier, and the text behind it can stand as a value. -/
structure AtRule.IsWritable (atRule : AtRule) : Prop where
  name : isIdentifier atRule.name
  prelude : IsValue atRule.prelude.toList

/-- The selectors of the rule are a list that is read from some text, with values as
they are read, and its items can be written. This holds at every depth, so that the
rules in a rule can be read back as well. -/
inductive Rule.IsWritable : Rule → Prop where
  | intro {selectors : List Chain} {items : List (Item Rule)} {position : Position}
      (hread : ∃ text rest, readList text = .ok (selectors, rest))
      (hplain : ∀ selector ∈ selectors, selector.HasPlainValues)
      (hdeclarations : ∀ declaration, Item.declaration declaration ∈ items →
        declaration.IsWritable)
      (hrules : ∀ rule, Item.rule rule ∈ items → IsWritable rule) :
      IsWritable ⟨selectors, items, position⟩

/-- All statements can be written. -/
structure Stylesheet.IsWritable (sheet : Stylesheet) : Prop where
  atRules : ∀ atRule ∈ sheet.atRules, atRule.IsWritable
  rules : ∀ rule ∈ sheet.rules, rule.IsWritable

/-! ### Values -/

namespace Declaration.IsWritable

variable {declaration : Declaration}

/-- With the mark of importance behind it, a value still closes what it opens, since
the mark opens nothing. -/
theorem sealed_raw (h : declaration.IsWritable) : RawValue.Sealed 0 declaration.raw := by
  have hmark : RawValue.Sealed 0 (' ' :: importantMark) :=
    .of_plain (by simp [importantMark, isQuote, RawValue.isTerminator])
  unfold raw
  split
  · exact h.value.sealed.append hmark
  · exact h.value.sealed

/-- There is no white space around it, either. The mark ends with a letter, and the
value is not empty. -/
theorem trim_raw (h : declaration.IsWritable) : trim declaration.raw = declaration.raw := by
  unfold raw
  split
  · refine trim_eq_self_iff.2 ⟨?_, ?_⟩
    · intro c hc
      refine (trim_eq_self_iff.1 h.value.trimmed).1 c ?_
      cases hvalue : declaration.value.toList with
      | nil => exact absurd hvalue h.value.ne_nil
      | cons d rest =>
        rw [hvalue] at hc
        exact hc
    · intro c hc
      rw [List.getLast?_append] at hc
      cases hc
      decide
  · exact h.value.trimmed

/-- The value that is written is not empty, so there is something to read. -/
theorem raw_ne_nil (h : declaration.IsWritable) : declaration.raw ≠ [] := by
  unfold raw
  split
  · exact List.append_ne_nil_of_right_ne_nil _ (List.cons_ne_nil _ _)
  · exact h.value.ne_nil

/-- The mark of importance is split off a value if it has been written. Otherwise the
value does not end with one, which is asked of values. -/
theorem splitImportant_raw (h : declaration.IsWritable) :
    splitImportant declaration.raw = (declaration.value.toList, declaration.important) := by
  unfold raw
  split
  · rename_i himportant
    have hsuffix : importantMark <:+ declaration.value.toList ++ ' ' :: importantMark :=
      (List.suffix_cons ' ' importantMark).trans (List.suffix_append _ _)
    -- The blank in front of the mark stays with the value, and is trimmed off then.
    have htake : (declaration.value.toList ++ ' ' :: importantMark).take
        ((declaration.value.toList ++ ' ' :: importantMark).length - importantMark.length)
        = declaration.value.toList ++ [' '] := by
      rw [List.append_cons, List.length_append, Nat.add_sub_cancel, List.take_left]
    have htrim : trimEnd (declaration.value.toList ++ [' ']) = declaration.value.toList := by
      have hspace : trimEnd (declaration.value.toList ++ [' '])
          = trimEnd declaration.value.toList := by
        rw [trimEnd, List.reverse_append]
        rfl
      rw [hspace, trimEnd_eq_self (trim_eq_self_iff.1 h.value.trimmed).2]
    rw [splitImportant, if_pos (List.isSuffixOf_iff_suffix.2 hsuffix), htake, htrim, himportant]
  · rename_i himportant
    rw [splitImportant, if_neg (fun hs => h.value.unmarked (List.isSuffixOf_iff_suffix.1 hs)),
      Bool.eq_false_iff.2 himportant]

end Declaration.IsWritable

/-! ### Positions left out -/

/-- The declaration without its position. Positions are those of the written text, of
which the tree knows nothing. -/
def Declaration.unplaced (declaration : Declaration) : Declaration :=
  { declaration with position := .unknown }

/-- The at-rule without its position. -/
def AtRule.unplaced (atRule : AtRule) : AtRule :=
  { atRule with position := .unknown }

mutual

/-- The rule without its position and those of its items. -/
def Rule.unplaced : Rule → Rule
  | ⟨selectors, items, _⟩ => ⟨selectors, unplacedItems items, .unknown⟩

/-- The items without their positions. -/
def unplacedItems : List (Item Rule) → List (Item Rule)
  | [] => []
  | item :: items => unplacedItem item :: unplacedItems items

/-- The item without its positions. -/
def unplacedItem : Item Rule → Item Rule
  | .declaration declaration => .declaration declaration.unplaced
  | .rule ⟨selectors, items, position⟩ => .rule (Rule.unplaced ⟨selectors, items, position⟩)

end

/-- The stylesheet without any positions. -/
def Stylesheet.unplaced (sheet : Stylesheet) : Stylesheet :=
  ⟨sheet.atRules.map AtRule.unplaced, sheet.rules.map Rule.unplaced⟩

/-! ### Reading statements -/

/-- A declaration is read from its written form. Its property ends at the colon and
its value at the semicolon, which is what its being writable says. -/
theorem Declaration.read?_written {declaration : Declaration} (h : declaration.IsWritable)
    (htext : skipBlanks text = declaration.written ++ left) :
    ∃ read, Declaration.read? source text = some (read, left)
      ∧ read.unplaced = declaration.unplaced := by
  have hwritten : declaration.written ++ left
      = declaration.property.toList ++ ':' :: ' ' :: (declaration.raw ++ ';' :: left) := by
    simp [written]
  -- The four pieces of a declaration, in their order.
  have hproperty : Identifier.read (skipBlanks text)
      = .ok (declaration.property, ':' :: ' ' :: (declaration.raw ++ ';' :: left)) := by
    rw [htext, hwritten]
    exact Identifier.read_append h.property fun c hc => by cases hc; decide
  have hcolon : skipBlanks (':' :: ' ' :: (declaration.raw ++ ';' :: left))
      = ':' :: ' ' :: (declaration.raw ++ ';' :: left) := rfl
  have hskip : skipBlanks (' ' :: (declaration.raw ++ ';' :: left))
      = declaration.raw ++ ';' :: left :=
    skipBlanks_append_of_trim h.trim_raw h.raw_ne_nil _
  have hvalue : RawValue.read (declaration.raw ++ ';' :: left)
      = .ok (declaration.raw, ';' :: left) :=
    RawValue.read_append h.sealed_raw h.raw_ne_nil fun c hc => by cases hc; decide
  have hsemicolon : skipBlanks (';' :: left) = ';' :: left := rfl
  refine ⟨{ declaration with position := .ofSuffix source (skipBlanks text) }, ?_, rfl⟩
  unfold Declaration.read?
  simp only [hproperty, hcolon, hskip, hvalue, h.trim_raw, h.splitImportant_raw, hsemicolon]
  rw [if_neg (by simpa using h.value.ne_nil), String.ofList_toList]

/-- A declaration is no rule: its property would be the selector, but a colon follows.
The blank behind the colon matters, without which a pseudo-class might be read. -/
theorem Rule.exists_read_eq_error_of_declaration {declaration : Declaration}
    (h : declaration.IsWritable) (htext : skipBlanks text = declaration.written ++ left) :
    ∃ stop, Rule.read source text = .error stop := by
  let after := ':' :: ' ' :: (declaration.raw ++ ';' :: left)
  have hskip : skipBlanks text = declaration.property.toList ++ after := by
    rw [htext]
    simp [Declaration.written, after]
  have hnone : ∃ stop, Simple.read after = .error stop :=
    Simple.exists_read_colon_eq_error (by decide) (by decide)
  -- The property is read as an element type, which is all of the compound, of the chain and
  -- of the list.
  have hsimple : Simple.read (declaration.property.toList ++ after)
      = .ok (.type declaration.property, after) := by
    rw [← List.nil_append (declaration.property.toList ++ after)]
    exact Simple.read_named rfl h.property fun c hc => by cases hc; decide
  have hrun : Compound.readRun (declaration.property.toList ++ after)
      = ([.type declaration.property], after) := by
    rw [Compound.readRun_of_read hsimple, Compound.readRun_of_error hnone]
  have hparts : Chain.readParts [.type declaration.property] after
      = ([⟨[.type declaration.property], .none⟩], after) := by
    refine Selector.Chain.readParts_end _ (fun c hc => by cases hc; decide) ⟨after, ?_⟩
    have hafter : skipBlanks after = after := rfl
    rw [hafter, Compound.read, Compound.readRun_of_error hnone]
  have hmore : Selector.readMore after = ([], after) :=
    Selector.readMore_end fun c hc => by cases hc; decide
  have hlist : readList (skipBlanks text)
      = .ok ([⟨[⟨[.type declaration.property], .none⟩]⟩], after) := by
    have hagain : skipBlanks (declaration.property.toList ++ after)
        = declaration.property.toList ++ after := by
      rw [← hskip]
      exact skipBlanks_eq_self (isBlank_head_skipBlanks text)
    rw [hskip, readList, hagain, Chain.read, Compound.read, hrun]
    dsimp only
    rw [hparts]
    dsimp only
    rw [hmore]
  refine Rule.exists_read_eq_error fun selectors afterSelectors hread body hopen => ?_
  rw [hlist] at hread
  cases hread
  cases hopen

/-- What is written for a rule begins like its first selector. So it is taken neither
for an at-rule nor for the end of a body. -/
theorem Rule.IsWritable.exists_cons {rule : Rule} (h : rule.IsWritable) :
    ∃ c tail, rule.written = c :: tail ∧ Selector.startsSimple c := by
  obtain ⟨⟨text, rest, hread⟩, -, -, -⟩ := h
  obtain ⟨hne, hselectors⟩ := Selector.wellFormed_of_readList hread
  rename_i selectors items position
  cases selectors with
  | nil => exact absurd rfl hne
  | cons selector selectors =>
    obtain ⟨c, tail, htext, hc⟩ :=
      Selector.Chain.exists_cons_text (hselectors selector List.mem_cons_self)
    exact ⟨c, _, by rw [Rule.written, Selector.toList_listText_cons, htext]; rfl, hc⟩

/-- There is no item where no selector can begin. A declaration begins with a name,
with which a selector could begin as well. -/
theorem readItems_of_mark {mark : Char} (hmark : Selector.startsSimple mark = false)
    (hskip : skipBlanks text = mark :: rest) : readItems source text = ([], text) := by
  have hstart : ∀ c ∈ (skipBlanks text).head?, Selector.startsSimple c = false := by
    intro c hc
    rw [hskip] at hc
    exact Option.mem_some.1 hc ▸ hmark
  have hagain : skipBlanks (skipBlanks text) = skipBlanks text :=
    skipBlanks_eq_self (isBlank_head_skipBlanks text)
  -- There is no rule, as no selector can begin with the mark,
  obtain ⟨left, hrule⟩ : ∃ left, Rule.read source text = .error left := by
    refine Rule.exists_read_eq_error fun selectors afterSelectors hread => ?_
    rw [readList, hagain, Chain.read, Compound.read_eq_error hstart] at hread
    cases hread
  -- and no declaration, as no name can.
  have hdeclaration : Declaration.read? source text = none := by
    have hidentifier : isIdentifierChar mark = false := (Bool.or_eq_false_iff.1 hmark).1
    have hname : Identifier.read (mark :: rest) = .error (mark :: rest) := by
      simp [Identifier.read, hidentifier]
    unfold Declaration.read?
    simp only [hskip, hname]
  exact readItems_end hrule hdeclaration

/-- Where a brace closes there is no item. So the items of a rule end there. -/
theorem readItems_close (hskip : skipBlanks text = '\x7d' :: rest) :
    readItems source text = ([], text) :=
  readItems_of_mark (by decide) hskip

/-- A rule has no items if there is nothing between its braces. It is read all the
same. -/
theorem Rule.read_close {selectors : List Chain} {afterSelectors body : List Char}
    (hlist : readList (skipBlanks text) = .ok (selectors, afterSelectors))
    (hopen : skipBlanks afterSelectors = '\x7b' :: body)
    (hclose : skipBlanks body = '\x7d' :: rest) :
    Rule.read source text = .ok (⟨selectors, [], .ofSuffix source (skipBlanks text)⟩, rest) := by
  have hitems : readItems source body = ([], body) := readItems_close hclose
  refine Rule.read_eq_ok_iff.2 ⟨selectors, afterSelectors, body, hlist, hopen, ?_, ?_⟩
  · rw [hitems]
    exact hclose
  · rw [hitems]

mutual

/-- A rule is read from its written form. The recursion is over the tree, with the
items between the braces, and with any text behind the rule. -/
theorem Rule.read_written (source : List Char) : (rule : Rule) → rule.IsWritable →
    ∀ {text rest : List Char}, skipBlanks text = rule.written ++ rest →
      ∃ read, Rule.read source text = .ok (read, rest) ∧ read.unplaced = rule.unplaced
  | ⟨selectors, items, position⟩, h, text, rest, htext => by
    obtain ⟨⟨from', left, hread⟩, hplain, hdeclarations, hrules⟩ := h
    obtain ⟨hne, hselectors⟩ := Selector.wellFormed_of_readList hread
    obtain ⟨read, hitems, hunplaced⟩ := readItems_written source items hdeclarations hrules rest
    let body := '\n' :: (itemsText items ++ '\x7d' :: rest)
    -- The selectors end at the blank in front of the brace.
    have hlist : readList (skipBlanks text) = .ok (selectors, ' ' :: '\x7b' :: body) := by
      have hwritten : skipBlanks text
          = (listText selectors).toList ++ ' ' :: '\x7b' :: body := by
        rw [htext]
        simp [Rule.written, body]
      rw [hwritten, Selector.readList_text hne hselectors fun c hc => (Option.mem_some.1 hc).symm,
        Selector.map_reread_eq_self_iff.2 hplain]
    refine ⟨_,
      Rule.read_eq_ok_iff.2 ⟨selectors, ' ' :: '\x7b' :: body, body, hlist, rfl, ?_, rfl⟩, ?_⟩
    · rw [hitems]
      rfl
    · rw [hitems, Rule.unplaced, Rule.unplaced, hunplaced]

/-- Items are read from their written form, up to the brace that closes their rule.
That brace is needed for the last item to be the last. -/
theorem readItems_written (source : List Char) : (items : List (Item Rule)) →
    (∀ declaration, Item.declaration declaration ∈ items → declaration.IsWritable) →
    (∀ rule, Item.rule rule ∈ items → rule.IsWritable) → ∀ rest : List Char,
      ∃ read, readItems source ('\n' :: (itemsText items ++ '\x7d' :: rest))
          = (read, '\n' :: '\x7d' :: rest)
        ∧ unplacedItems read = unplacedItems items
  | [], _, _, rest => ⟨[], readItems_close rfl, rfl⟩
  | item :: items, hdeclarations, hrules, rest => by
    obtain ⟨read, hread, hunplaced⟩ := readItems_written source items
      (fun declaration hmem => hdeclarations declaration (List.mem_cons_of_mem _ hmem))
      (fun rule hmem => hrules rule (List.mem_cons_of_mem _ hmem)) rest
    obtain ⟨first, hfirst, hitem⟩ := readItems_item source item
      (fun declaration heq => hdeclarations declaration (heq ▸ List.mem_cons_self))
      (fun rule heq => hrules rule (heq ▸ List.mem_cons_self))
      ('\n' :: (itemsText items ++ '\x7d' :: rest))
    refine ⟨first :: read, ?_, by rw [unplacedItems, unplacedItems, hitem, hunplaced]⟩
    rw [itemsText, List.append_assoc, List.cons_append, hfirst, hread]

/-- The first item is read from its written form. It is followed by the end of its
line, so nothing of what is behind it is read with it. -/
theorem readItems_item (source : List Char) : (item : Item Rule) →
    (∀ declaration, item = .declaration declaration → declaration.IsWritable) →
    (∀ rule, item = .rule rule → rule.IsWritable) → ∀ left : List Char,
      ∃ read, readItems source ('\n' :: (itemText item ++ left))
          = (read :: (readItems source left).1, (readItems source left).2)
        ∧ unplacedItem read = unplacedItem item
  -- A declaration must not be taken for a rule, which is tried first.
  | .declaration declaration, hdeclaration, _, left => by
    have hwritable := hdeclaration declaration rfl
    have htext : skipBlanks ('\n' :: (declaration.written ++ left))
        = declaration.written ++ left := by
      obtain ⟨c, tail, hname, hc⟩ := exists_cons_of_isIdentifier hwritable.property
      have hstart : Selector.startsSimple c := by simp [Selector.startsSimple, hc]
      rw [Declaration.written, hname]
      exact Selector.skipBlanks_of_startsSimple hstart _
    obtain ⟨stop, hrule⟩ := Rule.exists_read_eq_error_of_declaration hwritable htext
    obtain ⟨read, hread, hunplaced⟩ := Declaration.read?_written hwritable htext
    refine ⟨.declaration read, readItems_declaration hrule hread, ?_⟩
    rw [unplacedItem, unplacedItem, hunplaced]
  | .rule ⟨selectors, items, position⟩, _, hrule, left => by
    have hwritable := hrule _ rfl
    obtain ⟨c, tail, hwritten, hc⟩ := hwritable.exists_cons
    have htext : skipBlanks ('\n' :: (Rule.written ⟨selectors, items, position⟩ ++ left))
        = Rule.written ⟨selectors, items, position⟩ ++ left := by
      rw [hwritten]
      exact Selector.skipBlanks_of_startsSimple hc _
    obtain ⟨read, hread, hunplaced⟩ := Rule.read_written source _ hwritable htext
    refine ⟨.rule read, readItems_rule hread, ?_⟩
    obtain ⟨selectors', items', position'⟩ := read
    rw [unplacedItem, unplacedItem, hunplaced]

end

/-- An at-rule is read from its written form. It begins with its sign, by which it is
known for one. -/
theorem AtRule.read_written {atRule : AtRule} (h : atRule.IsWritable) (source rest : List Char) :
    ∃ body read, atRule.written ++ rest = '@' :: body
      ∧ AtRule.read source ('@' :: body) body = .ok (read, rest)
      ∧ read.unplaced = atRule.unplaced := by
  have hname : Identifier.read (atRule.name.toList ++ ' ' :: (atRule.prelude.toList ++ ';' :: rest))
      = .ok (atRule.name, ' ' :: (atRule.prelude.toList ++ ';' :: rest)) :=
    Identifier.read_append h.name fun c hc => by cases hc; decide
  have hskip := skipBlanks_append_of_trim h.prelude.trimmed h.prelude.ne_nil (';' :: rest)
  have hvalue : RawValue.read (atRule.prelude.toList ++ ';' :: rest)
      = .ok (atRule.prelude.toList, ';' :: rest) :=
    RawValue.read_append h.prelude.sealed h.prelude.ne_nil fun c hc => by cases hc; decide
  let body := atRule.name.toList ++ ' ' :: (atRule.prelude.toList ++ ';' :: rest)
  refine ⟨body, { atRule with position := .ofSuffix source ('@' :: body) }, ?_, ?_, rfl⟩
  · simp [written, body]
  · unfold AtRule.read
    simp only [body, hname, hskip, hvalue, h.prelude.trimmed, String.ofList_toList]

/-! ### Flattening -/

/-- Leaving out the positions of items is done item by item. The recursion is
structural, which is why the list has a function of its own. -/
theorem unplacedItems_eq_map (items : List (Item Rule)) :
    unplacedItems items = items.map unplacedItem := by
  induction items with
  | nil => rfl
  | cons item items ih => rw [unplacedItems, ih, List.map_cons]

/-- A declaration is one with its position and without. So a rule that only frames
others does so without positions, too. -/
theorem isSome_declaration?_unplacedItem (item : Item Rule) :
    (unplacedItem item).declaration?.isSome = item.declaration?.isSome := by
  rcases item with _ | ⟨_, _, _⟩ <;> rfl

/-- A rule is one with its positions and without. -/
theorem isSome_rule?_unplacedItem (item : Item Rule) :
    (unplacedItem item).rule?.isSome = item.rule?.isSome := by
  rcases item with _ | ⟨_, _, _⟩ <;> rfl

mutual

/-- Flattening goes by selectors and items, whatever the positions are. So it makes no
difference whether they are left out before or after. -/
theorem Rule.map_unplaced_flattenAs (selectors : List Chain) : (rule : Rule) →
    (rule.flattenAs selectors).map Rule.unplaced = rule.unplaced.flattenAs selectors
  | ⟨own, items, position⟩ => by
    have hinner := map_unplaced_flattenItems selectors items
    have hfilter : unplacedItems (items.filter (·.declaration?.isSome))
        = (unplacedItems items).filter (·.declaration?.isSome) := by
      rw [unplacedItems_eq_map, unplacedItems_eq_map, List.filter_map]
      simp only [Function.comp_def, isSome_declaration?_unplacedItem]
    -- Whether a rule only frames others is the same with positions and without.
    have hempty : ((unplacedItems items).filter (·.declaration?.isSome)).isEmpty
        = (items.filter (·.declaration?.isSome)).isEmpty := by
      rw [← hfilter, unplacedItems_eq_map, List.isEmpty_map]
    have hany : (unplacedItems items).any (·.rule?.isSome) = items.any (·.rule?.isSome) := by
      rw [unplacedItems_eq_map, List.any_map]
      simp only [Function.comp_def, isSome_rule?_unplacedItem]
    simp only [Rule.unplaced, Rule.flattenAs, hempty, hany]
    split
    · exact hinner
    · rw [List.map_cons, hinner, Rule.unplaced, hfilter]

/-- Flattening items goes by selectors and items, whatever the positions are. So
positions can be forgotten before flattening or behind it. -/
theorem map_unplaced_flattenItems (outer : List Chain) : (items : List (Item Rule)) →
    (flattenItems outer items).map Rule.unplaced = flattenItems outer (unplacedItems items)
  | [] => rfl
  | item :: items => by
    rw [flattenItems, List.map_append, map_unplaced_flattenItem outer item,
      map_unplaced_flattenItems outer items, unplacedItems, flattenItems]

/-- Flattening a single item does not look at positions, either. -/
theorem map_unplaced_flattenItem (outer : List Chain) : (item : Item Rule) →
    (flattenItem outer item).map Rule.unplaced = flattenItem outer (unplacedItem item)
  | .declaration _ => rfl
  | .rule ⟨selectors, items, position⟩ =>
    Rule.map_unplaced_flattenAs (Selector.nestAll outer selectors) ⟨selectors, items, position⟩

end

namespace Stylesheet

/-- A stylesheet that is flattened and has its positions left out is the same as one
without positions that is flattened. -/
theorem unplaced_flatten (sheet : Stylesheet) :
    sheet.flatten.unplaced = sheet.unplaced.flatten := by
  have hrule : ∀ rule : Rule, rule.flatten.map Rule.unplaced = rule.unplaced.flatten := by
    rintro ⟨selectors, items, position⟩
    exact Rule.map_unplaced_flattenAs selectors ⟨selectors, items, position⟩
  simp [unplaced, flatten, List.map_flatMap, List.flatMap_map, hrule]

/-! ### Stylesheets -/

/-- What a selector begins with is no white space. So nothing is trimmed off in front
of a rule that is written. -/
theorem isSpace_of_startsSimple {c : Char} (h : Selector.startsSimple c) : isSpace c = false := by
  simp only [Selector.startsSimple, Bool.or_eq_true, List.contains_iff_mem, List.mem_cons,
    List.not_mem_nil, or_false] at h
  rcases h with h | rfl | rfl | rfl | rfl | rfl | rfl
  · exact isSpace_of_isIdentifierChar h
  all_goals decide

/-- No white space is in front of the first statement. There may be none, and then
nothing is written. -/
theorem IsWritable.trimStart_written {sheet : Stylesheet} (h : sheet.IsWritable) :
    trimStart sheet.written = sheet.written := by
  refine trimStart_eq_self fun c hc => ?_
  obtain ⟨_ | ⟨atRule, atRules⟩, rules⟩ := sheet
  · cases rules with
    | nil => cases hc
    | cons rule rules =>
      obtain ⟨d, tail, hwritten, hd⟩ := (h.rules rule List.mem_cons_self).exists_cons
      have hhead : (written ⟨[], rule :: rules⟩).head? = some d := by
        simp [written, hwritten]
      cases hhead.symm.trans hc
      exact isSpace_of_startsSimple hd
  · have hhead : (written ⟨atRule :: atRules, rules⟩).head? = some '@' := by
      simp [written, AtRule.written]
    cases hhead.symm.trans hc
    decide

/-- Rules are read from their written forms. Each begins like a selector, and so not
with the sign of an at-rule. -/
theorem readStatements_rules (source : List Char) {rules : List Rule}
    (h : IsWritable ⟨[], rules⟩) {text : List Char} (htext : trimStart text = written ⟨[], rules⟩) :
    ∃ read, readStatements source text = .ok read
      ∧ read.unplaced = (⟨[], rules⟩ : Stylesheet).unplaced := by
  induction rules generalizing text with
  | nil => exact ⟨⟨[], []⟩, readStatements_end htext, rfl⟩
  | cons rule rules ih =>
    obtain ⟨hrule, hrules⟩ := List.forall_mem_cons.1 h.rules
    have hrest : IsWritable ⟨[], rules⟩ := ⟨h.atRules, hrules⟩
    have hwritten : written ⟨[], rule :: rules⟩ = rule.written ++ '\n' :: written ⟨[], rules⟩ := by
      simp [written]
    obtain ⟨c, tail, hcons, hc⟩ := hrule.exists_cons
    rw [hwritten, hcons, List.cons_append] at htext
    have hskip : skipBlanks (c :: (tail ++ '\n' :: written ⟨[], rules⟩))
        = rule.written ++ '\n' :: written ⟨[], rules⟩ := by
      rw [Selector.skipBlanks_of_startsSimple hc, hcons, List.cons_append]
    have htrim : trimStart ('\n' :: written ⟨[], rules⟩) = written ⟨[], rules⟩ :=
      hrest.trimStart_written
    obtain ⟨first, hfirst, hunplaced⟩ := Rule.read_written source rule hrule hskip
    obtain ⟨others, hothers, hsame⟩ := ih hrest htrim
    -- The rule begins like a selector, and so is not taken for an at-rule.
    have hat : c ≠ '@' := by
      rintro rfl
      exact absurd hc (by decide)
    refine ⟨_, by rw [readStatements_rule htext hat hfirst, hothers]; rfl, ?_⟩
    simp only [unplaced, mk.injEq] at hsame
    simp [unplaced, hunplaced, hsame]

/-- Statements are read from their written forms. The at-rules come first in what is
written, whatever the order was in the source, and the rules behind them are read as
before. -/
theorem readStatements_written (source : List Char) {sheet : Stylesheet} (h : sheet.IsWritable)
    {text : List Char} (htext : trimStart text = sheet.written) :
    ∃ read, readStatements source text = .ok read ∧ read.unplaced = sheet.unplaced := by
  obtain ⟨atRules, rules⟩ := sheet
  induction atRules generalizing text with
  | nil => exact readStatements_rules source h htext
  | cons atRule atRules ih =>
    obtain ⟨hatRule, hatRules⟩ := List.forall_mem_cons.1 h.atRules
    have hrest : IsWritable ⟨atRules, rules⟩ := ⟨hatRules, h.rules⟩
    have hwritten : written ⟨atRule :: atRules, rules⟩
        = atRule.written ++ '\n' :: written ⟨atRules, rules⟩ := by
      simp [written]
    -- The first at-rule is read, and what is behind it is written as a stylesheet of its
    -- own.
    obtain ⟨body, first, hcons, hfirst, hunplaced⟩ :=
      AtRule.read_written hatRule source ('\n' :: written ⟨atRules, rules⟩)
    rw [hwritten, hcons] at htext
    have htrim : trimStart ('\n' :: written ⟨atRules, rules⟩) = written ⟨atRules, rules⟩ :=
      hrest.trimStart_written
    obtain ⟨others, hothers, hsame⟩ := ih hrest htrim
    refine ⟨_, by rw [readStatements_atRule htext hfirst, hothers]; rfl, ?_⟩
    simp only [unplaced, mk.injEq] at hsame
    simp [unplaced, hunplaced, hsame]

/-- A stylesheet is read from its written form and flattened, if the text has no
comment. It comes out flattened, and the positions are those of the written form.
Without the second hypothesis a `/*` between quotes would be blanked. -/
theorem ofSource_written {sheet : Stylesheet} (h : sheet.IsWritable)
    (hcomment : ¬ ['/', '*'] <:+: sheet.written) :
    ∃ read, ofSource (.ofList sheet.written) = .ok read
      ∧ read.unplaced = sheet.flatten.unplaced := by
  obtain ⟨read, hread, hsame⟩ := readStatements_written sheet.written h h.trimStart_written
  refine ⟨read.flatten, ?_, by rw [unplaced_flatten, unplaced_flatten, hsame]⟩
  rw [ofSource, String.toList_ofList, blankComments_of_plain _ hcomment, hread]
  rfl

/-- A nested rule stands among declarations whose values hold terminators in quotes
and in parentheses. In the flattened sheet both outer selectors stand in the place of
the `&`. -/
theorem ofSource_written_nested :
    let state : Selector.Attribute := ⟨some "state", "size", some "large"⟩
    let inner : Rule := ⟨[⟨[⟨[.parent, .pseudoClass "hover"], .child⟩, ⟨[.type "b"], .none⟩]⟩],
      [.declaration ⟨"content", "'\x7d;'", false, .unknown⟩], .unknown⟩
    let outer : Rule := ⟨[⟨[⟨[.cls "a"], .none⟩]⟩, ⟨[⟨[.cls "b", .attr state], .none⟩]⟩],
      [.declaration ⟨"background", "url(x;y)", true, .unknown⟩, .rule inner], .unknown⟩
    let sheet : Stylesheet := ⟨[⟨"block-reference", "c from './c.css'", .unknown⟩], [outer]⟩
    String.ofList sheet.written
        = "@block-reference c from './c.css';\n"
          ++ ".a, .b[state|size=large] \x7b\n"
          ++ "background: url(x;y) !important;\n"
          ++ "&:hover > b \x7b\n" ++ "content: '\x7d;';\n" ++ "\x7d\n" ++ "\x7d\n"
      ∧ ∃ read, ofSource (.ofList sheet.written) = .ok read
        ∧ read.unplaced = sheet.flatten.unplaced := by
  intro state inner outer sheet
  -- No value changes when it is trimmed and unquoted; there is only one.
  have hplain : ∀ selector ∈ inner.selectors ++ outer.selectors, selector.HasPlainValues := by
    have hlarge : unquote (trim ['l', 'a', 'r', 'g', 'e']) = ['l', 'a', 'r', 'g', 'e'] := by decide
    simpa [inner, outer, state, Chain.HasPlainValues, Compound.HasPlainValues,
      Simple.HasPlainValue, Selector.Attribute.HasPlainValue] using hlarge
  have hinner : inner.IsWritable := by
    refine .intro ⟨(listText inner.selectors).toList, [], by decide +kernel⟩
      (fun selector h => hplain selector (List.mem_append_left _ h)) (fun d hd => ?_)
      (fun r hr => ?_)
    · cases List.mem_singleton.1 hd
      exact ⟨by decide +kernel, by decide +kernel⟩
    · cases List.mem_singleton.1 hr
  have houter : outer.IsWritable := by
    refine .intro ⟨(listText outer.selectors).toList, [], by decide +kernel⟩
      (fun selector h => hplain selector (List.mem_append_right _ h)) (fun d hd => ?_)
      (fun r hr => ?_)
    · simp only [List.mem_cons, Item.declaration.injEq, reduceCtorEq, or_false,
        List.not_mem_nil] at hd
      subst hd
      exact ⟨by decide +kernel, by decide +kernel⟩
    · simp only [List.mem_cons, Item.rule.injEq, reduceCtorEq, false_or, List.not_mem_nil,
        or_false] at hr
      exact hr ▸ hinner
  have hsheet : sheet.IsWritable := by
    refine ⟨fun a ha => ?_, fun r hr => ?_⟩
    · cases List.mem_singleton.1 ha
      exact ⟨by decide +kernel, by decide +kernel⟩
    · exact List.mem_singleton.1 hr ▸ houter
  exact ⟨by decide +kernel, ofSource_written hsheet (by decide +kernel)⟩

end Stylesheet

end BlockStyles
