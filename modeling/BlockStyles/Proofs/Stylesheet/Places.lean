import BlockStyles.Proofs.Folds
import BlockStyles.Proofs.Stylesheet.Steps
import BlockStyles.Proofs.Text.Comments
import BlockStyles.Proofs.Text.Identifiers

/-!
# `BlockStyles.Proofs.Stylesheet.Places`: where statements stand in the source

Every at-rule, rule and declaration of a stylesheet has the position of its first
character, as the blanked text counts lines and columns. That character is one of the
source, and the line is its line there. The column is its column there as long as no
comment before it holds a character that is wider than a byte: such a character
becomes several spaces, each of which counts.

* `Rule.IsReadFrom`: all rules in a rule are where they have been read, at any depth.
* `Stylesheet.isReadFrom_readStatements`, `Rule.isPlaced_flattenAs`: so it is with what has been
  read, and flattening does not move anything.
* `IsAt.exists_stands`: from a place in the blanked text to one in the source.
* `Stylesheet.ofSource_places`: the places of statements, and of errors.
* `Stylesheet.ofSource_places_wide`: a wide character in a comment moves what follows.
-/

set_option autoImplicit false

namespace BlockStyles

open BlockStyles.Text
open BlockStyles.Selector (Chain readList nestAll)

/-! ### Places in the text that is read -/

/-- The position is that of an end of the text, which starts as it should. With the
second part it is said that the right thing is at this place, and not just anything. -/
def IsAt (text : List Char) (position : Position) (Starts : List Char → Prop) : Prop :=
  ∃ start, start <:+ text ∧ Starts start ∧ position = .ofSuffix text start

/-- The text starts with the at-rule: the sign and its name. -/
def AtRule.Starts (atRule : AtRule) (text : List Char) : Prop :=
  '@' :: atRule.name.toList <+: text

/-- The text starts with the declaration: its property. -/
def Declaration.Starts (declaration : Declaration) (text : List Char) : Prop :=
  isIdentifier declaration.property ∧ declaration.property.toList <+: text

/-- The text starts with the rule: the selectors that are written for it, from which its own
selectors come by nesting if it stands in another rule. -/
def Rule.Starts (rule : Rule) (text : List Char) : Prop :=
  (∀ c ∈ text.head?, isBlank c = false) ∧
    ∃ selectors rest, readList text = .ok (selectors, rest) ∧
      (rule.selectors = selectors ∨ ∃ outer, rule.selectors = nestAll outer selectors)

/-- The rule is where it starts, and so are the declarations directly in it. Those in
rules inside it are placed with these rules. -/
structure Rule.IsPlaced (text : List Char) (rule : Rule) : Prop where
  start : IsAt text rule.position rule.Starts
  declarations : ∀ declaration ∈ rule.declarations,
    IsAt text declaration.position declaration.Starts

variable {text left rest : List Char}

/-- A declaration is where its property begins, behind the blanks in front of it. The
position is that of the text which the reader of the property was given. -/
theorem Declaration.isAt_of_read? {declaration : Declaration} (hleft : left <:+ text)
    (h : read? text left = some (declaration, rest)) :
    IsAt text declaration.position declaration.Starts := by
  obtain ⟨property, afterProperty, _, _, _, hproperty, -, -, -, rfl, -⟩ := read?_eq_some_iff.1 h
  obtain ⟨hstart, hname⟩ := Identifier.read_eq_ok hproperty
  exact ⟨skipBlanks left, (skipBlanks_suffix left).trans hleft,
    ⟨hname, afterProperty, hstart.symm⟩, rfl⟩

/-- An at-rule is where its sign is. The reader is given the text with the sign and
the text behind it. -/
theorem AtRule.isAt_of_read {atRule : AtRule} {body : List Char} (hleft : '@' :: body <:+ text)
    (h : read text ('@' :: body) body = .ok (atRule, rest)) :
    IsAt text atRule.position atRule.Starts := by
  obtain ⟨name, afterName, _, hname, -, rfl⟩ := read_eq_ok_iff.1 h
  obtain ⟨hbody, -⟩ := Identifier.read_eq_ok hname
  exact ⟨'@' :: body, hleft, ⟨afterName, by rw [hbody]; rfl⟩, rfl⟩

/-- The rule and all rules in it are at the places where they have been read. Nested
rules are kept with the selectors as they are written, since flattening has not
changed them yet. -/
inductive Rule.IsReadFrom (text : List Char) : Rule → Prop where
  | intro {selectors : List Chain} {items : List (Item Rule)} {start rest : List Char}
      (hstart : start <:+ text) (hblank : ∀ c ∈ start.head?, isBlank c = false)
      (hlist : readList start = .ok (selectors, rest))
      (hdeclarations : ∀ declaration, Item.declaration declaration ∈ items →
        IsAt text declaration.position declaration.Starts)
      (hrules : ∀ rule, Item.rule rule ∈ items → IsReadFrom text rule) :
      IsReadFrom text ⟨selectors, items, .ofSuffix text start⟩

mutual

/-- A rule is where its first selector begins, and what is in it is where the items of
its body are. The recursion is on the length of what is left to be read. -/
theorem Rule.isReadFrom_of_read {left rest : List Char} {rule : Rule} (hleft : left <:+ text)
    (h : Rule.read text left = .ok (rule, rest)) : rule.IsReadFrom text := by
  obtain ⟨selectors, afterSelectors, body, hlist, hopen, -, rfl⟩ := Rule.read_eq_ok_iff.1 h
  have hskip := skipBlanks_suffix left
  have hbody := Rule.body_shorter hlist hopen
  have hlength : body.length < left.length := Nat.lt_of_lt_of_le hbody.2 hskip.length_le
  have hitems := isReadFrom_readItems (hbody.1.trans (hskip.trans hleft))
  exact .intro (hskip.trans hleft) (isBlank_head_skipBlanks left) hlist hitems.1 hitems.2
termination_by (left.length, 0)

/-- Items are at the places where they have been read, one behind the other. At each
of them the text that is left is an end of the whole one. -/
theorem isReadFrom_readItems {left : List Char} (hleft : left <:+ text) :
    (∀ declaration, Item.declaration declaration ∈ (readItems text left).1 →
      IsAt text declaration.position declaration.Starts)
      ∧ ∀ rule, Item.rule rule ∈ (readItems text left).1 → rule.IsReadFrom text := by
  cases hrule : Rule.read text left with
  -- The item is a rule, whose own items are at their places by recursion.
  | ok result =>
    obtain ⟨rule, rest⟩ := result
    have hshort := Rule.read_shorter hrule
    have hlength : rest.length < left.length := hshort.2
    have hrest := isReadFrom_readItems (hshort.1.trans hleft)
    rw [readItems_rule hrule]
    refine ⟨fun d hd => ?_, fun r hr => ?_⟩
    · rcases List.mem_cons.1 hd with hd | hd
      · cases hd
      · exact hrest.1 d hd
    · rcases List.mem_cons.1 hr with hr | hr
      · cases hr
        exact Rule.isReadFrom_of_read hleft hrule
      · exact hrest.2 r hr
  | error stop =>
    cases hdeclaration : Declaration.read? text left with
    -- The item is a declaration.
    | some result =>
      obtain ⟨declaration, rest⟩ := result
      have hshort := Declaration.read?_shorter hdeclaration
      have hlength : rest.length < left.length := hshort.2
      have hrest := isReadFrom_readItems (hshort.1.trans hleft)
      rw [readItems_declaration hrule hdeclaration]
      refine ⟨fun d hd => ?_, fun r hr => ?_⟩
      · rcases List.mem_cons.1 hd with hd | hd
        · cases hd
          exact Declaration.isAt_of_read? hleft hdeclaration
        · exact hrest.1 d hd
      · rcases List.mem_cons.1 hr with hr | hr
        · cases hr
        · exact hrest.2 r hr
    | none =>
      rw [readItems_end hrule hdeclaration]
      exact ⟨fun d hd => (by cases hd), fun r hr => (by cases hr)⟩
termination_by (left.length, 1)

end

/-! ### Flattening -/

mutual

/-- Flattening leaves rules and declarations where they are. The selectors change, so
it is said of them where they come from: from those that stand at the place of the
rule, perhaps nested. -/
theorem Rule.isPlaced_flattenAs {selectors : List Chain} : (rule : Rule) →
    (selectors = rule.selectors ∨ ∃ outer, selectors = nestAll outer rule.selectors) →
      rule.IsReadFrom text → ∀ r ∈ rule.flattenAs selectors, r.IsPlaced text
  | ⟨own, items, position⟩, hselectors, h => by
    obtain ⟨hstart, hblank, hlist, hdeclarations, hrules⟩ := h
    have hinner : ∀ r ∈ flattenItems selectors items, r.IsPlaced text :=
      isPlaced_flattenItems items hrules
    unfold Rule.flattenAs
    dsimp only
    split
    · exact hinner
    · intro r hr
      rcases List.mem_cons.1 hr with rfl | hr
      -- The rule itself has kept the declarations among its items.
      · refine ⟨⟨_, hstart, ⟨hblank, _, _, hlist, hselectors⟩, rfl⟩, fun d hd => ?_⟩
        obtain ⟨item, hitem, hd⟩ := List.mem_filterMap.1 hd
        cases item with
        | declaration declaration =>
          cases hd
          exact hdeclarations _ (List.mem_filter.1 hitem).1
        | rule rule => cases hd
      · exact hinner r hr

/-- Flattening leaves the rules among items where they are, each of which is flattened
on its own. -/
theorem isPlaced_flattenItems {outer : List Chain} : (items : List (Item Rule)) →
    (∀ rule, Item.rule rule ∈ items → rule.IsReadFrom text) →
      ∀ r ∈ flattenItems outer items, r.IsPlaced text
  | [], _ => fun r hr => by cases hr
  | item :: items, h => by
    intro r hr
    rcases List.mem_append.1 hr with hr | hr
    · exact isPlaced_flattenItem item (fun rule hrule => h rule (by simp [hrule])) r hr
    · exact isPlaced_flattenItems items
        (fun rule hrule => h rule (List.mem_cons_of_mem _ hrule)) r hr

/-- A nested rule has its selectors inside those of the outer one when it is
flattened. -/
theorem isPlaced_flattenItem {outer : List Chain} : (item : Item Rule) →
    (∀ rule, item = .rule rule → rule.IsReadFrom text) →
      ∀ r ∈ flattenItem outer item, r.IsPlaced text
  | .declaration _, _ => fun r hr => by cases hr
  | .rule ⟨selectors, items, position⟩, h =>
    Rule.isPlaced_flattenAs ⟨selectors, items, position⟩ (.inr ⟨outer, rfl⟩) (h _ rfl)

end

/-! ### Stylesheets -/

namespace Stylesheet

/-- The statements of a text are at the places where they have been read. For a rule
the blanks in front of it count as read, so it begins behind them. -/
theorem isReadFrom_readStatements {sheet : Stylesheet} (hleft : left <:+ text)
    (h : readStatements text left = .ok sheet) :
    (∀ atRule ∈ sheet.atRules, IsAt text atRule.position atRule.Starts)
      ∧ ∀ rule ∈ sheet.rules, rule.IsReadFrom text := by
  fun_induction readStatements text left generalizing sheet with
  | case1 =>
    cases h
    exact ⟨fun a ha => (by cases ha), fun r hr => (by cases hr)⟩
  | case2 => cases h
  -- The at-rule begins with its sign, behind white space.
  | case3 left body hstart atRule rest hread _ ih =>
    have hbody : '@' :: body <:+ text := (hstart ▸ trimStart_suffix left).trans hleft
    have hrest : rest <:+ text :=
      (AtRule.read_shorter hread).1.trans ((List.suffix_cons _ _).trans hbody)
    obtain ⟨others, hothers, rfl⟩ := map_eq_ok.1 h
    obtain ⟨hatRules, hrules⟩ := ih hrest hothers
    exact ⟨List.forall_mem_cons.2 ⟨AtRule.isAt_of_read hbody hread, hatRules⟩, hrules⟩
  | case4 => cases h
  -- A rule is read from behind the white space, too.
  | case5 left rule rest _ _ hread _ ih =>
    have hstart : trimStart left <:+ text := (trimStart_suffix left).trans hleft
    have hrest : rest <:+ text := (Rule.read_shorter hread).1.trans hstart
    obtain ⟨others, hothers, rfl⟩ := map_eq_ok.1 h
    obtain ⟨hatRules, hrules⟩ := ih hrest hothers
    exact ⟨hatRules, List.forall_mem_cons.2 ⟨Rule.isReadFrom_of_read hstart hread, hrules⟩⟩

/-- What cannot be read stops behind blanks, at the end, or right behind an `@`. This
tells where the source has the place, too: blanks may come from a comment, so the last
case is different. -/
theorem exists_of_readStatements_error {error : SyntaxError}
    (h : readStatements text text = .error error) :
    ∃ kind stop, error = .of kind text stop ∧ stop <:+ text
      ∧ ((∀ c ∈ stop.head?, isBlank c = false) ∨ '@' :: stop <:+ text) := by
  obtain ⟨kind, stop, hfails, herror⟩ := exists_failsAt h
  exact ⟨kind, stop, herror, hfails.stops⟩

end Stylesheet

/-! ### Places in the source -/

/-- What is no blank is neither of the two characters that blanking writes. So it is
not the trace of a comment, and must be in the source itself. -/
theorem ne_blank {c : Char} (h : isBlank c = false) : c ≠ ' ' ∧ c ≠ '\n' := by
  constructor <;> rintro rfl <;> exact absurd h (by decide)

/-- A piece of the blanked text that does not start with a blank starts with a
character of the source. The text in front of it is the blanked form of what is in
front of that character. -/
theorem IsAt.exists_stands {source : List Char} {position : Position}
    {Starts : List Char → Prop} (h : IsAt (blankComments source) position Starts)
    (hhead : ∀ start, Starts start → ∃ c tail, start = c :: tail ∧ isBlank c = false) :
    ∃ before c rest, Stands source position before (c :: rest)
      ∧ Starts (c :: blankComments rest) := by
  obtain ⟨start, ⟨front, hfront⟩, hstart, rfl⟩ := h
  obtain ⟨c, tail, rfl, hc⟩ := hhead start hstart
  obtain ⟨hspace, hline⟩ := ne_blank hc
  obtain ⟨before, rest, hcut, -, rfl, -, rfl⟩ := exists_isCut hspace hline hfront.symm
  refine ⟨before, c, rest, ?_, hstart⟩
  rw [← hfront, Position.ofSuffix_append]
  exact hcut.stands

/-- What an identifier stands in front of begins with a character that is no blank. So
no blanks are skipped in front of it. -/
theorem exists_cons_of_identifier {name : String} (h : isIdentifier name) {text : List Char}
    (htext : name.toList <+: text) : ∃ c tail, text = c :: tail ∧ isBlank c = false := by
  obtain ⟨rest, rfl⟩ := htext
  obtain ⟨c, tail, hname, hc⟩ := exists_cons_of_isIdentifier h
  refine ⟨c, tail ++ rest, by rw [hname]; rfl, Bool.eq_false_iff.2 fun hblank => ?_⟩
  have hspace := isSpace_of_isIdentifierChar hc
  rw [isSpace_of_isBlank hblank] at hspace
  cases hspace

/-- An at-rule begins with its sign, which is no blank. A place with such a character
is one of the source, by `IsAt.exists_stands`. -/
theorem AtRule.Starts.exists_cons {atRule : AtRule} (h : atRule.Starts text) :
    ∃ c tail, text = c :: tail ∧ isBlank c = false := by
  obtain ⟨rest, rfl⟩ := h
  exact ⟨'@', _, rfl, by decide⟩

/-- A declaration begins with its property. That is an identifier, and no identifier
begins with a blank. -/
theorem Declaration.Starts.exists_cons {declaration : Declaration}
    (h : declaration.Starts text) : ∃ c tail, text = c :: tail ∧ isBlank c = false :=
  exists_cons_of_identifier h.1 h.2

/-- A rule begins with a selector, and the blanks in front of it have been skipped. -/
theorem Rule.Starts.exists_cons {rule : Rule} (h : rule.Starts text) :
    ∃ c tail, text = c :: tail ∧ isBlank c = false := by
  obtain ⟨hblank, selectors, rest, hlist, -⟩ := h
  cases text with
  | nil => exact absurd (Selector.readList_shorter hlist).2 (Nat.not_lt_zero _)
  | cons c tail => exact ⟨c, tail, rfl, hblank c rfl⟩

namespace Stylesheet

/-- Every statement of the stylesheet stands in the source where its position says.
Behind its first character, comments are blanked. -/
structure IsPlaced (source : List Char) (sheet : Stylesheet) : Prop where
  atRules : ∀ atRule ∈ sheet.atRules, ∃ before c rest,
    Stands source atRule.position before (c :: rest) ∧ atRule.Starts (c :: blankComments rest)
  rules : ∀ rule ∈ sheet.rules, ∃ before c rest,
    Stands source rule.position before (c :: rest) ∧ rule.Starts (c :: blankComments rest)
  declarations : ∀ rule ∈ sheet.rules, ∀ declaration ∈ rule.declarations, ∃ before c rest,
    Stands source declaration.position before (c :: rest)
      ∧ declaration.Starts (c :: blankComments rest)

/-- The statements of a stylesheet that has been read are placed. They are where they
were read in the blanked text, and that leads to a place of the source, as none begins
with a blank. -/
theorem isPlaced_of_ofSource {source : String} {sheet : Stylesheet}
    (h : ofSource source = .ok sheet) : sheet.IsPlaced source.toList := by
  obtain ⟨nested, hnested, rfl⟩ := map_eq_ok.1 h
  obtain ⟨hatRules, hrules⟩ := isReadFrom_readStatements List.suffix_rfl hnested
  have hplaced : ∀ rule ∈ nested.flatten.rules, rule.IsPlaced (blankComments source.toList) := by
    intro rule hrule
    obtain ⟨outer, houter, hrule⟩ := List.mem_flatMap.1 hrule
    exact outer.isPlaced_flattenAs (.inl rfl) (hrules outer houter) rule hrule
  exact {
    atRules := fun atRule h => (hatRules atRule h).exists_stands fun _ hs => hs.exists_cons
    rules := fun rule h => (hplaced rule h).start.exists_stands fun _ hs => hs.exists_cons
    declarations := fun rule h declaration hd =>
      ((hplaced rule h).declarations declaration hd).exists_stands fun _ hs => hs.exists_cons }

/-- The place that an error reports is one of the source, with what follows it
blanked. If reading stopped at the end or at a character that is no blank, this is as
for statements. -/
theorem exists_stands_of_ofSource {source : String} {error : SyntaxError}
    (h : ofSource source = .error error) :
    ∃ before rest kind, Stands source.toList error.position before rest
      ∧ error = .of kind (blankComments source.toList) (blankComments rest) := by
  obtain ⟨kind, stop, rfl, hstop, hplace⟩ :=
    exists_of_readStatements_error (map_eq_error.1 h)
  rcases hplace with hblank | ⟨front, hfront⟩
  · cases stop with
    | nil =>
      have hend := Position.ofSuffix_append (blankComments source.toList) []
      rw [List.append_nil] at hend
      -- At the end all of the source is in front.
      refine ⟨source.toList, [], kind, ?_, rfl⟩
      rw [SyntaxError.of, hend]
      exact (IsCut.nil _).stands
    | cons c tail =>
      obtain ⟨front, hfront⟩ := hstop
      obtain ⟨hspace, hline⟩ := ne_blank (hblank c rfl)
      obtain ⟨before, rest, hcut, -, rfl, -, rfl⟩ := exists_isCut hspace hline hfront.symm
      have hcons : blankComments (c :: rest) = c :: blankComments rest :=
        List.append_cancel_left (hcut.blanked.symm.trans hfront.symm)
      refine ⟨before, c :: rest, kind, ?_, by rw [hcons]⟩
      rw [SyntaxError.of, ← hfront, Position.ofSuffix_append]
      exact hcut.stands
  -- Behind an `@` there may be a blank, even a comment.
  · obtain ⟨before, rest, -, hcut, -, hconcat, rfl⟩ :=
      exists_isCut (by decide) (by decide) hfront.symm
    refine ⟨before ++ ['@'], rest, kind, ?_, rfl⟩
    rw [SyntaxError.of, hcut.blanked, Position.ofSuffix_append]
    exact hcut.stands

/-- Where the statements of a source stand, or, if it is no stylesheet, the place where
its reading has stopped. Either way the position is that of a place in the
source, as the blanked text counts lines and columns up to there. Comments without
wide characters are blanked one to one, so behind those the position is that of the
source itself. -/
theorem ofSource_places (source : String) :
    match ofSource source with
    | .ok sheet => sheet.IsPlaced source.toList
    | .error error => ∃ before rest kind, Stands source.toList error.position before rest
        ∧ error = .of kind (blankComments source.toList) (blankComments rest) := by
  split
  · exact isPlaced_of_ofSource ‹_›
  · exact exists_stands_of_ofSource ‹_›

/-- A wide character in a comment moves what follows: the rule starts at the seventh
character of its line, but its position says that it is the eighth. The character has
two bytes, and is blanked by two spaces. -/
theorem ofSource_places_wide :
    ∃ sheet rule, ofSource "/*é*/ .a \x7b color: red; \x7d" = .ok sheet ∧ sheet.rules = [rule]
      ∧ rule.position = ⟨1, 8⟩
      ∧ "/*é*/ .a \x7b color: red; \x7d".toList
        = "/*é*/ ".toList ++ ".a \x7b color: red; \x7d".toList
      ∧ Position.after "/*é*/ ".toList = ⟨1, 7⟩ := by
  let text := "       .a \x7b color: red; \x7d".toList
  let body := " color: red; \x7d".toList
  let red : Declaration := ⟨"color", "red", false, ⟨1, 13⟩⟩
  have htext : blankComments "/*é*/ .a \x7b color: red; \x7d".toList = text := by
    decide +kernel
  -- The declaration is no rule: a colon follows its property.
  have hitem : ∃ left, Rule.read text body = .error left := by
    have hlist : readList (skipBlanks body)
        = .ok ([⟨[⟨[.type "color"], .none⟩]⟩], ": red; \x7d".toList) := by decide +kernel
    refine Rule.exists_read_eq_error fun selectors afterSelectors h rest => ?_
    rw [hlist] at h
    cases h
    have hcolon : (skipBlanks ": red; \x7d".toList).head? = some ':' := by decide +kernel
    intro hopen
    rw [hopen] at hcolon
    cases hcolon
  have hend : ∃ left, Rule.read text " \x7d".toList = .error left := by
    have hlist : readList (skipBlanks " \x7d".toList) = .error "\x7d".toList := by decide +kernel
    refine Rule.exists_read_eq_error fun selectors afterSelectors h rest => ?_
    rw [hlist] at h
    cases h
  have hitems : readItems text body = ([.declaration red], " \x7d".toList) := by
    have hred : Declaration.read? text body = some (red, " \x7d".toList) := by decide +kernel
    have hnone : Declaration.read? text " \x7d".toList = none := by decide +kernel
    rw [readItems_declaration hitem.choose_spec hred, readItems_end hend.choose_spec hnone]
  let rule : Rule := ⟨[⟨[⟨[.cls "a"], .none⟩]⟩], [.declaration red], ⟨1, 8⟩⟩
  have hrule : Rule.read text ".a \x7b color: red; \x7d".toList = .ok (rule, []) := by
    refine Rule.read_eq_ok_iff.2
      ⟨[⟨[⟨[.cls "a"], .none⟩]⟩], " \x7b color: red; \x7d".toList, body, ?_, ?_, ?_, ?_⟩
    · decide +kernel
    · decide +kernel
    · rw [hitems]
      decide +kernel
    · rw [hitems]
      have hposition : Position.ofSuffix text (skipBlanks ".a \x7b color: red; \x7d".toList)
          = ⟨1, 8⟩ := by decide +kernel
      rw [hposition]
  have hread : readStatements text text = .ok ⟨[], [rule]⟩ := by
    rw [readStatements_rule (by decide +kernel : trimStart text = '.' :: _) (by decide) hrule,
      readStatements_end (by decide)]
    rfl
  refine ⟨⟨[], [rule]⟩, rule, ?_, rfl, rfl, by decide +kernel, by decide +kernel⟩
  rw [ofSource, htext, hread]
  rfl

end Stylesheet

end BlockStyles
