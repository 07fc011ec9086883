import BlockStyles.Proofs.Library.Inheritance

/-!
# `BlockStyles.Proofs.Library.Names`: which names are identifiers

The names of states and groups are looked at when a compound selector is classified, whoever has
built the sheet. That of a class is taken as it is: it is an identifier if the selector has been
read from text, and otherwise what stands there. An object is found by its selector exactly where
the name of its class is an identifier, and a colon comes into the selector by nothing else than
that name.

* `Block.isIdentifier_of_findObject?`: a selector finds nothing but objects of classes whose names
  are identifiers.
* `Block.NamedBy`: the names in a block, and what depends on them.
* `Library.addSheet_namedBy`: so it is with every sheet that is accepted.
* `Library.addSheet_accepts_colon`: a class in a sheet that is built by hand can have a colon in
  its name.
-/

set_option autoImplicit false

namespace BlockStyles

open BlockStyles.Selector (Compound Simple)
open BlockStyles.Text (isIdentifier isIdentifierChar)

/-! ### What a selector can find -/

/-- A class that a selector asks for has been read from it, and only identifiers are
read as names of classes. -/
theorem Sought.isIdentifier_of_ofSelector? {selector : List Char} {sought : Sought}
    (h : ofSelector? selector = some sought) {name : String} (hname : sought.cls = some name) :
    isIdentifier name := by
  -- Of the compounds that ask for an object, two have a class, and it is the one asked for.
  have hcompound : ∀ compound, ofCompound? compound = some sought → .cls name ∈ compound := by
    intro compound hsought
    unfold ofCompound? at hsought
    split at hsought
    · cases hsought
      cases hname
      exact List.mem_singleton_self _
    · obtain ⟨label, -, rfl⟩ := Option.map_eq_some_iff.1 hsought
      cases hname
    · obtain ⟨label, -, rfl⟩ := Option.map_eq_some_iff.1 hsought
      cases hname
      exact List.mem_cons_self
    · cases hsought
  unfold ofSelector? at h
  split at h
  · cases h
    cases hname
  · split at h
    · rename_i compound hread
      exact Compound.isProper_of_read hread name (hcompound compound h)
    · cases h

namespace Block

variable {block : Block} {object : Object}

/-- What is found by a selector is an object of a class whose name is an identifier.
So an object of another class is never found, whatever is asked for. -/
theorem isIdentifier_of_findObject? (hroot : block.root.name = rootName) {selector : List Char}
    (h : block.findObject? selector = some object) : isIdentifier object.owner.name := by
  obtain ⟨sought, hselector, hfound⟩ := Option.bind_eq_some_iff.1 h
  rw [sought?_eq hroot] at hfound
  obtain ⟨other, -, hown⟩ := List.exists_of_findSome?_eq_some hfound
  -- Without a class the root is asked for, and its name is an identifier too.
  have hname : object.owner.name = sought.cls.getD rootName := by
    have hfull := congrArg ObjectName.cls (of_ownSought? hown).2
    cases object <;> exact hfull
  rw [hname]
  cases hcls : sought.cls with
  | none => decide
  | some name => exact Sought.isIdentifier_of_ofSelector? hselector hcls

end Block

/-! ### Names and rules -/

/-- A class is named in a selector of the rules, in whatever part of it. -/
def Rule.WritesClass (rules : List Rule) (name : String) : Prop :=
  SomeCompound rules (.cls name ∈ ·)

/-- The objects of a block are the root and those of the rules, with names that have
been looked at, apart from those of classes. Whether the rules come from a text or not
plays no part. -/
theorem Draft.ShowsRules.isLegal {name : String} {references : List (String × Block)}
    {draft : Draft} {rules : List Rule} (h : draft.ShowsRules name references rules)
    {object : ObjectName} (hobject : object ∈ draft.block.names) :
    object.IsLegal fun cls => cls = rootName ∨ Rule.WritesClass rules cls := by
  rcases (h.names object).1 hobject with rfl | ⟨other, hother, heq⟩
  · exact ⟨.inl rfl, nofun⟩
  -- Anything else comes of a compound that has been accepted, which is where names are looked at.
  obtain ⟨rule, hrule, selector, hselector, part, hpart, isKey, hread⟩ :=
    Rule.someCompound_of_mem_objects h.readable hother
  have hlegal : other.IsLegal fun cls => cls = rootName ∨ Rule.WritesClass rules cls :=
    ObjectName.isLegal_ofCompound (.inl rfl)
      (fun cls hcls => .inr ⟨rule, hrule, selector, hselector, part, hpart, hcls⟩) hread
  rcases heq with rfl | rfl
  · exact hlegal
  · exact ⟨hlegal.cls, nofun⟩

/-- The names in a block that comes of the rules, and what depends on them. -/
structure Block.NamedBy (block : Block) (rules : List Rule) : Prop where
  /-- The names of states and groups are identifiers, whatever stands in the rules. -/
  states : ∀ cls ∈ block.classes, ∀ state ∈ cls.states, state.label.IsLegal
  /-- Those of the classes are the ones that stand there. -/
  classes : ∀ name, name ∈ block.classes.map ClassData.name
    ↔ name = rootName ∨ Rule.WritesClass rules name
  /-- An object is found by its selector if its class has an identifier for a name, and only
  then. -/
  found : ∀ object ∈ block.objects,
    block.findObject? object.source.toList = some object ↔ isIdentifier object.owner.name
  /-- A colon in the selector of an object stands in the name of its class. -/
  colon : ∀ object ∈ block.objects,
    ':' ∈ object.source.toList ↔ ':' ∈ object.owner.name.toList

/-- A block that is built from rules has the names that stand in them. All four parts
are read off `ShowsRules.isLegal` and the list of what is declared. -/
theorem Block.namedBy_of_ofRules {id : Nat} {name identifier : String}
    {references : List (String × Block)} {rules : List Rule} {block : Block}
    (h : ofRules id name identifier references rules = .ok block) : block.NamedBy rules := by
  have hwellNamed := (wellFormed_of_ofRules h).wellNamed
  have hdeclares := declares_of_ofRules h
  obtain ⟨draft, hdraft, hfinish⟩ := ofRules_eq_ok_iff.1 h
  obtain ⟨-, rfl⟩ := Draft.finish_ok_iff.1 hfinish
  have hshows := Draft.showsRules_of_foldlM hdraft
  -- The objects of the block belong to it, and their names are legal up to those of
  -- classes.
  have hobject : ∀ object ∈ draft.block.objects, object.block.WellNamed
      ∧ object.fullName.IsLegal fun cls => cls = rootName ∨ Rule.WritesClass rules cls :=
    fun object hin => ⟨(block_of_mem_objects hin).symm ▸ hwellNamed,
      hshows.isLegal (fullName_mem_names hin)⟩
  constructor
  case states =>
    intro cls hcls state hstate
    exact (hshows.isLegal (mem_names_of_mem_states hcls hstate)).state state.label rfl
  case classes =>
    intro name
    constructor
    · intro hname
      exact (hshows.isLegal (mem_classNames_iff.1 hname)).cls
    · rintro (rfl | ⟨rule, hrule, selector, hselector, part, hpart, hwritten⟩)
      · exact (hdeclares.classes rootName).2 (.inl rfl)
      · exact (hdeclares.classes name).2
          (.inr ⟨rule, hrule, selector, hselector, part, hpart, .inl hwritten⟩)
  case found =>
    intro object hin
    obtain ⟨hwell, hlegal⟩ := hobject object hin
    constructor
    · exact isIdentifier_of_findObject? hwellNamed.root
    · intro hname
      have hcls : isIdentifier object.fullName.cls := by cases object <;> exact hname
      have hfound := findObject?_source_of_isLegal hwell ⟨hcls, hlegal.state⟩
      rwa [block_of_mem_objects hin] at hfound
  case colon =>
    intro object hin
    obtain ⟨hwell, hlegal⟩ := hobject object hin
    exact Object.colon_mem_source_iff hwell hlegal

/-! ### Accepted sheets -/

namespace Library

variable {config : Config} {library : Library} {sheet : Stylesheet} {identifier name : String}
  {block : Block}

/-- A sheet that is accepted gives its block the names that stand in it: those of
states and groups are identifiers, and those of classes are if they are in the sheet,
which they are in every sheet from text. Names of states are checked when a rule is
added, and those of classes only when a text is read. A sheet that is built by hand
can therefore bring any names of classes. -/
theorem addSheet_namedBy
    (h : (library.addSheet config sheet identifier name).2 = some (.ok block)) :
    block.NamedBy sheet.rules
      ∧ ((∀ cls ∈ block.classes, isIdentifier cls.name)
        ↔ ∀ name, Rule.WritesClass sheet.rules name → isIdentifier name)
      ∧ ∀ source, Stylesheet.ofSource source = .ok sheet →
        ∀ cls ∈ block.classes, isIdentifier cls.name := by
  obtain ⟨references, -, hbuilt⟩ := addSheet_eq_ok_iff.1 h
  have hnamed := Block.namedBy_of_ofRules hbuilt
  -- The name of the root is an identifier, and the others are the names in the rules.
  have hclasses : (∀ cls ∈ block.classes, isIdentifier cls.name)
      ↔ ∀ name, Rule.WritesClass sheet.rules name → isIdentifier name := by
    rw [← List.forall_mem_map (P := fun name => (isIdentifier name : Prop))]
    simp only [hnamed.classes, or_imp, forall_and, forall_eq]
    exact and_iff_right (by decide)
  refine ⟨hnamed, hclasses, fun source hsource => hclasses.2 ?_⟩
  rintro name ⟨rule, hrule, selector, hselector, part, hpart, hwritten⟩
  exact Stylesheet.isProper_of_ofSource hsource rule hrule selector hselector part hpart name
    hwritten

/-- A sheet that is built by hand, with a class that could not be read and one that
could. The first one is not found by its selector, and the states of the second one
are. A name is only checked where it is read from a text. -/
theorem addSheet_namedBy_spaced :
    let config : Config := ⟨[], "/r", 32, []⟩
    let large : Selector.Attribute := ⟨some "state", "size", some "large"⟩
    let rule (compound : Compound) : Rule := ⟨[⟨[⟨compound, .none⟩]⟩], [], .unknown⟩
    let sheet : Stylesheet := ⟨[], [rule [.cls "a b"], rule [.cls "item", .attr large]]⟩
    ∃ block, (Library.empty.addSheet config sheet "/r/a.css" "a").2 = some (.ok block)
      ∧ block.objects.map (fun object =>
          (object.source, (block.findObject? object.source.toList).isSome))
        = [(".root", true), (".a b", false), (".item", true), (".item[state|size=large]", true)]
      ∧ block.NamedBy sheet.rules := by
  intro config large rule sheet
  -- Blocks cannot be compared, so what is shown of the block is evaluated in its place.
  have hbuilds : (Block.ofRules 1 "a" "/r/a.css" [] sheet.rules).map (fun block =>
        block.objects.map fun object =>
          (object.source, (block.findObject? object.source.toList).isSome))
      = .ok [(".root", true), (".a b", false), (".item", true),
          (".item[state|size=large]", true)] := by
    decide +kernel
  obtain ⟨block, hbuilt, hobjects⟩ := map_eq_ok.1 hbuilds
  have haccepted : (Library.empty.addSheet config sheet "/r/a.css" "a").2 = some (.ok block) :=
    addSheet_nil_of_built hbuilt
  exact ⟨block, haccepted, hobjects, (addSheet_namedBy haccepted).1⟩

/-- A class with a colon in its name is accepted. Its selector has the colon, and
means something else when it is read. Whoever splits a written id at its last colon
therefore does not get back the selector. -/
theorem addSheet_accepts_colon :
    let config : Config := ⟨[], "/r", 32, []⟩
    let sheet : Stylesheet := ⟨[], [⟨[⟨[⟨[.cls "a:b"], .none⟩]⟩], [], .unknown⟩]⟩
    ∃ block object, (Library.empty.addSheet config sheet "/r/a.css" "a").2 = some (.ok block)
      ∧ object ∈ block.objects ∧ object.source = ".a:b" ∧ ¬ isIdentifier object.owner.name
      ∧ ':' ∈ object.source.toList ∧ block.findObject? object.source.toList = none := by
  intro config sheet
  have hbuilds : (Block.ofRules 1 "a" "/r/a.css" [] sheet.rules).map (fun block =>
        block.objects.getLast?.map fun object =>
          (object.source, object.owner.name, (block.findObject? object.source.toList).isNone))
      = .ok (some (".a:b", "a:b", true)) := by
    decide +kernel
  obtain ⟨block, hbuilt, hlast⟩ := map_eq_ok.1 hbuilds
  obtain ⟨object, hobject, hshown⟩ := Option.map_eq_some_iff.1 hlast
  simp only [Prod.mk.injEq, Option.isNone_iff_eq_none] at hshown
  obtain ⟨hsource, hname, hfound⟩ := hshown
  have haccepted : (Library.empty.addSheet config sheet "/r/a.css" "a").2 = some (.ok block) :=
    addSheet_nil_of_built hbuilt
  refine ⟨block, object, haccepted, List.mem_of_getLast? hobject, hsource, ?_, ?_, hfound⟩
  · rw [hname]
    decide
  · rw [hsource]
    decide

end Library

end BlockStyles
