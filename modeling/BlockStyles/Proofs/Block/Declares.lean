import BlockStyles.Proofs.Block.Account

/-!
# `BlockStyles.Proofs.Block.Declares`: a block declares what its rules say

What a block contains can be said without going through the construction: which classes and
states there are by the compounds of the rules, and what is set on an object by the rules
that have a selector for it.

* `Block.Declares`: the block has what the rules say and nothing else.
* `Rule.someCompound_iff`, `Rule.exists_application_iff`: what is said of compounds and of
  declarations in rules is said of the objects and the applications of the account.
* `Block.declares_of_ofRules`: so it is with every block that is built.
-/

set_option autoImplicit false

namespace BlockStyles

open BlockStyles.Selector (Chain Compound Part)
open BlockStyles.Text (trim unquote)

/-! ### Values -/

/-- The value of the declaration is `resolve(…)` around the target, which may be quoted and is not
empty. -/
def Declaration.Resolves (declaration : Declaration) (target : String) : Prop :=
  ∃ inner, trim declaration.value.toList = "resolve(".toList ++ inner ++ [')']
    ∧ unquote (trim inner) = target.toList ∧ target ≠ ""

/-- What stands between a front and a back is what the text is made of, and it may be
empty. -/
theorem between?_eq_some_iff {front back text inner : List Char} :
    between? front back text = some inner ↔ text = front ++ inner ++ back := by
  unfold between?
  constructor
  · intro h
    split at h
    -- The front is taken off before the back is looked for, so the two cannot overlap.
    · rename_i hfront
      obtain ⟨rest, rfl⟩ := List.isPrefixOf_iff_prefix.1 hfront
      rw [List.drop_left] at h
      dsimp only at h
      split at h
      · rename_i hback
        obtain ⟨between, rfl⟩ := List.isSuffixOf_iff_suffix.1 hback
        simp at h
        simp [h]
      · cases h
    · cases h
  · rintro rfl
    simp [List.append_assoc]

/-- A value has a target if it is `resolve(…)` around it. White space and quotes
around the target do not belong to it, and an empty target is none. -/
theorem resolveTarget?_eq_some_iff {value : List Char} {target : String} :
    resolveTarget? value = some target ↔ ∃ inner, value = "resolve(".toList ++ inner ++ [')']
      ∧ unquote (trim inner) = target.toList ∧ target ≠ "" := by
  simp only [← between?_eq_some_iff]
  unfold resolveTarget?
  cases between? "resolve(".toList [')'] value with
  | none => simp
  | some inner =>
    simp only [Option.some.injEq, exists_eq_left']
    cases htarget : unquote (trim inner) with
    -- An empty target is turned down, and the right side asks for one that is not empty.
    | nil =>
      refine iff_of_false nofun ?_
      rintro ⟨hempty, hne⟩
      exact hne (String.toList_eq_nil_iff.1 hempty.symm)
    | cons c rest =>
      rw [Option.some.injEq]
      constructor
      · rintro rfl
        simp
      · rintro ⟨heq, -⟩
        rw [heq, String.ofList_toList]

/-- A resolution is recorded on the object that the declaration is applied to, if its
value is one. Declarations that speak of the block are never recorded, whatever their
values are. -/
theorem Application.resolutionOn?_eq_some_iff {application : Application} {object : ObjectName}
    {property target : String} :
    application.resolutionOn? object = some ⟨property, target⟩
      ↔ application.key.object = object ∧ ¬ application.declaration.IsOfBlock
        ∧ application.declaration.property = property
        ∧ application.declaration.Resolves target := by
  unfold resolutionOn? resolution?
  have hresolves : resolveTarget? application.value = some target
      ↔ application.declaration.Resolves target := resolveTarget?_eq_some_iff
  rw [← hresolves]
  by_cases hobject : application.key.object = object
  · by_cases hblock : application.declaration.IsOfBlock
    · simp [hobject, hblock]
    · simp [hobject, hblock, and_comm]
  · simp [hobject]

/-! ### Selectors -/

namespace Selector.Chain.IsReadable

variable {selector : Chain}

/-- In a selector that can be read every compound is accepted, as the key or in front
of it. The induction follows the definition, which tells the last part from the
others. -/
theorem exists_ofCompound (h : selector.IsReadable) {part : Part} (hpart : part ∈ selector.parts) :
    ∃ isKey object, ObjectName.ofCompound isKey part.compound = .ok object := by
  -- For every rest of the selector, since the definition goes through the parts one by one.
  have hgo : ∀ parts, IsReadable.go parts → part ∈ parts →
      ∃ isKey object, ObjectName.ofCompound isKey part.compound = .ok object := by
    intro parts
    fun_induction IsReadable.go parts with
    | case1 =>
      intro _ hin
      cases hin
    | case2 key =>
      intro hkey hin
      cases List.mem_singleton.1 hin
      exact ⟨true, hkey⟩
    | case3 first next parts ih =>
      rintro ⟨hfirst, hparts⟩ hin
      rcases List.mem_cons.1 hin with rfl | hin
      · exact ⟨false, hfirst⟩
      · exact ih hparts hin
  exact hgo selector.parts h hpart

/-- The object of a part, said without reading: it is what the compound names. The
object is computed without a word about errors; in a selector that can be read there
are none. -/
theorem object?_eq_some_iff (h : selector.IsReadable) {part : Part}
    (hpart : part ∈ selector.parts) {object : ObjectName} :
    part.object? = some object ↔ part.compound.Names object := by
  obtain ⟨isKey, first, hfirst⟩ := h.exists_ofCompound hpart
  rw [Part.object?_of_ok hfirst, Compound.names_iff hfirst, Option.some.injEq, eq_comm]

/-- The declarations behind a selector apply to the object that its last compound
names. -/
theorem exists_styled?_iff (h : selector.IsReadable) {object : ObjectName} :
    (∃ key, selector.styled? = some key ∧ key.object = object)
      ↔ ∃ compound, selector.key? = some compound ∧ compound.Names object := by
  simp only [Chain.styled?, Chain.key?, Option.map_eq_some_iff, Option.bind_eq_some_iff]
  constructor
  · rintro ⟨key, ⟨object, ⟨part, hlast, hpart⟩, rfl⟩, rfl⟩
    exact ⟨part.compound, ⟨part, hlast, rfl⟩,
      (h.object?_eq_some_iff (List.mem_of_getLast? hlast)).1 hpart⟩
  · rintro ⟨compound, ⟨part, hlast, rfl⟩, hnames⟩
    have hpart := (h.object?_eq_some_iff (List.mem_of_getLast? hlast)).2 hnames
    exact ⟨_, ⟨object, ⟨part, hlast, hpart⟩, rfl⟩, rfl⟩

end Selector.Chain.IsReadable

/-- The rule has a selector whose last compound names the object. -/
def Rule.Styles (rule : Rule) (object : ObjectName) : Prop :=
  ∃ selector ∈ rule.selectors, ∃ compound, selector.key? = some compound ∧ compound.Names object

/-- A compound of one of the rules has the property. -/
def Rule.SomeCompound (rules : List Rule) (p : Compound → Prop) : Prop :=
  ∃ rule ∈ rules, ∃ selector ∈ rule.selectors, ∃ part ∈ selector.parts, p part.compound

/-- The block has the classes, states, properties and resolutions that rules speak of, each object
and each property once, and nothing else. -/
structure Block.Declares (block : Block) (rules : List Rule) : Prop where
  /-- The classes are the root and those of the compounds. -/
  classes : ∀ name, name ∈ block.classes.map ClassData.name
    ↔ name = rootName ∨ Rule.SomeCompound rules (·.IsOf name)
  /-- The states of a class are those that compounds select on it. -/
  states : ∀ cls ∈ block.classes, ∀ label, label ∈ cls.states.map StateData.label
    ↔ Rule.SomeCompound rules fun compound => compound.IsOf cls.name ∧ compound.Selects label
  /-- The properties of an object are those that rules for the object set. -/
  properties : ∀ object ∈ block.objects, ∀ property, property ∈ object.style.properties.toList
    ↔ property ≠ extendsProperty ∧ property ≠ nameProperty
      ∧ ∃ rule ∈ rules, rule.Styles object.fullName
        ∧ ∃ declaration ∈ rule.declarations, declaration.property = property
  /-- The resolutions of an object are those that rules for the object make. -/
  resolutions : ∀ object ∈ block.objects, ∀ property target,
    ⟨property, target⟩ ∈ object.style.resolutions
      ↔ property ≠ extendsProperty ∧ property ≠ nameProperty
        ∧ ∃ rule ∈ rules, rule.Styles object.fullName
          ∧ ∃ declaration ∈ rule.declarations, declaration.property = property
            ∧ declaration.Resolves target
  /-- No object is there twice. -/
  objects_once : (block.objects.map Object.fullName).Nodup
  /-- No property is there twice on an object. -/
  properties_once : ∀ object ∈ block.objects, object.style.properties.toList.Nodup

namespace Rule

variable {rules : List Rule}

/-- The objects that rules declare are read from their compounds. Every one of them
has a compound, and not only the classes that come with states. -/
theorem someCompound_of_mem_objects (h : ∀ rule ∈ rules, rule.IsReadable) {object : ObjectName}
    (hobject : object ∈ rules.flatMap objects) :
    SomeCompound rules fun compound =>
      ∃ isKey, ObjectName.ofCompound isKey compound = .ok object := by
  obtain ⟨rule, hrule, hobject⟩ := List.mem_flatMap.1 hobject
  obtain ⟨selector, hselector, hobject⟩ := List.mem_flatMap.1 hobject
  obtain ⟨part, hpart, hsome⟩ := List.mem_filterMap.1 hobject
  obtain ⟨isKey, first, hfirst⟩ := (h rule hrule selector hselector).exists_ofCompound hpart
  cases hsome.symm.trans (Part.object?_of_ok hfirst)
  exact ⟨rule, hrule, selector, hselector, part, hpart, isKey, hfirst⟩

/-- What is said of compounds is said of the objects that rules declare. Classes and
states of a block are both found by it, with different properties of compounds. -/
theorem someCompound_iff (h : ∀ rule ∈ rules, rule.IsReadable) {p : Compound → Prop}
    {q : ObjectName → Prop}
    (hpq : ∀ isKey compound object, ObjectName.ofCompound isKey compound = .ok object →
      (p compound ↔ q object)) :
    SomeCompound rules p ↔ ∃ object ∈ rules.flatMap objects, q object := by
  constructor
  · rintro ⟨rule, hrule, selector, hselector, part, hpart, hp⟩
    obtain ⟨isKey, object, hobject⟩ := (h rule hrule selector hselector).exists_ofCompound hpart
    have hselected : object ∈ selector.objects :=
      List.mem_filterMap.2 ⟨part, hpart, Part.object?_of_ok hobject⟩
    have hnamed : object ∈ rule.objects := List.mem_flatMap.2 ⟨selector, hselector, hselected⟩
    exact ⟨object, List.mem_flatMap.2 ⟨rule, hrule, hnamed⟩, (hpq isKey _ object hobject).1 hp⟩
  · rintro ⟨object, hobject, hq⟩
    obtain ⟨rule, hrule, selector, hselector, part, hpart, isKey, hread⟩ :=
      someCompound_of_mem_objects h hobject
    exact ⟨rule, hrule, selector, hselector, part, hpart, (hpq isKey _ object hread).2 hq⟩

/-- What rules apply is applied to the objects that they style. Keys go away: they are
made of the selectors of a rule, and each goes with each of its declarations. -/
theorem exists_application_iff (h : ∀ rule ∈ rules, rule.IsReadable) {object : ObjectName}
    {p : Declaration → Prop} :
    (∃ application ∈ rules.flatMap applications,
        application.key.object = object ∧ p application.declaration)
      ↔ ∃ rule ∈ rules, rule.Styles object ∧ ∃ declaration ∈ rule.declarations, p declaration := by
  simp only [applications, List.mem_flatMap, List.mem_map, List.mem_filterMap]
  constructor
  · rintro ⟨_, ⟨rule, hrule, declaration, hdeclaration, key, ⟨selector, hselector, hkey⟩, rfl⟩,
      hobject, hp⟩
    -- A selector that can be read has a key, and it is the object that the selector styles.
    have hreadable := h rule hrule selector hselector
    exact ⟨rule, hrule, ⟨selector, hselector, hreadable.exists_styled?_iff.1 ⟨key, hkey, hobject⟩⟩,
      declaration, hdeclaration, hp⟩
  · rintro ⟨rule, hrule, ⟨selector, hselector, hstyled⟩, declaration, hdeclaration, hp⟩
    have hreadable := h rule hrule selector hselector
    obtain ⟨key, hkey, hobject⟩ := hreadable.exists_styled?_iff.2 hstyled
    exact ⟨⟨declaration, key⟩,
      ⟨rule, hrule, declaration, hdeclaration, key, ⟨selector, hselector, hkey⟩, rfl⟩, hobject, hp⟩

/-- What rules apply to the property of an object, they set on it. The two properties
that speak of the block are excepted on both sides. -/
theorem exists_application_of_property_iff (h : ∀ rule ∈ rules, rule.IsReadable)
    {object : ObjectName} {property : String} {q : Declaration → Prop} :
    (∃ application ∈ rules.flatMap applications, application.key.object = object
        ∧ ¬ application.declaration.IsOfBlock ∧ application.declaration.property = property
        ∧ q application.declaration)
      ↔ property ≠ extendsProperty ∧ property ≠ nameProperty
        ∧ ∃ rule ∈ rules, rule.Styles object
          ∧ ∃ declaration ∈ rule.declarations, declaration.property = property
            ∧ q declaration := by
  rw [exists_application_iff (p := fun d => ¬ d.IsOfBlock ∧ d.property = property ∧ q d) h]
  constructor
  · rintro ⟨rule, hrule, hstyles, declaration, hdeclaration, hobject, rfl, hq⟩
    obtain ⟨hextends, hnames⟩ := not_or.1 hobject
    exact ⟨hextends, hnames, rule, hrule, hstyles, declaration, hdeclaration, rfl, hq⟩
  · rintro ⟨hextends, hnames, rule, hrule, hstyles, declaration, hdeclaration, rfl, hq⟩
    exact ⟨rule, hrule, hstyles, declaration, hdeclaration, not_or.2 ⟨hextends, hnames⟩, rfl, hq⟩

end Rule

namespace Draft.ShowsRules

variable {name : String} {references : List (String × Block)} {draft : Draft} {rules : List Rule}

/-- The classes are the root and those that compounds speak of. Classes are read off
the compounds of the rules, with no regard to the order in which they were declared. -/
theorem mem_classNames_iff (h : draft.ShowsRules name references rules) {cls : String} :
    cls ∈ draft.block.classes.map ClassData.name
      ↔ cls = rootName ∨ Rule.SomeCompound rules (·.IsOf cls) := by
  have hcompound : Rule.SomeCompound rules (·.IsOf cls)
      ↔ ∃ object ∈ rules.flatMap Rule.objects, object.cls = cls :=
    Rule.someCompound_iff h.readable fun _ _ _ hobject =>
      (Compound.isOf_and_selects_iff hobject).1 cls
  rw [Block.mem_classNames_iff, h.names, hcompound, ObjectName.mk.injEq, and_iff_left rfl]
  refine or_congr_right (exists_congr fun other => and_congr_right fun _ => ?_)
  constructor
  · rintro (rfl | heq)
    · rfl
    · cases heq
      rfl
  · rintro rfl
    exact .inr rfl

/-- The states of a class are those that compounds select on it. A compound may select
its state on a class that another compound has declared. -/
theorem mem_labels_iff (h : draft.ShowsRules name references rules) {cls : ClassData}
    (hcls : cls ∈ draft.block.classes) {label : StateName} :
    label ∈ cls.states.map StateData.label
      ↔ Rule.SomeCompound rules fun compound =>
        compound.IsOf cls.name ∧ compound.Selects label := by
  have hcompound : Rule.SomeCompound rules
        (fun compound => compound.IsOf cls.name ∧ compound.Selects label)
      ↔ ∃ object ∈ rules.flatMap Rule.objects, object = ⟨cls.name, some label⟩ := by
    refine Rule.someCompound_iff h.readable fun _ _ object hobject => ?_
    obtain ⟨hof, hselects⟩ := Compound.isOf_and_selects_iff hobject
    rw [hof, hselects]
    cases object
    simp
  rw [h.coherent.mem_labels_iff hcls, h.names, hcompound]
  simp

/-- The properties of an object are those that rules for it set. The two properties
that concern the block as a whole are no styles, so they are left out. -/
theorem mem_properties_iff (h : draft.ShowsRules name references rules) {object : Object}
    (hobject : object ∈ draft.block.objects) {property : String} :
    property ∈ object.style.properties.toList
      ↔ property ≠ extendsProperty ∧ property ≠ nameProperty
        ∧ ∃ rule ∈ rules, rule.Styles object.fullName
          ∧ ∃ declaration ∈ rule.declarations, declaration.property = property := by
  have hsets : (∃ application ∈ rules.flatMap Rule.applications,
        application.Sets object.fullName property)
      ↔ ∃ application ∈ rules.flatMap Rule.applications,
        application.key.object = object.fullName ∧ ¬ application.declaration.IsOfBlock
          ∧ application.declaration.property = property ∧ True := by
    simp only [Application.Sets, and_true]
    exact exists_congr fun _ => and_congr_right fun _ => and_left_comm
  rw [h.properties _ (Block.mem_styles_of_mem_objects hobject), hsets,
    Rule.exists_application_of_property_iff (q := fun _ => True) h.readable]
  simp only [and_true]

/-- The resolutions of an object are those that rules for it make. Each of them names
its property and the target that is in the value. -/
theorem mem_resolutions_iff (h : draft.ShowsRules name references rules) {object : Object}
    (hobject : object ∈ draft.block.objects) {property target : String} :
    ⟨property, target⟩ ∈ object.style.resolutions
      ↔ property ≠ extendsProperty ∧ property ≠ nameProperty
        ∧ ∃ rule ∈ rules, rule.Styles object.fullName
          ∧ ∃ declaration ∈ rule.declarations, declaration.property = property
            ∧ declaration.Resolves target := by
  rw [h.resolutions _ (Block.mem_styles_of_mem_objects hobject), List.mem_filterMap,
    ← Rule.exists_application_of_property_iff (q := (·.Resolves target)) h.readable]
  exact exists_congr fun _ => and_congr_right fun _ => Application.resolutionOn?_eq_some_iff

/-- A draft declares what its rules say. Each field has its own lemma, and that
nothing is there twice is part of being coherent. -/
theorem declares (h : draft.ShowsRules name references rules) : draft.block.Declares rules where
  classes _ := h.mem_classNames_iff
  states _ hcls _ := h.mem_labels_iff hcls
  properties _ hobject _ := h.mem_properties_iff hobject
  resolutions _ hobject _ _ := h.mem_resolutions_iff hobject
  objects_once := by
    have hnames : draft.block.objects.map Object.fullName = draft.block.names := by
      rw [Block.names, ← draft.block.map_objects, List.map_map]
      rfl
    rw [hnames]
    exact h.coherent.once
  properties_once object _ := by simpa using object.style.properties.nodup_keys

end Draft.ShowsRules

/-- A block that is built from rules has what they say and nothing else. The statement
does not go through drafts, so it can be read without knowing how blocks are built. -/
theorem Block.declares_of_ofRules {id : Nat} {name identifier : String}
    {references : List (String × Block)} {rules : List Rule} {block : Block}
    (h : ofRules id name identifier references rules = .ok block) : block.Declares rules := by
  obtain ⟨draft, hdraft, hfinish⟩ := ofRules_eq_ok_iff.1 h
  rw [← (Draft.finish_ok_iff.1 hfinish).2]
  exact (Draft.showsRules_of_foldlM hdraft).declares

end BlockStyles
