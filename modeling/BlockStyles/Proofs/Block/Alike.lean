import BlockStyles.Proofs.Block.Account
import BlockStyles.Proofs.Block.Find

/-!
# `BlockStyles.Proofs.Block.Alike`: the order of rules does not matter

Two blocks with objects of the same names, the same base and the same references find the same
objects. So whether the targets of resolutions are there is no more a matter of the order of the
rules than what the rules declare and apply.

* `Block.Alike.isSome_lookup?_iff`: alike blocks find the same references.
* `getLast?_eq_of_perm`: the base is the last one that is named, and is the same in every order,
  since all that are named have one id. The name of a block is the one thing that may depend on
  the order, as nothing keeps rules from naming a block twice.
* `Draft.ShowsRules.sameContent`: what has been built in two orders has the same content.
* `Block.ofRules_perm`: rules in another order are accepted if they are accepted in one, and make a
  block with the same content.
-/

set_option autoImplicit false

namespace BlockStyles

open BlockStyles.Text (trim unquote)

/-! ### Finding -/

namespace Block

variable {block other : Block}

/-- Alike blocks have the same ancestors, for these depend on the base alone. -/
def ancestors (block : Block) : List Block :=
  block.base.elim [] lineage

/-- The lineage of a block is the block and then the lineage of its base. The
definition does this in one recursion, but the two parts are compared differently. -/
theorem lineage_eq (block : Block) : block.lineage = block :: block.ancestors := by
  fun_cases lineage block <;> rfl

/-- A block has a class of its own if there is one of the name. Which one is found
does not matter as long as only its presence is asked for. -/
theorem isSome_ownClass?_iff {name : String} :
    (block.ownClass? name).isSome ↔ ⟨name, none⟩ ∈ block.names := by
  rw [← hasClass_iff, ownClass?, Option.isSome_map, List.isSome_findFinIdx?, hasClass]

/-- A class is sought in the block itself first, and then among its ancestors. The
lineage of a block begins with the block, and this splits it off there. Own classes
can be compared by names, those of ancestors are the same for alike blocks. -/
theorem class?_eq (block : Block) (name : String) :
    block.class? name
      = (block.ownClass? name).or (block.ancestors.findSome? (·.ownClass? name)) := by
  rw [class?, lineage_eq, List.findSome?_cons]
  cases block.ownClass? name <;> rfl

end Block

namespace ClassRef

variable {ref : ClassRef} {label : StateName}

/-- A class has a state of its own if there is one of the label. The block has to be
well named, since names speak of all classes of one name at once. -/
theorem isSome_ownState?_iff (h : ref.block.WellNamed) :
    (ref.ownState? label).isSome ↔ ⟨ref.name, some label⟩ ∈ ref.block.names := by
  have hdata : ref.data ∈ ref.block.classes := List.getElem_mem _
  rw [ownState?, Option.isSome_map, List.isSome_findFinIdx?, Block.state_mem_names_iff]
  constructor
  · intro hstate
    exact ⟨ref.data, hdata, rfl, hstate⟩
  · rintro ⟨data, hin, hname, hstate⟩
    rwa [h.eq_of_name hin hdata hname] at hstate

/-- A state that can be reached on a class is there itself or on a class of that name
in a block that is extended. The second part does not mention the block's own objects,
so it is the same for blocks with the same base. -/
theorem isSome_state?_iff (h : ref.block.WellNamed) :
    (ref.state? label).isSome ↔ ⟨ref.name, some label⟩ ∈ ref.block.names
      ∨ ((ref.block.ancestors.filterMap (·.ownClass? ref.name)).findSome?
        (·.ownState? label)).isSome := by
  rw [state?, namesakes, Block.lineage_eq, List.filterMap_cons]
  cases hown : ref.block.ownClass? ref.name with
  | none =>
    -- Without the class the block has no state of it either.
    have hnot : ⟨ref.name, some label⟩ ∉ ref.block.names := by
      intro hin
      have hclass := Block.isSome_ownClass?_iff.2 (Block.cls_mem_names hin)
      rw [hown] at hclass
      cases hclass
    simp [hnot]
  | some own =>
    obtain ⟨hblock, hname⟩ := Block.of_ownClass? hown
    have hstate : (own.ownState? label).isSome ↔ ⟨own.name, some label⟩ ∈ own.block.names :=
      isSome_ownState?_iff (hblock.symm ▸ h)
    rw [hname, hblock] at hstate
    rw [← hstate, List.findSome?_cons]
    cases own.ownState? label <;> simp

end ClassRef

namespace Block

variable {block other : Block}

/-- Two blocks have objects of the same names, the same base and the same references. -/
structure Alike (block other : Block) : Prop where
  wellNamed : block.WellNamed
  wellNamed' : other.WellNamed
  names : ∀ object, object ∈ block.names ↔ object ∈ other.names
  base : block.base = other.base
  references : block.references = other.references

namespace Alike

/-- The ancestors of alike blocks are the same, as they have the same base. -/
theorem ancestors (h : block.Alike other) : block.ancestors = other.ancestors := by
  rw [Block.ancestors, h.base, Block.ancestors]

/-- The same states can be reached on two classes of one name. The classes themselves
may stand at different places of their blocks. -/
theorem isSome_state?_iff {ref ref' : ClassRef} (h : ref.block.Alike ref'.block)
    (hname : ref.name = ref'.name) {label : StateName} :
    (ref.state? label).isSome ↔ (ref'.state? label).isSome := by
  rw [ClassRef.isSome_state?_iff h.wellNamed, ClassRef.isSome_state?_iff h.wellNamed', h.names,
    h.ancestors, hname]

/-- Alike blocks find an object for the same names. Four cases: with or without a class,
and with or without a state. -/
theorem isSome_sought?_iff (h : block.Alike other) (sought : Sought) :
    (block.sought? sought).isSome ↔ (other.sought? sought).isSome := by
  obtain ⟨cls, state⟩ := sought
  cases cls with
  | none =>
    cases state with
    | none => simp [sought?]
    | some label =>
      have hroot : block.rootRef.name = other.rootRef.name :=
        h.wellNamed.root.trans h.wellNamed'.root.symm
      have hstate : (block.rootRef.state? label).isSome ↔ (other.rootRef.state? label).isSome :=
        isSome_state?_iff h hroot
      simpa [sought?] using hstate
  | some name =>
    have hsame : (block.ownClass? name).isSome ↔ (other.ownClass? name).isSome := by
      rw [isSome_ownClass?_iff, h.names, isSome_ownClass?_iff]
    cases hown : block.ownClass? name with
    -- Without a class of their own both have that of the nearest ancestor.
    | none =>
      have hown' : other.ownClass? name = none := by simpa [hown] using hsame
      have hclass : block.class? name = other.class? name := by
        rw [class?_eq, class?_eq, hown, hown', h.ancestors]
      simp [sought?, hclass]
    | some ref =>
      obtain ⟨ref', hown'⟩ := Option.isSome_iff_exists.1 (hsame.1 (by simp [hown]))
      obtain ⟨hblock, hname⟩ := of_ownClass? hown
      obtain ⟨hblock', hname'⟩ := of_ownClass? hown'
      have hclass : block.class? name = some ref := by rw [class?_eq, hown, Option.some_or]
      have hclass' : other.class? name = some ref' := by rw [class?_eq, hown', Option.some_or]
      cases state with
      | none => simp [sought?, hclass, hclass']
      | some label =>
        have hstate : (ref.state? label).isSome ↔ (ref'.state? label).isSome := by
          subst hblock hblock'
          exact isSome_state?_iff h (hname.trans hname'.symm)
        simpa [sought?, hclass, hclass'] using hstate

/-- An alias means the same block to both of them. The empty alias does not: it means
the block itself. -/
theorem aliased?_eq (h : block.Alike other) {localName : List Char} (hne : localName ≠ []) :
    block.aliased? localName = other.aliased? localName := by
  cases localName with
  | nil => exact absurd rfl hne
  | cons c rest =>
    have hreferenced : ∀ localName, block.referenced? localName = other.referenced? localName :=
      fun localName => congrArg (List.lookup localName) h.references
    simp only [aliased?, lineage_eq, List.findSome?_cons, h.ancestors, hreferenced]

/-- Alike blocks find the same references, with an alias and without. Finishing a
draft asks just whether a target is found, not which object it is. -/
theorem isSome_lookup?_iff (h : block.Alike other) (reference : String) :
    (block.lookup? reference).isSome ↔ (other.lookup? reference).isSome := by
  unfold lookup?
  dsimp only
  generalize reference.toList.takeWhile (!startsSelector ·) = localName
  generalize reference.toList.dropWhile (!startsSelector ·) = selector
  cases localName with
  -- Without an alias each of them is meant itself.
  | nil =>
    simp only [aliased?, Option.bind_some, findObject?]
    cases Sought.ofSelector? selector with
    | none => simp
    | some sought => exact h.isSome_sought?_iff sought
  | cons c rest => rw [h.aliased?_eq (List.cons_ne_nil c rest)]

end Alike

end Block

/-! ### Rules in another order -/

/-- Lists of the same elements end with the same one if there is no choice. Where
there is one, the order may decide, as it does for the name of a block. -/
theorem getLast?_eq_of_perm {α : Type} {l l' : List α} (h : l.Perm l')
    (hsame : ∀ a ∈ l, ∀ b ∈ l, a = b) : l.getLast? = l'.getLast? := by
  cases hl : l.getLast? with
  | none =>
    rw [List.getLast?_eq_none_iff] at hl
    subst hl
    rw [List.nil_perm.1 h]
    rfl
  | some a =>
    cases hl' : l'.getLast? with
    | none =>
      rw [List.getLast?_eq_none_iff] at hl'
      subst hl'
      rw [List.perm_nil.1 h] at hl
      cases hl
    | some b =>
      exact congrArg some
        (hsame a (List.mem_of_getLast? hl) b (h.mem_iff.2 (List.mem_of_getLast? hl')))

namespace Block

/-- Two blocks have the same content, in whatever order it is listed. -/
structure SameContent (block other : Block) : Prop where
  classes : (block.classes.map ClassData.name).Perm (other.classes.map ClassData.name)
  states : ∀ cls ∈ block.classes, ∀ cls' ∈ other.classes, cls.name = cls'.name →
    (cls.states.map StateData.label).Perm (cls'.states.map StateData.label)
  properties : ∀ object ∈ block.objects, ∀ object' ∈ other.objects,
    object.fullName = object'.fullName → object.style.properties = object'.style.properties
  resolutions : ∀ object ∈ block.objects, ∀ object' ∈ other.objects,
    object.fullName = object'.fullName →
      object.style.resolutions.Perm object'.style.resolutions
  references : block.references = other.references
  base : block.base = other.base

end Block

/-- Two declarations in rules give the block different names. -/
def Rule.NamesDiffer (rules : List Rule) : Prop :=
  ∃ declaration ∈ rules.flatMap Rule.declarations, ∃ other ∈ rules.flatMap Rule.declarations,
    declaration.property = nameProperty ∧ other.property = nameProperty
      ∧ unquote (trim declaration.value.toList) ≠ unquote (trim other.value.toList)

/-- References to different blocks have different ids. -/
def DistinctIds (references : List (String × Block)) : Prop :=
  ∀ reference ∈ references, ∀ reference' ∈ references,
    reference.2.id = reference'.2.id → reference.2 = reference'.2

namespace Application

/-- An application names the block if it is one of the name property, and then the
name is its value without quotes. -/
theorem name?_eq_some_iff {application : Application} {name : String} :
    application.name? = some name ↔ application.declaration.property = nameProperty
      ∧ String.ofList (unquote (trim application.declaration.value.toList)) = name := by
  unfold name?
  split
  · rename_i hproperty
    simp [hproperty, value]
  · rename_i hproperty
    simp [hproperty]

end Application

/-- What is applied has been declared in one of the rules. Two rules that disagree
about the name of the block are found in this way. -/
theorem Rule.mem_declarations_of_mem_applications {rules : List Rule} {application : Application}
    (h : application ∈ rules.flatMap Rule.applications) :
    application.declaration ∈ rules.flatMap Rule.declarations := by
  obtain ⟨rule, hrule, hin⟩ := List.mem_flatMap.1 h
  obtain ⟨declaration, hdeclaration, hkeys⟩ := List.mem_flatMap.1 hin
  obtain ⟨key, -, rfl⟩ := List.mem_map.1 hkeys
  exact List.mem_flatMap.2 ⟨rule, hrule, hdeclaration⟩

namespace Draft.ShowsRules

variable {name : String} {references : List (String × Block)} {draft draft' : Draft}
  {rules rules' : List Rule}

/-- Rules in another order give the same base. All bases that are named have one id,
and by hypothesis references with one id are to one block. -/
theorem base_eq_of_perm (h : draft.ShowsRules name references rules)
    (h' : draft'.ShowsRules name references rules') (hperm : rules.Perm rules')
    (hids : DistinctIds references) : draft.block.base = draft'.block.base := by
  rw [h.base_eq, h'.base_eq]
  refine getLast?_eq_of_perm ((hperm.flatMap_right _).filterMap _) fun base hbase base' hbase' => ?_
  obtain ⟨application, happlied, hsome⟩ := List.mem_filterMap.1 hbase
  obtain ⟨application', happlied', hsome'⟩ := List.mem_filterMap.1 hbase'
  obtain ⟨localName, hin⟩ := Application.exists_mem_of_base? hsome
  obtain ⟨localName', hin'⟩ := Application.exists_mem_of_base? hsome'
  have hid := (h.compatible _ happlied _ happlied').base base base' hsome hsome'
  exact hids _ hin _ hin' hid

/-- Rules in another order make an alike block, since neither the names nor the base
depend on it. -/
theorem alike (h : draft.ShowsRules name references rules)
    (h' : draft'.ShowsRules name references rules') (hperm : rules.Perm rules')
    (hids : DistinctIds references) : draft.block.Alike draft'.block where
  wellNamed := h.coherent.toWellNamed
  wellNamed' := h'.coherent.toWellNamed
  names object := by
    have hobjects : ∀ other, other ∈ rules.flatMap Rule.objects
        ↔ other ∈ rules'.flatMap Rule.objects := fun other => (hperm.flatMap_right _).mem_iff
    simp only [h.names, h'.names, hobjects]
  base := h.base_eq_of_perm h' hperm hids
  references := h.references_eq.trans h'.references_eq.symm

/-- Rules in another order give the block the same name, unless two of them name it
differently. Then the last one decides, which is the one thing that may depend on the
order. -/
theorem name_eq_of_perm (h : draft.ShowsRules name references rules)
    (h' : draft'.ShowsRules name references rules') (hperm : rules.Perm rules') :
    draft.block.name = draft'.block.name ∨ Rule.NamesDiffer rules := by
  have happlied := (hperm.flatMap_right Rule.applications).filterMap Application.name?
  by_cases hsame : ∀ a ∈ (rules.flatMap Rule.applications).filterMap Application.name?,
      ∀ b ∈ (rules.flatMap Rule.applications).filterMap Application.name?, a = b
  · left
    rw [h.name_eq, h'.name_eq, getLast?_eq_of_perm happlied hsame]
  · right
    simp only [List.mem_filterMap, Application.name?_eq_some_iff, not_forall] at hsame
    obtain ⟨_, ⟨first, hfirst, hproperty, rfl⟩, _, ⟨second, hsecond, hproperty', rfl⟩, hne⟩ := hsame
    exact ⟨_, Rule.mem_declarations_of_mem_applications hfirst, _,
      Rule.mem_declarations_of_mem_applications hsecond, hproperty, hproperty',
      fun heq => hne (congrArg String.ofList heq)⟩

/-- Once rules have been added in two orders, the targets are found in both blocks or
in neither. They are looked for when all rules have been added, so an early target may
be declared late. -/
theorem exists_finish_iff (h : draft.ShowsRules name references rules)
    (h' : draft'.ShowsRules name references rules') (hperm : rules.Perm rules')
    (hids : DistinctIds references) :
    (∃ block, draft.finish = .ok block) ↔ ∃ block, draft'.finish = .ok block := by
  have htargets := (((hperm.flatMap_right Rule.applications).filterMap
    Application.resolution?).map Resolution.target)
  rw [← h.targets, ← h'.targets] at htargets
  simp only [finish_ok_iff, exists_and_left, exists_eq', and_true, htargets.mem_iff,
    (h.alike h' hperm hids).isSome_lookup?_iff]

end Draft.ShowsRules

/-- Rules in another order make a block with the same content. Lists whose elements
are all different are permutations of each other if they have the same elements, and
sorted lists are even equal. -/
theorem Draft.ShowsRules.sameContent {name : String} {references : List (String × Block)}
    {draft draft' : Draft} {rules rules' : List Rule} (h : draft.ShowsRules name references rules)
    (h' : draft'.ShowsRules name references rules') (hperm : rules.Perm rules')
    (hids : DistinctIds references) : draft.block.SameContent draft'.block := by
  have halike := h.alike h' hperm hids
  obtain ⟨hclasses, hlabels⟩ := Block.nodup_names_iff.1 h.coherent.once
  obtain ⟨hclasses', hlabels'⟩ := Block.nodup_names_iff.1 h'.coherent.once
  have happlied := hperm.flatMap_right Rule.applications
  constructor
  case classes =>
    rw [List.perm_ext_iff_of_nodup hclasses hclasses']
    intro name
    rw [Block.mem_classNames_iff, Block.mem_classNames_iff, halike.names]
  case states =>
    intro cls hcls cls' hcls' hname
    rw [List.perm_ext_iff_of_nodup (hlabels cls hcls) (hlabels' cls' hcls')]
    intro label
    rw [h.coherent.mem_labels_iff hcls, h'.coherent.mem_labels_iff hcls', halike.names, hname]
  -- Properties are sorted, so the same members make the same list.
  case properties =>
    intro object hobject object' hobject' hname
    refine SortedList.ext_of_mem_iff fun property => ?_
    rw [h.properties _ (Block.mem_styles_of_mem_objects hobject),
      h'.properties _ (Block.mem_styles_of_mem_objects hobject'), hname]
    exact exists_congr fun _ => and_congr_left fun _ => happlied.mem_iff
  -- Resolutions stand in the order of the rules, so this is all that can be said of them.
  case resolutions =>
    intro object hobject object' hobject' hname
    rw [h.resolutions _ (Block.mem_styles_of_mem_objects hobject),
      h'.resolutions _ (Block.mem_styles_of_mem_objects hobject'), hname]
    exact happlied.filterMap _
  case references => exact halike.references
  case base => exact halike.base

/-- Rules in another order are accepted if they are accepted in one, and make a block
with the same content. Ids and identifiers may differ, since they do not come from
rules; names agree unless the rules themselves disagree about them. -/
theorem Block.ofRules_perm {id id' : Nat} {name identifier identifier' : String}
    {references : List (String × Block)} {rules rules' : List Rule} (hperm : rules.Perm rules')
    (hids : DistinctIds references) :
    ((∃ block, ofRules id name identifier references rules = .ok block)
        ↔ ∃ block, ofRules id' name identifier' references rules' = .ok block)
      ∧ ∀ block block', ofRules id name identifier references rules = .ok block →
        ofRules id' name identifier' references rules' = .ok block' →
          block.SameContent block' ∧ (block.name = block'.name ∨ Rule.NamesDiffer rules) := by
  simp only [ofRules_eq_ok_iff]
  constructor
  -- All rules can be added in one order if they can in the other: the condition is on pairs
  -- of them.
  · have hrules : (∃ draft, rules.foldlM Draft.addRule
            ⟨.bare id name identifier references, []⟩ = .ok draft)
        ↔ ∃ draft, rules'.foldlM Draft.addRule
          ⟨.bare id' name identifier' references, []⟩ = .ok draft := by
      simp only [Draft.exists_addRules_iff, hperm.mem_iff]
    constructor
    · rintro ⟨block, draft, hdraft, hfinish⟩
      obtain ⟨draft', hdraft'⟩ := hrules.1 ⟨draft, hdraft⟩
      -- The targets are looked for in blocks that have the same objects.
      obtain ⟨block', hfinish'⟩ := (Draft.ShowsRules.exists_finish_iff
        (Draft.showsRules_of_foldlM hdraft) (Draft.showsRules_of_foldlM hdraft') hperm hids).1
        ⟨block, hfinish⟩
      exact ⟨block', draft', hdraft', hfinish'⟩
    · rintro ⟨block', draft', hdraft', hfinish'⟩
      obtain ⟨draft, hdraft⟩ := hrules.2 ⟨draft', hdraft'⟩
      obtain ⟨block, hfinish⟩ := (Draft.ShowsRules.exists_finish_iff
        (Draft.showsRules_of_foldlM hdraft) (Draft.showsRules_of_foldlM hdraft') hperm hids).2
        ⟨block', hfinish'⟩
      exact ⟨block, draft, hdraft, hfinish⟩
  · rintro block block' ⟨draft, hdraft, hfinish⟩ ⟨draft', hdraft', hfinish'⟩
    have h := Draft.showsRules_of_foldlM hdraft
    have h' := Draft.showsRules_of_foldlM hdraft'
    rw [← (Draft.finish_ok_iff.1 hfinish).2, ← (Draft.finish_ok_iff.1 hfinish').2]
    exact ⟨h.sameContent h' hperm hids, h.name_eq_of_perm h' hperm⟩

end BlockStyles
