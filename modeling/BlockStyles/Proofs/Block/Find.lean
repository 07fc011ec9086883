import BlockStyles.Proofs.Block.Styles
import BlockStyles.Proofs.Block.Tidy
import BlockStyles.Proofs.Selector.Written

/-!
# `BlockStyles.Proofs.Block.Find`: objects are found by their selectors

The selector of an object names its class, unless it is a state of the root, and
its state. If these names are identifiers, the selector is read as they are. Looked up in
the block of the object, each name leads to the block's own class and state: a block is
the first of its own lineage, and it has no other class or state of the name.

* `Block.findObject?_source_of_isLegal`: in its own block, an object is what its selector
  means, if its names are identifiers.
* `Object.colon_mem_source_iff`: a colon in its selector is one in the name of its class.
* `Block.findObject?_source`, `Object.colon_not_mem_source`: so it is in a tidy block.
* `Block.block_mem_of_findObject?`: an object comes from a block in the lineage.
-/

set_option autoImplicit false

namespace BlockStyles

open BlockStyles.Text

/-- Where the keys of a list are different, an element is the first one with its key.
So an index is found again by the key of its element. -/
theorem findFinIdx?_key {α β : Type} [DecidableEq β] {key : α → β} {l : List α}
    (h : (l.map key).Nodup) (i : Fin l.length) :
    l.findFinIdx? (fun a => key a == key l[i]) = some i := by
  rw [List.findFinIdx?_eq_some_iff]
  -- An earlier element of this key would have the same place.
  refine ⟨beq_self_eq_true _, fun j hj hkey => ?_⟩
  have hlt : j.val < l.length := Nat.lt_trans hj i.2
  have hsame : (l.map key)[j.val]? = (l.map key)[i.val]? := by
    rw [List.getElem?_map, List.getElem?_map, List.getElem?_eq_getElem hlt,
      List.getElem?_eq_getElem i.2]
    exact congrArg some (beq_iff_eq.1 hkey)
  have heq := (List.getElem?_inj (by simp [hlt]) h).1 hsame
  exact Nat.ne_of_lt hj heq

/-! ### Lineages -/

namespace Block

/-- A block is the first of its own lineage. What stands behind it is the lineage of
the base, if there is one. -/
theorem lineage_eq_cons (block : Block) : ∃ ancestors, block.lineage = block :: ancestors := by
  fun_cases lineage block with
  | case1 => exact ⟨[], rfl⟩
  | case2 => exact ⟨_, rfl⟩

/-- A block is in its own lineage, so that it counts as one of those it inherits from. -/
theorem mem_lineage_self (block : Block) : block ∈ block.lineage := by
  obtain ⟨ancestors, hlineage⟩ := block.lineage_eq_cons
  rw [hlineage]
  exact List.mem_cons_self

/-- All that a block extends, a block in its lineage extends no less. The induction is
on the lineage of the outer block. -/
theorem mem_lineage_trans {block ancestor other : Block} (h : ancestor ∈ block.lineage)
    (hother : other ∈ ancestor.lineage) : other ∈ block.lineage := by
  fun_induction lineage block with
  | case1 =>
    cases List.mem_singleton.1 h
    exact hother
  | case2 id name identifier base references root others ih =>
    rcases List.mem_cons.1 h with rfl | h
    · exact hother
    · exact List.mem_cons_of_mem _ (ih h)

/-- The objects of a block are of this block. It lists none that it inherits.
Inherited objects are found by lookups, which go through the lineage. -/
theorem block_of_mem_objects {block : Block} {object : Object} (h : object ∈ block.objects) :
    object.block = block := by
  obtain ⟨ref, href, hobject⟩ := List.mem_flatMap.1 h
  obtain ⟨index, -, rfl⟩ := List.mem_map.1 href
  rcases List.mem_cons.1 hobject with rfl | hobject
  · rfl
  · obtain ⟨state, hstate, rfl⟩ := List.mem_map.1 hobject
    obtain ⟨place, -, rfl⟩ := List.mem_map.1 hstate
    rfl

/-! ### Own classes and states -/

variable {block : Block}

/-- A class of its own that a block finds is of this block and has the name. The
reference tells nothing else, as the data of the class come from its block. -/
theorem of_ownClass? {name : String} {ref : ClassRef} (h : block.ownClass? name = some ref) :
    ref.block = block ∧ ref.name = name := by
  obtain ⟨index, hindex, rfl⟩ := Option.map_eq_some_iff.1 h
  have hname := (List.findFinIdx?_eq_some_iff.1 hindex).1
  exact ⟨rfl, beq_iff_eq.1 hname⟩

/-- A class of a block is found by its name among those of the block. That no other class
has its name is what being well named is for here. -/
theorem ownClass?_name (h : block.WellNamed) (index : Fin block.classes.length) :
    block.ownClass? block.classes[index].name = some ⟨block, index⟩ := by
  rw [ownClass?, findFinIdx?_key (nodup_names_iff.1 h.once).1]
  rfl

/-- A class is found by its name in its own block. Blocks that are extended come
later, whatever classes they have. -/
theorem class?_name (h : block.WellNamed) (index : Fin block.classes.length) :
    block.class? block.classes[index].name = some ⟨block, index⟩ := by
  obtain ⟨ancestors, hlineage⟩ := block.lineage_eq_cons
  rw [class?, hlineage, List.findSome?_cons, ownClass?_name h]

/-- A tidy block is well named, since tidiness asks for different names of classes and
of states. -/
theorem Tidy.wellNamed (h : block.Tidy) : block.WellNamed :=
  ⟨h.root, nodup_names_iff.2 ⟨h.names, fun cls hcls => (h.classes cls hcls).labels⟩⟩

end Block

namespace ClassRef

variable {ref : ClassRef}

/-- The data of a class are among those of its block. -/
theorem mem_classes (ref : ClassRef) : ref.data ∈ ref.block.classes :=
  List.getElem_mem _

/-- A state of a class is found by its label among those of the class. As for classes,
no other state of the class has its label. -/
theorem ownState?_label (h : ref.block.WellNamed) (index : Fin ref.data.states.length) :
    ref.ownState? ref.data.states[index].label = some ⟨ref, index⟩ := by
  rw [ownState?, findFinIdx?_key ((Block.nodup_names_iff.1 h.once).2 ref.data ref.mem_classes)]
  rfl

/-- A state is found by its label on its own class. The class is the first of its
namesakes, so the search does not come to others. -/
theorem state?_label (h : ref.block.WellNamed) (index : Fin ref.data.states.length) :
    ref.state? ref.data.states[index].label = some ⟨ref, index⟩ := by
  obtain ⟨ancestors, hlineage⟩ := ref.block.lineage_eq_cons
  have hown : ref.block.ownClass? ref.name = some ref := Block.ownClass?_name h ref.index
  have hnearest : ref.namesakes = ref :: ancestors.filterMap (·.ownClass? ref.name) := by
    rw [namesakes, hlineage, List.filterMap_cons, hown]
  rw [state?, hnearest, List.findSome?_cons, ownState?_label h]

/-- The class that is the root is the root of its block. A class in a block is its
index, and the root is the one that is told by it. -/
theorem eq_rootRef (h : ref.isRoot) : ref = ref.block.rootRef := by
  obtain ⟨block, index, hlt⟩ := ref
  cases beq_iff_eq.1 h
  rfl

end ClassRef

/-! ### Selectors -/

namespace Object

/-- Objects of one block that have the same id are the same object. The id has the
places of the class and of the state, and within one block these determine the object. -/
theorem eq_of_id_eq {a b : Object} (hid : a.id = b.id) (hblock : a.block = b.block) : a = b := by
  rcases a with ⟨block, index⟩ | ⟨⟨block, index⟩, state⟩ <;>
    rcases b with ⟨other, index'⟩ | ⟨⟨other, index'⟩, state'⟩ <;>
    cases hblock <;> simp only [id, ObjectId.mk.injEq, reduceCtorEq, and_false] at hid
  · cases Fin.ext hid.2.1
    rfl
  · cases Fin.ext hid.2.1
    cases Fin.ext (Option.some.inj hid.2.2)
    rfl

/-- The block in the id of an object is that of the object. -/
theorem block_id (object : Object) : object.id.block = object.block.id := by
  rcases object with _ | _ <;> rfl

/-- The name of the class in the selector of an object: it is left out for states of the root. -/
def writtenClass : Object → Option String
  | cls ref => some ref.name
  | state ref => if ref.cls.isRoot then none else some ref.cls.name

/-- The state in the selector of an object. -/
def writtenState : Object → Option StateName
  | cls _ => none
  | state ref => some ref.label

/-- The class and the state of the object have names that are identifiers. -/
abbrev IsLegal (object : Object) : Prop :=
  object.fullName.IsLegal (isIdentifier ·)

/-- The objects of a tidy block have legal names. An object has the name of its class
and, if it is a state, its label; both are checked in a tidy block. -/
theorem isLegal_of_tidy {object : Object} (h : object.block.Tidy) : object.IsLegal := by
  have howner := h.classes object.owner.data object.owner.mem_classes
  cases object with
  | cls ref => exact ⟨howner.name, nofun⟩
  | state ref =>
    refine ⟨howner.name, ?_⟩
    rintro label ⟨⟩
    exact howner.legal ref.data (List.getElem_mem _)

/-- The class in the selector of an object is an identifier if the object is legal.
The root is not written where a state follows, so there is no name to speak of in that
case. -/
theorem isIdentifier_of_writtenClass {object : Object} (h : object.IsLegal) {name : String}
    (hname : object.writtenClass = some name) : isIdentifier name := by
  have hcls := h.cls
  cases object with
  | cls ref =>
    cases hname
    exact hcls
  | state ref =>
    rw [writtenClass] at hname
    split at hname
    · cases hname
    · cases hname
      exact hcls

/-- The state in the selector of an object is legal if the object is. -/
theorem isLegal_of_writtenState {IsClass : String → Prop} {object : Object}
    (h : object.fullName.IsLegal IsClass) {label : StateName}
    (hlabel : object.writtenState = some label) : label.IsLegal := by
  cases object with
  | cls ref => cases hlabel
  | state ref => exact h.state label hlabel

/-- A class as it is written: behind a dot. -/
def classText : Option String → List Char
  | some name => '.' :: name.toList
  | none => []

/-- A state as it is written: between brackets. -/
def stateText : Option StateName → List Char
  | some label => '[' :: (label.content ++ [']'])
  | none => []

/-- The selector of an object is its class and then its state. Either may be missing,
but not both. -/
theorem toList_source (object : Object) :
    object.source.toList = classText object.writtenClass ++ stateText object.writtenState := by
  have hstate : ∀ label : StateName,
      ("[" ++ stateSpace ++ "|"
        ++ (match label.group with | some group => group ++ "=" | none => "")
        ++ label.name ++ "]").toList = stateText (some label) := by
    rintro ⟨group, name⟩
    cases group <;> simp [stateText, StateName.content]
  cases object with
  | cls ref => simp [source, ClassRef.source, writtenClass, writtenState, classText, stateText]
  | state ref =>
    have hlabel := hstate ref.label
    simp only [source, StateRef.source, writtenClass, writtenState]
    split
    · exact hlabel
    · rw [String.toList_append]
      exact congrArg₂ (· ++ ·) (by simp [ClassRef.source, classText]) hlabel

/-- A colon comes into the selector of an object by the name of its class alone. Names
of states are checked, and the characters around them are not colons. -/
theorem colon_mem_source_iff {IsClass : String → Prop} {object : Object}
    (h : object.block.WellNamed) (hlegal : object.fullName.IsLegal IsClass) :
    ':' ∈ object.source.toList ↔ ':' ∈ object.owner.name.toList := by
  have hstate : ':' ∉ stateText object.writtenState := by
    cases hlabel : object.writtenState with
    | none => exact List.not_mem_nil
    | some label =>
      have hcolon : isIdentifierChar ':' = false := by decide
      have hmem := StateName.not_mem_content (isLegal_of_writtenState hlegal hlabel) hcolon
        (by decide) (by decide)
      simp [stateText, hmem]
  have hcls : ∀ name : String, ':' ∈ classText (some name) ↔ ':' ∈ name.toList := by
    simp [classText]
  rw [toList_source, List.mem_append, or_iff_left hstate]
  cases object with
  | cls ref => exact hcls ref.name
  | state ref =>
    rw [writtenClass]
    split
    -- The class that is not written is the root.
    · rename_i hroot
      have hname : ref.cls.name = rootName := by
        rw [ClassRef.eq_rootRef hroot]
        exact h.root
      exact iff_of_false List.not_mem_nil (hname ▸ by decide)
    · exact hcls ref.cls.name

/-- There is no colon in the selector of an object. Ids of objects are written with a
colon between the name of the block and this selector, so they can be cut there. -/
theorem colon_not_mem_source {object : Object} (h : object.block.Tidy) :
    ':' ∉ object.source.toList := by
  have hlegal := isLegal_of_tidy h
  have hname : isIdentifier object.owner.name := (h.classes _ object.owner.mem_classes).name
  rw [colon_mem_source_iff h.wellNamed hlegal]
  exact not_mem_of_isIdentifier hname (by decide)

/-- The selector of an object asks for its class and its state. Four cases, of which
that without both does not occur. -/
theorem ofSelector?_source {object : Object} (h : object.IsLegal) :
    Sought.ofSelector? object.source.toList
      = some ⟨object.writtenClass, object.writtenState⟩ := by
  have hcls : ∀ name, object.writtenClass = some name → isIdentifier name :=
    fun _ => isIdentifier_of_writtenClass h
  have hstate : ∀ label, object.writtenState = some label → label.IsLegal :=
    fun _ => isLegal_of_writtenState h
  rw [toList_source]
  cases hname : object.writtenClass with
  | none =>
    cases hlabel : object.writtenState with
    -- Every object has a class or a state to be written by.
    | none => cases object <;> simp [writtenClass, writtenState] at hname hlabel
    | some label => exact Sought.ofSelector?_state (hstate label hlabel)
  | some name =>
    cases hlabel : object.writtenState with
    | none =>
      rw [stateText, List.append_nil]
      exact Sought.ofSelector?_cls (hcls name hname)
    | some label => exact Sought.ofSelector?_clsState (hcls name hname) (hstate label hlabel)

end Object

/-- In its own block, an object is what its selector means, if its names are
identifiers. The block must be well named, or else another object of the name could
come first. -/
theorem Block.findObject?_source_of_isLegal {object : Object} (h : object.block.WellNamed)
    (hlegal : object.IsLegal) :
    object.block.findObject? object.source.toList = some object := by
  rw [findObject?, Object.ofSelector?_source hlegal, Option.bind_some]
  cases object with
  | cls ref =>
    have hcls : ref.block.class? ref.name = some ref := class?_name h ref.index
    simp only [Object.writtenClass, Object.writtenState, sought?, Object.block, Object.owner, hcls]
  | state ref =>
    have hcls : ref.cls.block.class? ref.cls.name = some ref.cls := class?_name h ref.cls.index
    have hstate : ref.cls.state? ref.label = some ref := ClassRef.state?_label h ref.index
    simp only [Object.writtenClass, Object.writtenState, sought?, Object.block, Object.owner]
    by_cases hroot : ref.cls.isRoot
    -- A state without a class is sought on the root, which is where it is.
    · rw [if_pos hroot]
      dsimp only
      rw [← ClassRef.eq_rootRef hroot, hstate]
      rfl
    · rw [if_neg hroot]
      dsimp only
      rw [hcls]
      dsimp only
      rw [hstate]
      rfl

/-- In its own block, if it is tidy, an object is what its selector means. This is the
half of the round trip that the written document of an analysis rests on. -/
theorem Block.findObject?_source {object : Object} (h : object.block.Tidy) :
    object.block.findObject? object.source.toList = some object :=
  findObject?_source_of_isLegal h.wellNamed (Object.isLegal_of_tidy h)

/-! ### Where objects are found -/

/-- What a class has or inherits, it has from a block in the lineage of its own. It is
the class of the same name there that has it. -/
theorem ClassRef.block_mem_of_state? {ref : ClassRef} {label : StateName} {state : StateRef}
    (h : ref.state? label = some state) : state.block ∈ ref.block.lineage := by
  obtain ⟨namesake, hnamesake, hstate⟩ := List.exists_of_findSome?_eq_some h
  obtain ⟨ancestor, hancestor, hown⟩ := List.mem_filterMap.1 hnamesake
  obtain ⟨index, -, rfl⟩ := Option.map_eq_some_iff.1 hstate
  obtain ⟨rfl, -⟩ := Block.of_ownClass? hown
  exact hancestor

/-- A class that a block has or inherits comes from a block in its lineage. So what a
block finds is never of a block that it does not extend. -/
theorem Block.block_mem_of_class? {block : Block} {name : String} {ref : ClassRef}
    (h : block.class? name = some ref) : ref.block ∈ block.lineage := by
  obtain ⟨ancestor, hancestor, hown⟩ := List.exists_of_findSome?_eq_some h
  obtain ⟨rfl, -⟩ := of_ownClass? hown
  exact hancestor

/-- What is found by a selector is the block's own or comes from a block in its
lineage. A state may come from further back than the class on which it is sought. -/
theorem Block.block_mem_of_findObject? {block : Block} {selector : List Char} {object : Object}
    (h : block.findObject? selector = some object) : object.block ∈ block.lineage := by
  obtain ⟨sought, -, h⟩ := Option.bind_eq_some_iff.1 h
  -- With or without a class in the selector, the search for the state begins in the
  -- lineage.
  have hcls : ∀ ref, (match sought.cls with
      | some name => block.class? name
      | none => some block.rootRef) = some ref → ref.block ∈ block.lineage := by
    intro ref href
    split at href
    · exact block_mem_of_class? href
    · cases href
      exact block.mem_lineage_self
  unfold sought? at h
  dsimp only at h
  split at h
  · cases h
  · rename_i ref href _
    cases h
    exact hcls ref href
  · rename_i ref label href _
    obtain ⟨state, hstate, rfl⟩ := Option.map_eq_some_iff.1 h
    exact mem_lineage_trans (hcls ref href) (ClassRef.block_mem_of_state? hstate)

end BlockStyles
