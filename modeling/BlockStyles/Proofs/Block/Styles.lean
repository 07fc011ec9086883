import BlockStyles.Block.Declare
import BlockStyles.Block.Object
import Mathlib.Data.List.FinRange
import Mathlib.Data.List.Nodup

/-!
# `BlockStyles.Proofs.Block.Styles`: a block as a list of named styles

A block keeps its states inside its classes. `Block.styles` lists the same data flat:
each object under its name, with its style. What building does to a block is simple
to say about this list. A new object is one more entry, with an empty style, and a
change of style is a change at one name.

* `Block.map_objects`: the entries are the objects of the block.
* `Block.nodup_names_iff`: all names are different if those of the classes are, and on
  each class those of the states.
* `Block.WellNamed`: the first class is the root, and no name occurs twice. Every step of
  building keeps this, and with it an object is determined by its name.
* `Block.styles_restyle`: what is there once the style of an object has been changed.
* `Block.mem_styles_withObject`: what is there once an object has been added.
-/

set_option autoImplicit false

namespace BlockStyles

/-! ### Entries -/

/-- The name of an object in its block. -/
def Object.fullName : Object → ObjectName
  | cls ref => ⟨ref.name, none⟩
  | state ref => ⟨ref.cls.name, some ref.label⟩

/-- An entry after a change of style at one name. -/
def restyled (object : ObjectName) (change : Style → Style) (entry : ObjectName × Style) :
    ObjectName × Style :=
  (entry.1, if entry.1 = object then change entry.2 else entry.2)

namespace ClassData

/-- The class and its states, each under its name in the block. -/
def styles (cls : ClassData) : List (ObjectName × Style) :=
  (⟨cls.name, none⟩, cls.style)
    :: cls.states.map fun state => (⟨cls.name, some state.label⟩, state.style)

/-- A class has the state of every entry but the first, which is the entry of the class
itself. Whether a name is there does not depend on styles. -/
theorem mem_map_styles_iff {cls : ClassData} {object : ObjectName} :
    object ∈ cls.styles.map Prod.fst
      ↔ cls.name = object.cls ∧ ∀ label, object.state = some label → cls.hasState label := by
  obtain ⟨name, state⟩ := object
  cases state with
  | none => simp [styles, @eq_comm _ name]
  | some label =>
    simp only [styles, hasState, List.map_cons, List.map_map, List.mem_cons, List.mem_map,
      Function.comp_apply, ObjectName.mk.injEq, Option.some.injEq, List.any_eq_true, beq_iff_eq]
    constructor
    · rintro (⟨-, h⟩ | ⟨state, hstate, hname, hlabel⟩)
      · cases h
      · exact ⟨hname, fun _ h => ⟨state, hstate, hlabel.trans h⟩⟩
    · rintro ⟨hname, h⟩
      obtain ⟨state, hstate, hlabel⟩ := h label rfl
      exact .inr ⟨state, hstate, hname, hlabel⟩

/-- All entries of a class have different names if its states have. The entry of the class
cannot be among those of its states, as it has no label. -/
theorem nodup_map_styles_iff {cls : ClassData} :
    (cls.styles.map Prod.fst).Nodup ↔ (cls.states.map StateData.label).Nodup := by
  have hnames : cls.styles.map Prod.fst
      = ⟨cls.name, none⟩ :: (cls.states.map StateData.label).map fun label =>
        ⟨cls.name, some label⟩ := by
    simp [styles]
  rw [hnames, List.nodup_cons]
  constructor
  · exact fun h => h.2.of_map
  · exact fun h => ⟨by simp, h.map fun label label' heq => by cases heq; rfl⟩

/-- Entries of two classes have a name in common as soon as the classes have one name.
Then the entries of the classes themselves coincide, whatever states they have. -/
theorem disjoint_map_styles_iff {cls cls' : ClassData} :
    List.Disjoint (cls.styles.map Prod.fst) (cls'.styles.map Prod.fst)
      ↔ cls.name ≠ cls'.name := by
  constructor
  · intro h hname
    refine h (a := ⟨cls.name, none⟩) (mem_map_styles_iff.2 ⟨rfl, nofun⟩) ?_
    exact mem_map_styles_iff.2 ⟨hname.symm, nofun⟩
  · intro hname object hin hin'
    have hcls := (mem_map_styles_iff.1 hin).1
    have hcls' := (mem_map_styles_iff.1 hin').1
    exact hname (hcls.trans hcls'.symm)

/-- A change of style in the class of the object is a change at its name among the
entries. It may be the class itself or one of its states that changes. -/
theorem styles_restyle {cls : ClassData} {object : ObjectName} (change : Style → Style)
    (h : cls.name = object.cls) :
    (cls.restyle change object.state).styles = cls.styles.map (restyled object change) := by
  obtain ⟨name, state⟩ := object
  cases h
  cases state with
  | none => simp [styles, restyle, restyled, Function.comp_def]
  | some label =>
    simp only [styles, restyle, List.map_cons, List.map_map]
    refine congrArg₂ List.cons (by simp [restyled]) (List.map_congr_left fun state _ => ?_)
    by_cases hlabel : state.label = label
    · simp [restyled, hlabel]
    · simp [restyled, hlabel]

/-- A change of style at a name of another class leaves the entries of a class alone.
Entries are told by the names of their objects, which begin with that of the class. -/
theorem map_restyled_of_ne {cls : ClassData} {object : ObjectName} (change : Style → Style)
    (h : cls.name ≠ object.cls) : cls.styles.map (restyled object change) = cls.styles := by
  refine (List.map_congr_left fun entry hentry => ?_).trans (List.map_id _)
  have hname := (mem_map_styles_iff.1 (List.mem_map_of_mem hentry)).1
  have hne : entry.1 ≠ object := fun heq => h (heq ▸ hname)
  rw [restyled, if_neg hne]
  rfl

end ClassData

namespace Block

/-- The objects of the block by their names, each with its style. -/
def styles (block : Block) : List (ObjectName × Style) :=
  block.classes.flatMap ClassData.styles

/-- The names of the objects of the block. -/
def names (block : Block) : List ObjectName :=
  block.styles.map Prod.fst

/-- The entries of a block are its objects. Objects are addressed by indices and
entries by names, so the two lists are brought together class by class. -/
theorem map_objects (block : Block) :
    block.objects.map (fun object => (object.fullName, object.style)) = block.styles := by
  -- The states of a class, by their indices and in the list.
  have hstates : ∀ ref : ClassRef,
      ref.states.map (fun state => (Object.fullName (.state state), Object.style (.state state)))
        = ref.data.states.map fun state => (⟨ref.name, some state.label⟩, state.style) := by
    intro ref
    have hall : List.ofFn (fun i : Fin ref.data.states.length => ref.data.states[i])
        = ref.data.states := List.ofFn_getElem
    rw [ClassRef.states, List.map_map, ← List.ofFn_eq_map]
    conv_rhs => rw [← hall, List.map_ofFn]
    rfl
  -- The classes of the block, by their indices and in the list.
  have hclasses : block.classRefs.map ClassRef.data = block.classes := by
    rw [classRefs, List.map_map, ← List.ofFn_eq_map]
    exact List.ofFn_getElem
  rw [styles, ← hclasses, List.flatMap_map, objects, List.map_flatMap]
  refine congrArg (List.flatMap · block.classRefs) (funext fun ref => ?_)
  rw [List.map_cons, List.map_map]
  exact congrArg (_ :: ·) (hstates ref)

/-- The entry of an object, by which objects of two blocks can be compared. An object
as such belongs to its block and can be compared with none of another. -/
theorem mem_styles_of_mem_objects {block : Block} {object : Object} (h : object ∈ block.objects) :
    (object.fullName, object.style) ∈ block.styles :=
  block.map_objects ▸ List.mem_map_of_mem h

/-- A name is that of a class, or of a state that one of the classes has. A name with
a state counts only where its class has the state, so both parts are asked of one class. -/
theorem mem_names_iff {block : Block} {object : ObjectName} :
    object ∈ block.names ↔ ∃ cls ∈ block.classes, cls.name = object.cls
      ∧ ∀ label, object.state = some label → cls.hasState label := by
  rw [names, styles, List.map_flatMap, List.mem_flatMap]
  exact exists_congr fun cls => and_congr_right fun _ => ClassData.mem_map_styles_iff

/-- A class is there under its own name. Tests of the model for classes become
statements on names. -/
theorem hasClass_iff {block : Block} {name : String} :
    block.hasClass name ↔ ⟨name, none⟩ ∈ block.names := by
  simp [hasClass, mem_names_iff]

/-- The names of the classes are those names of objects that have no state. This is
how what is known of objects by their names is turned into statements about classes. -/
theorem mem_classNames_iff {block : Block} {name : String} :
    name ∈ block.classes.map ClassData.name ↔ ⟨name, none⟩ ∈ block.names := by
  simp [mem_names_iff]

/-- A state is there if some class of its name has it. Which class that is becomes
clear once the block is known to be well named. -/
theorem state_mem_names_iff {block : Block} {cls : String} {label : StateName} :
    ⟨cls, some label⟩ ∈ block.names
      ↔ ∃ data ∈ block.classes, data.name = cls ∧ data.hasState label := by
  simp [mem_names_iff]

/-- All objects have different names if all classes have, and all states of each class.
So that no name comes twice can be kept class by class. -/
theorem nodup_names_iff {block : Block} :
    block.names.Nodup ↔ (block.classes.map ClassData.name).Nodup
      ∧ ∀ cls ∈ block.classes, (cls.states.map StateData.label).Nodup := by
  rw [names, styles, List.map_flatMap, List.nodup_flatMap, and_comm]
  refine and_congr ?_ (forall₂_congr fun cls _ => ClassData.nodup_map_styles_iff)
  exact (List.Pairwise.iff fun cls cls' => ClassData.disjoint_map_styles_iff).trans
    List.pairwise_map.symm

/-! ### Changes of style -/

/-- A change of style in a block is a change at one name among its entries. No entry
comes or goes, and the order stays. -/
theorem styles_restyle (block : Block) (object : ObjectName) (change : Style → Style) :
    (block.restyle object change).styles = block.styles.map (restyled object change) := by
  rw [restyle, styles, classes_changeClass, List.flatMap_map, styles, List.map_flatMap]
  refine congrArg (List.flatMap · block.classes) (funext fun cls => ?_)
  by_cases hname : cls.name = object.cls
  · rw [if_pos (beq_iff_eq.2 hname), ClassData.styles_restyle change hname]
  · rw [if_neg (mt beq_iff_eq.1 hname), ClassData.map_restyled_of_ne change hname]

/-- A change of style leaves the name of the root alone. The root is the first class,
not the class of that name, so this is not told by the entries. -/
theorem root_name_restyle (block : Block) (object : ObjectName) (change : Style → Style) :
    (block.restyle object change).root.name = block.root.name := by
  unfold restyle changeClass
  dsimp only
  split
  · cases object.state <;> rfl
  · rfl

/-! ### Names -/

/-- The first class is the root, and no two objects have the same name. -/
structure WellNamed (block : Block) : Prop where
  root : block.root.name = rootName
  once : block.names.Nodup

/-- A block with nothing but its root is well named. The root is called `root`, and is
the only object. -/
theorem wellNamed_bare (id : Nat) (name identifier : String) (references : List (String × Block)) :
    (bare id name identifier references).WellNamed :=
  ⟨rfl, List.nodup_singleton _⟩

namespace WellNamed

variable {block : Block}

/-- The root is an object of every block that is well named. So where all objects of a
block go together, they go together with the root. -/
theorem root_mem_names (h : block.WellNamed) : ⟨rootName, none⟩ ∈ block.names :=
  mem_names_iff.2 ⟨block.root, List.mem_cons_self, h.root, nofun⟩

/-- Two classes of one name are the same class, so one may speak of the class of a
name. -/
theorem eq_of_name (h : block.WellNamed) {cls cls' : ClassData} (hcls : cls ∈ block.classes)
    (hcls' : cls' ∈ block.classes) (hname : cls.name = cls'.name) : cls = cls' :=
  List.inj_on_of_nodup_map (nodup_names_iff.1 h.once).1 hcls hcls' hname

/-- The labels of a class are those under its name. Here it matters that no other class
has the name. -/
theorem mem_labels_iff (h : block.WellNamed) {cls : ClassData} (hcls : cls ∈ block.classes)
    {label : StateName} :
    label ∈ cls.states.map StateData.label ↔ ⟨cls.name, some label⟩ ∈ block.names := by
  simp only [state_mem_names_iff, ClassData.hasState, List.any_eq_true, beq_iff_eq, List.mem_map]
  constructor
  · intro hlabel
    exact ⟨cls, hcls, rfl, hlabel⟩
  · rintro ⟨data, hdata, hname, hlabel⟩
    rwa [h.eq_of_name hcls hdata hname.symm]

/-- The root is the only class of its name. So what is declared for the name is
declared on the root. -/
theorem eq_root (h : block.WellNamed) {cls : ClassData} (hcls : cls ∈ block.classes)
    (hname : cls.name = rootName) : cls = block.root :=
  h.eq_of_name hcls List.mem_cons_self (hname.trans h.root.symm)

end WellNamed

/-! ### More objects -/

/-- The names that are there when entries with new names have been added. It is stated
for lists of pairs, for adding a class and adding an object are two cases of it. -/
theorem mem_map_fst_of_added {α β : Type} {old new : List (α × β)} (Q : α → Prop) {b : β}
    (h : ∀ entry, entry ∈ new
      ↔ entry ∈ old ∨ entry.1 ∉ old.map Prod.fst ∧ entry.2 = b ∧ Q entry.1) {a : α} :
    a ∈ new.map Prod.fst ↔ a ∈ old.map Prod.fst ∨ Q a := by
  constructor
  · intro ha
    obtain ⟨entry, hentry, rfl⟩ := List.mem_map.1 ha
    rcases (h entry).1 hentry with hold | ⟨-, -, hadded⟩
    · exact .inl (List.mem_map_of_mem hold)
    · exact .inr hadded
  · intro ha
    by_cases hold : a ∈ old.map Prod.fst
    · obtain ⟨entry, hentry, rfl⟩ := List.mem_map.1 hold
      exact List.mem_map_of_mem ((h entry).2 (.inl hentry))
    · have hnew := (h (a, b)).2 (.inr ⟨hold, rfl, ha.resolve_left hold⟩)
      exact List.mem_map.2 ⟨(a, b), hnew, rfl⟩

/-- The block with an object: its class, and then the state if there is one. -/
def withObject (block : Block) (object : ObjectName) : Block :=
  match object.state with
  | none => block.withClass object.cls
  | some label => (block.withClass object.cls).changeClass object.cls (·.withState label)

/-- Nothing but the classes change. Id, identifier, references and base are then equal
by definition. -/
theorem exists_withObject_eq (block : Block) (object : ObjectName) :
    ∃ root others, block.withObject object = { block with root, others } := by
  have hclass : ∃ others, block.withClass object.cls = { block with others } := by
    unfold withClass
    split
    · cases block
      exact ⟨_, rfl⟩
    · exact ⟨_, rfl⟩
  obtain ⟨others, hothers⟩ := hclass
  unfold withObject
  rw [hothers]
  split
  · exact ⟨block.root, others, rfl⟩
  · exact ⟨_, _, rfl⟩

/-- A class that is added comes last, with nothing set on it; one that is there is
left alone. -/
theorem styles_withClass (block : Block) (name : String) :
    (block.withClass name).styles
      = if block.hasClass name then block.styles
        else block.styles ++ [(⟨name, none⟩, .empty)] := by
  rw [styles, classes_withClass]
  split
  · rfl
  · rw [List.flatMap_append]
    rfl

/-- A state that is added to a class is one more entry with nothing set on it, if it
is new. -/
theorem mem_styles_withState {cls : ClassData} {label : StateName} {entry : ObjectName × Style} :
    entry ∈ (cls.withState label).styles
      ↔ entry ∈ cls.styles ∨ ¬ cls.hasState label ∧ entry = (⟨cls.name, some label⟩, .empty) := by
  unfold ClassData.withState
  split
  · rename_i hstate
    simp [hstate]
  · rename_i hstate
    simp [hstate, ClassData.styles, or_assoc]

/-- A state that is added to the classes of one name. There is at most one such class
in a block that is well named, but this is not needed here. -/
theorem mem_styles_changeClass_withState {block : Block} {name : String} {label : StateName}
    {entry : ObjectName × Style} :
    entry ∈ (block.changeClass name (·.withState label)).styles
      ↔ entry ∈ block.styles ∨ (∃ cls ∈ block.classes, cls.name = name ∧ ¬ cls.hasState label)
        ∧ entry = (⟨name, some label⟩, .empty) := by
  rw [styles, classes_changeClass, List.flatMap_map]
  simp only [List.mem_flatMap, styles]
  constructor
  · rintro ⟨cls, hcls, hentry⟩
    split at hentry
    · rename_i hname
      -- A class of this name has its old entries, and the new one if it lacks the state.
      rcases mem_styles_withState.1 hentry with hentry | ⟨hnew, rfl⟩
      · exact .inl ⟨cls, hcls, hentry⟩
      · cases beq_iff_eq.1 hname
        exact .inr ⟨⟨cls, hcls, rfl, hnew⟩, rfl⟩
    · exact .inl ⟨cls, hcls, hentry⟩
  · rintro (⟨cls, hcls, hentry⟩ | ⟨⟨cls, hcls, rfl, hnew⟩, rfl⟩)
    · refine ⟨cls, hcls, ?_⟩
      split
      · exact mem_styles_withState.2 (.inl hentry)
      · exact hentry
    · exact ⟨cls, hcls, by simp [mem_styles_withState, hnew]⟩

/-- Adding a class keeps a block well named, since a name that is there is not added.
The root keeps its name, and no two objects come to have one name. -/
theorem WellNamed.withClass {block : Block} (h : block.WellNamed) (name : String) :
    (block.withClass name).WellNamed := by
  refine ⟨?_, ?_⟩
  · rw [← h.root, Block.withClass]
    split <;> rfl
  · rw [names, styles_withClass]
    split
    · exact h.once
    · rename_i hnew
      rw [List.map_append, List.map_singleton, ← List.concat_eq_append, List.nodup_concat]
      exact ⟨fun hin => hnew (hasClass_iff.2 hin), h.once⟩

/-- Adding a state keeps a block well named: the names of the classes stay, and the
labels of each class remain different. -/
theorem WellNamed.changeClass_withState {block : Block} (h : block.WellNamed) (name : String)
    (label : StateName) : (block.changeClass name (·.withState label)).WellNamed := by
  have hname : ∀ cls : ClassData, (cls.withState label).name = cls.name := by
    intro cls
    unfold ClassData.withState
    split <;> rfl
  obtain ⟨hnames, hlabels⟩ := nodup_names_iff.1 h.once
  refine ⟨?_, nodup_names_iff.2 ⟨?_, fun cls hcls => ?_⟩⟩
  · rw [← h.root, changeClass]
    dsimp only
    split
    · exact hname _
    · rfl
  · rw [classes_changeClass, List.map_map]
    refine (List.map_congr_left fun cls _ => ?_ : _ = block.classes.map ClassData.name) ▸ hnames
    rw [Function.comp_apply]
    split
    · exact hname cls
    · rfl
  · rw [classes_changeClass] at hcls
    obtain ⟨before, hbefore, rfl⟩ := List.mem_map.1 hcls
    have hold := hlabels before hbefore
    split
    · unfold ClassData.withState
      split
      · exact hold
      -- The label is added only where it is not there, so none comes to be there twice.
      · rename_i hnew
        rw [List.map_append, List.map_singleton, ← List.concat_eq_append, List.nodup_concat]
        refine ⟨fun hin => hnew ?_, hold⟩
        obtain ⟨state, hstate, heq⟩ := List.mem_map.1 hin
        exact List.any_eq_true.2 ⟨state, hstate, beq_iff_eq.2 heq⟩
    · exact hold

/-- Adding an object keeps a block well named, as it is a class and perhaps a state
that is added. -/
theorem WellNamed.withObject {block : Block} (h : block.WellNamed) (object : ObjectName) :
    (block.withObject object).WellNamed := by
  unfold Block.withObject
  split
  · exact h.withClass object.cls
  · exact (h.withClass object.cls).changeClass_withState object.cls _

/-- What is there once a class has been added: the entries that were there, and one
with nothing set on it if the name is new. -/
theorem mem_styles_withClass {block : Block} {name : String} {entry : ObjectName × Style} :
    entry ∈ (block.withClass name).styles
      ↔ entry ∈ block.styles
        ∨ entry.1 ∉ block.names ∧ entry.2 = .empty ∧ entry.1 = ⟨name, none⟩ := by
  obtain ⟨object, style⟩ := entry
  rw [styles_withClass]
  split
  · rename_i hold
    refine (or_iff_left ?_).symm
    rintro ⟨hnew, -, rfl⟩
    exact hnew (hasClass_iff.1 hold)
  · rename_i hnew
    rw [List.mem_append, List.mem_singleton, Prod.mk.injEq]
    refine or_congr_right ⟨?_, fun h => ⟨h.2.2, h.2.1⟩⟩
    rintro ⟨rfl, rfl⟩
    exact ⟨mt hasClass_iff.2 hnew, rfl, rfl⟩

/-- The names once a class has been added are the old ones and its own. If the class
was there already nothing changes, and its name is one of the old ones. -/
theorem mem_names_withClass {block : Block} {name : String} {object : ObjectName} :
    object ∈ (block.withClass name).names ↔ object ∈ block.names ∨ object = ⟨name, none⟩ :=
  mem_map_fst_of_added (fun added : ObjectName => added = ⟨name, none⟩)
    fun _ => mem_styles_withClass

/-- Once an object has been added, it and its class are there, with nothing set on
them if they are new. Entries that were there keep their styles. -/
theorem mem_styles_withObject {block : Block} (h : block.WellNamed) {object : ObjectName}
    {entry : ObjectName × Style} :
    entry ∈ (block.withObject object).styles
      ↔ entry ∈ block.styles ∨ entry.1 ∉ block.names ∧ entry.2 = .empty
        ∧ (entry.1 = object ∨ entry.1 = ⟨object.cls, none⟩) := by
  obtain ⟨name, state⟩ := object
  cases state with
  | none =>
    refine mem_styles_withClass.trans (or_congr_right ?_)
    rw [or_self]
  | some label =>
    have hclass := h.withClass name
    -- The class is there by now, and it is the only one of its name.
    have hnew : (∃ cls ∈ (block.withClass name).classes, cls.name = name ∧ ¬ cls.hasState label)
        ↔ ⟨name, some label⟩ ∉ block.names := by
      have hsame : ⟨name, some label⟩ ∈ block.names
          ↔ ⟨name, some label⟩ ∈ (block.withClass name).names := by
        simp [mem_names_withClass]
      rw [hsame, mem_names_iff]
      constructor
      · rintro ⟨cls, hcls, hname, hlacks⟩ ⟨cls', hcls', hname', hhas⟩
        rw [hclass.eq_of_name hcls hcls' (hname.trans hname'.symm)] at hlacks
        exact hlacks (hhas label rfl)
      · intro hlacks
        obtain ⟨cls, hcls, hname, -⟩ := mem_names_iff.1 (mem_names_withClass.2 (.inr rfl))
        refine ⟨cls, hcls, hname, fun hhas => hlacks ⟨cls, hcls, hname, ?_⟩⟩
        rintro _ ⟨⟩
        exact hhas
    obtain ⟨other, style⟩ := entry
    refine mem_styles_changeClass_withState.trans ?_
    rw [hnew, mem_styles_withClass, Prod.mk.injEq, or_assoc]
    refine or_congr_right ?_
    constructor
    · rintro (⟨hout, hstyle, hother⟩ | ⟨hout, rfl, hstyle⟩)
      · exact ⟨hout, hstyle, .inr hother⟩
      · exact ⟨hout, hstyle, .inl rfl⟩
    · rintro ⟨hout, hstyle, rfl | hother⟩
      · exact .inr ⟨hout, rfl, hstyle⟩
      · exact .inl ⟨hout, hstyle, hother⟩

/-- The names once an object has been added are the old ones, its own and that of its class. -/
theorem mem_names_withObject {block : Block} (h : block.WellNamed) {object other : ObjectName} :
    other ∈ (block.withObject object).names
      ↔ other ∈ block.names ∨ other = object ∨ other = ⟨object.cls, none⟩ :=
  mem_map_fst_of_added (fun added : ObjectName => added = object ∨ added = ⟨object.cls, none⟩)
    fun _ => mem_styles_withObject h

end Block

end BlockStyles
