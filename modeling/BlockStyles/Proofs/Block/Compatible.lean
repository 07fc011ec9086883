import BlockStyles.Proofs.Block.Styles

/-!
# `BlockStyles.Proofs.Block.Compatible`: objects that one block can have

An object is checked against those that are there when it is declared: the name of a class
against the states of the root, those of a state of the root against the classes, and a state
against the other states of its class. What is checked is whether two objects go together, and
this does not depend on which of them comes first.

* `ObjectName.Compatible`: what it is for two objects to go together; `Compatible.symm` says that
  their order plays no part.
* `Block.declareState_eq_ok_iff`: what the code checks for a state once its class is there.
* `Block.Coherent.declare_eq_ok_iff`: an object is accepted if it goes together with itself and with
  all that is there.
* `Block.Coherent.withObject`: then all objects still go together.
-/

set_option autoImplicit false

namespace BlockStyles

/-! ### Two objects -/

/-- One of two states is boolean, and the other one is of a group of that name. -/
def StateName.Mixes (label other : StateName) : Prop :=
  label.group = none ∧ other.group = some label.name
    ∨ other.group = none ∧ label.group = some other.name

/-- Mixing is the same from both sides. The definition says so by its two cases, which
are each other's mirror image. -/
theorem StateName.Mixes.symm {label other : StateName} (h : label.Mixes other) :
    other.Mixes label :=
  Or.symm h

/-- No state mixes with itself, since it cannot be boolean and in a group. -/
theorem StateName.not_mixes_self (label : StateName) : ¬ label.Mixes label := by
  rintro (⟨hnone, hsome⟩ | ⟨hnone, hsome⟩) <;> rw [hnone] at hsome <;> cases hsome

namespace ObjectName

/-- The object is a state of the root, and the name is its own or that of its group. -/
def Takes (object : ObjectName) (name : String) : Prop :=
  object.cls = rootName ∧ ∃ label, object.state = some label ∧ name ∈ Block.namesOf label

/-- Two objects can be in one block: neither is a state of the root that takes the name of the
other one's class, and on one class they do not mix a boolean state with a group. -/
structure Compatible (object other : ObjectName) : Prop where
  ahead : ¬ object.Takes other.cls
  behind : ¬ other.Takes object.cls
  unmixed : object.cls = other.cls → ∀ label label', object.state = some label →
    other.state = some label' → ¬ label.Mixes label'

variable {object other : ObjectName}

/-- Whether two objects go together does not depend on which of them comes first. This
is what makes the order of rules irrelevant in the end. -/
theorem Compatible.symm (h : object.Compatible other) : other.Compatible object where
  ahead := h.behind
  behind := h.ahead
  unmixed hcls label label' hlabel hlabel' hmixes :=
    h.unmixed hcls.symm label' label hlabel' hlabel hmixes.symm

/-- A class takes no name. Only states of the root do, as they can be spoken of like
classes. -/
theorem not_takes_cls (cls name : String) : ¬ Takes ⟨cls, none⟩ name := by
  rintro ⟨-, label, hlabel, -⟩
  cases hlabel

/-- An object goes together with a class unless it takes its name. The other
conditions are about states. -/
theorem compatible_cls_iff {cls : String} :
    object.Compatible ⟨cls, none⟩ ↔ ¬ object.Takes cls :=
  ⟨fun h => h.ahead, fun h => ⟨h, not_takes_cls cls _, nofun⟩⟩

/-- What goes together with an object goes together with its class. So it is enough to
compare with the objects that are declared, and not with the classes that come with
them. -/
theorem Compatible.cls (h : object.Compatible other) : object.Compatible ⟨other.cls, none⟩ :=
  compatible_cls_iff.2 h.ahead

/-- An object that goes together with itself goes together with the root. If it took
the name of the root it would be a state of it, and so take the name of its own class. -/
theorem Compatible.root (h : object.Compatible object) : object.Compatible ⟨rootName, none⟩ :=
  compatible_cls_iff.2 fun htakes => h.ahead (htakes.1 ▸ htakes)

/-- Only to take the name of its own class can keep an object from going together with
itself. -/
theorem compatible_self_iff : object.Compatible object ↔ ¬ object.Takes object.cls := by
  refine ⟨fun h => h.ahead, fun h => ⟨h, h, fun _ label label' hlabel hlabel' => ?_⟩⟩
  cases hlabel.symm.trans hlabel'
  exact label.not_mixes_self

/-- What goes together with a state of a class: three conditions, each of which is one
of the checks that are made when the state is declared. -/
theorem compatible_state_iff {cls : String} {label : StateName} :
    other.Compatible ⟨cls, some label⟩ ↔ ¬ other.Takes cls ∧ ¬ Takes ⟨cls, some label⟩ other.cls
      ∧ ∀ label', other = ⟨cls, some label'⟩ → ¬ label'.Mixes label := by
  constructor
  · intro h
    refine ⟨h.ahead, h.behind, fun label' hlabel' => ?_⟩
    subst hlabel'
    exact h.unmixed rfl label' label rfl rfl
  · rintro ⟨hahead, hbehind, hunmixed⟩
    refine ⟨hahead, hbehind, fun hcls label' label'' hlabel' hlabel'' => ?_⟩
    cases hlabel''
    exact hunmixed label' (congrArg₂ mk hcls hlabel')

end ObjectName

/-! ### What is checked -/

namespace ClassData

/-- The check for states that mix, as a statement about labels. A boolean state is
compared with groups and a state of a group with boolean ones, so there are two cases. -/
theorem clashes_iff {cls : ClassData} {label : StateName} :
    cls.clashes label ↔ ∃ other, cls.hasState other ∧ other.Mixes label := by
  obtain ⟨group, name⟩ := label
  cases group with
  | none => simp [clashes, hasState, StateName.Mixes]
  | some group =>
    simp only [clashes, hasState, StateName.Mixes, List.any_eq_true, beq_iff_eq]
    constructor
    · rintro ⟨state, hstate, hlabel⟩
      exact ⟨_, ⟨state, hstate, hlabel⟩, .inl ⟨rfl, rfl⟩⟩
    · rintro ⟨other, ⟨state, hstate, rfl⟩, ⟨hnone, hsome⟩ | ⟨hnone, -⟩⟩
      · refine ⟨state, hstate, ?_⟩
        cases hlabel : state.label
        simp_all
      · cases hnone

/-- A class speaks of a name if one of its states has it, as its own or as that of its
group. -/
theorem speaksOf_iff {cls : ClassData} {name : String} :
    cls.speaksOf name ↔ ∃ label, cls.hasState label ∧ name ∈ Block.namesOf label := by
  simp [speaksOf, hasState, Block.namesOf, @eq_comm _ name]

end ClassData

namespace Block

variable {block block' : Block} {object : ObjectName}

/-- The class of an object is there too. Nothing else is said about the objects of a
block here; it holds by how names are listed. -/
theorem cls_mem_names (h : object ∈ block.names) : ⟨object.cls, none⟩ ∈ block.names := by
  obtain ⟨cls, hcls, hname, -⟩ := mem_names_iff.1 h
  exact mem_names_iff.2 ⟨cls, hcls, hname, nofun⟩

/-- The root speaks of the names that objects take. This ties the check of the code,
which looks at the first class, to the objects of the block. -/
theorem WellNamed.speaksOf_iff (h : block.WellNamed) {name : String} :
    block.root.speaksOf name ↔ ∃ other ∈ block.names, other.Takes name := by
  rw [ClassData.speaksOf_iff]
  constructor
  · rintro ⟨label, hstate, hname⟩
    have hin := state_mem_names_iff.2 ⟨block.root, List.mem_cons_self, h.root, hstate⟩
    exact ⟨_, hin, rfl, label, rfl, hname⟩
  · rintro ⟨⟨cls, state⟩, hin, rfl, label, rfl, hname⟩
    obtain ⟨data, hdata, hroot, hstate⟩ := state_mem_names_iff.1 hin
    exact ⟨label, h.eq_root hdata hroot ▸ hstate, hname⟩

/-- All objects have names of their own and go together. -/
structure Coherent (block : Block) : Prop extends block.WellNamed where
  compatible : ∀ object ∈ block.names, ∀ other ∈ block.names, object.Compatible other

/-- Whether a block is coherent is a matter of the names of its objects. Changes of
style keep it. -/
theorem Coherent.of_names (h : block.Coherent) (hroot : block'.root.name = block.root.name)
    (hnames : block'.names = block.names) : block'.Coherent := by
  refine ⟨⟨hroot.trans h.root, ?_⟩, ?_⟩ <;> rw [hnames]
  · exact h.once
  · exact h.compatible

/-- A block with nothing but its root is coherent: the root takes no name. A draft
begins with such a block, and each object that is declared keeps it coherent. -/
theorem coherent_bare (id : Nat) (name identifier : String) (references : List (String × Block)) :
    (bare id name identifier references).Coherent where
  toWellNamed := wellNamed_bare id name identifier references
  compatible object hobject other hother := by
    cases List.mem_singleton.1 hobject
    cases List.mem_singleton.1 hother
    exact ObjectName.compatible_cls_iff.2 (ObjectName.not_takes_cls _ _)

/-- No object that is there takes the name of a class, if the class is the root or if
the root does not speak of it. For the root nothing has to be checked, as the objects
go together with it. -/
theorem Coherent.not_takes_iff (h : block.Coherent) {name : String} :
    ¬ (name ≠ rootName ∧ block.root.speaksOf name) ↔ ∀ other ∈ block.names, ¬ other.Takes name := by
  rw [h.speaksOf_iff]
  constructor
  · intro hfree other hother htakes
    refine hfree ⟨?_, other, hother, htakes⟩
    rintro rfl
    exact (h.compatible other hother _ h.root_mem_names).ahead htakes
  · rintro hfree ⟨-, other, hother, htakes⟩
    exact hfree other hother htakes

/-- No name of a state of the root is that of a class, once the class of the state is
there. The two parts of the right side are the classes that were there and the one
that has just come. -/
theorem find?_hasClass_eq_none_iff {cls : String} {label : StateName} :
    (if cls = rootName then (namesOf label).find? (block.withClass cls).hasClass else none) = none
      ↔ (∀ other ∈ block.names, ¬ ObjectName.Takes ⟨cls, some label⟩ other.cls)
        ∧ ¬ ObjectName.Takes ⟨cls, some label⟩ cls := by
  have htakes : ∀ name, ObjectName.Takes ⟨cls, some label⟩ name
      ↔ cls = rootName ∧ name ∈ namesOf label := by simp [ObjectName.Takes]
  have hclass : ∀ name, (block.withClass cls).hasClass name
      ↔ ⟨name, none⟩ ∈ block.names ∨ name = cls := by
    intro name
    rw [hasClass_iff, mem_names_withClass]
    simp
  simp only [htakes]
  split
  -- The class is the root, whose states are compared with all classes, the new one included.
  · rename_i hroot
    subst hroot
    simp only [List.find?_eq_none, hclass, true_and, not_or]
    constructor
    · intro hfree
      exact ⟨fun other hother hname => (hfree _ hname).1 (cls_mem_names hother),
        fun hname => (hfree _ hname).2 rfl⟩
    · rintro ⟨hothers, hself⟩ name hname
      exact ⟨fun hin => hothers _ hin hname, fun heq => hself (heq ▸ hname)⟩
  · rename_i hroot
    simp [hroot]

/-- The classes of one name have no state that does not go together with a new one.
That the class has been added first does not matter, since it comes without states. -/
theorem any_clashes_iff {cls : String} {label : StateName} :
    (block.withClass cls).classes.any (fun data => data.name == cls && data.clashes label)
      ↔ ∃ other, ⟨cls, some other⟩ ∈ block.names ∧ other.Mixes label := by
  have hsame : ∀ other, ⟨cls, some other⟩ ∈ (block.withClass cls).names
      ↔ ⟨cls, some other⟩ ∈ block.names := by simp [mem_names_withClass]
  simp only [← hsame, state_mem_names_iff, List.any_eq_true, Bool.and_eq_true, beq_iff_eq,
    ClassData.clashes_iff]
  constructor
  · rintro ⟨data, hdata, hname, other, hstate, hmixes⟩
    exact ⟨other, ⟨data, hdata, hname, hstate⟩, hmixes⟩
  · rintro ⟨other, ⟨data, hdata, hname, hstate⟩, hmixes⟩
    exact ⟨data, hdata, hname, other, hstate, hmixes⟩

/-- What is checked for a state once its class is there: that no class has one of its
names, and that it does not mix with the others. Otherwise it is added. -/
theorem declareState_eq_ok_iff {cls : String} {label : StateName} :
    block.declareState cls label = .ok block'
      ↔ ((if cls = rootName then (namesOf label).find? block.hasClass else none) = none
          ∧ ¬ block.classes.any (fun data => data.name == cls && data.clashes label))
        ∧ block.changeClass cls (·.withState label) = block' := by
  unfold declareState
  split
  -- A class has one of the names of the state. This is looked for first.
  · rename_i name hname
    constructor
    · intro h
      cases h
    · rintro ⟨⟨hnone, -⟩, -⟩
      rw [hnone] at hname
      cases hname
  · rename_i hnone
    split
    -- The class has states that do not mix with this one.
    · rename_i hclash
      constructor
      · intro h
        cases h
      · rintro ⟨⟨-, hapart⟩, -⟩
        exact absurd hclash hapart
    · rename_i hapart
      rw [Except.ok.injEq, and_iff_right ⟨hnone, hapart⟩]

/-- What goes together with a state of a class that nothing takes the name of. It puts
the conditions of all pairs together in the form in which the code checks them. -/
theorem forall_compatible_state_iff {cls : String} {label : StateName}
    (hfree : ∀ other ∈ block.names, ¬ other.Takes cls) :
    ((∀ other ∈ block.names, other.Compatible ⟨cls, some label⟩)
        ∧ ObjectName.Compatible ⟨cls, some label⟩ ⟨cls, some label⟩)
      ↔ ((∀ other ∈ block.names, ¬ ObjectName.Takes ⟨cls, some label⟩ other.cls)
          ∧ ¬ ObjectName.Takes ⟨cls, some label⟩ cls)
        ∧ ¬ ∃ other, ⟨cls, some other⟩ ∈ block.names ∧ other.Mixes label := by
  rw [ObjectName.compatible_self_iff]
  simp only [ObjectName.compatible_state_iff]
  constructor
  · rintro ⟨hall, hself⟩
    refine ⟨⟨fun other hother => (hall other hother).2.1, hself⟩, ?_⟩
    rintro ⟨other, hother, hmixes⟩
    exact (hall _ hother).2.2 other rfl hmixes
  · rintro ⟨⟨hothers, hself⟩, hunmixed⟩
    refine ⟨fun other hother => ⟨hfree other hother, hothers other hother, ?_⟩, hself⟩
    rintro label' rfl hmixes
    exact hunmixed ⟨label', hother, hmixes⟩

/-- An object is accepted if it goes together with itself and with all objects that
are there. So the checks of the code, which differ for classes and states, amount to
one symmetric condition. -/
theorem Coherent.declare_eq_ok_iff (h : block.Coherent) :
    block.declare object = .ok block'
      ↔ ((∀ other ∈ block.names, other.Compatible object) ∧ object.Compatible object)
        ∧ block.withObject object = block' := by
  obtain ⟨cls, state⟩ := object
  unfold declare
  split
  · rename_i htaken
    constructor
    · intro hok
      cases hok
    · rintro ⟨⟨hall, -⟩, -⟩
      exact absurd htaken (h.not_takes_iff.2 fun other hother => (hall other hother).ahead)
  · rename_i hfree
    -- From here on no object of the block takes the name of the class.
    rw [h.not_takes_iff] at hfree
    cases state with
    | none =>
      simp only [withObject, ObjectName.compatible_cls_iff, Except.ok.injEq]
      exact (and_iff_right ⟨hfree, ObjectName.not_takes_cls _ _⟩).symm
    | some label =>
      rw [forall_compatible_state_iff hfree, ← find?_hasClass_eq_none_iff, ← any_clashes_iff]
      exact declareState_eq_ok_iff

/-- What is accepted leaves all objects going together. Of a pair of objects each may
be old, the new object or its class, which makes nine cases. -/
theorem Coherent.withObject (h : block.Coherent)
    (hall : ∀ other ∈ block.names, other.Compatible object) (hself : object.Compatible object) :
    (block.withObject object).Coherent := by
  -- The class comes along with its state, and goes together with itself like any class.
  have hcls : ObjectName.Compatible ⟨object.cls, none⟩ ⟨object.cls, none⟩ :=
    ObjectName.compatible_cls_iff.2 (ObjectName.not_takes_cls _ _)
  refine ⟨h.toWellNamed.withObject object, fun first hfirst second hsecond => ?_⟩
  rw [mem_names_withObject h.toWellNamed] at hfirst hsecond
  rcases hfirst with hfirst | rfl | rfl <;> rcases hsecond with hsecond | rfl | rfl
  · exact h.compatible first hfirst second hsecond
  · exact hall first hfirst
  · exact (hall first hfirst).cls
  · exact (hall second hsecond).symm
  · exact hself
  · exact hself.cls
  · exact (hall second hsecond).cls.symm
  · exact hself.cls.symm
  · exact hcls

end Block

end BlockStyles
