import BlockStyles.Proofs.Block.Account

/-!
# `BlockStyles.Proofs.Block.Sequence`: states in the order of their declaration

A class has its states in a list. A new state comes last, and nothing moves afterwards: the
states of a class are in the order in which the rules first name them.

* `Rule.labelsOn`: the states that rules name on a class.
* `Block.labels_of_ofRules`: they are the states of the class, in this order.
-/

set_option autoImplicit false

namespace BlockStyles

/-! ### Labels -/

/-- What the state is called, if the object is a state of a class of this name. -/
def ObjectName.labelOn? (cls : String) (object : ObjectName) : Option StateName :=
  if object.cls = cls then object.state else none

/-- The states that are named on a class, each where it comes first. -/
def ObjectName.labelsOn (objects : List ObjectName) (cls : String) : List StateName :=
  (objects.filterMap (labelOn? cls)).eraseDups

/-- The states that rules name on a class, each where it comes first. -/
def Rule.labelsOn (rules : List Rule) (cls : String) : List StateName :=
  ObjectName.labelsOn (rules.flatMap objects) cls

namespace ObjectName

variable {objects : List ObjectName} {object : ObjectName} {cls : String}

/-- The states that are named on a class are the states of it among the objects.
Repetitions are left out, which does not matter to membership. -/
theorem mem_labelsOn_iff {label : StateName} :
    label ∈ labelsOn objects cls ↔ ⟨cls, some label⟩ ∈ objects := by
  have hlabel : ∀ object, labelOn? cls object = some label ↔ object = ⟨cls, some label⟩ := by
    rintro ⟨name, state⟩
    simp [labelOn?]
  rw [labelsOn, List.mem_eraseDups, List.mem_filterMap]
  simp only [hlabel, exists_eq_right]

/-- What is no state of the class is not among its states, so naming it changes
nothing. -/
theorem labelsOn_concat_of_none (h : object.labelOn? cls = none) :
    labelsOn (objects ++ [object]) cls = labelsOn objects cls := by
  simp [labelsOn, List.filterMap_append, h]

/-- One more state comes last, unless it has been named before. This is how a class
grows, too, and the two are compared step by step. -/
theorem labelsOn_concat_of_some {label : StateName} (h : object.labelOn? cls = some label) :
    labelsOn (objects ++ [object]) cls
      = if label ∈ labelsOn objects cls then labelsOn objects cls
        else labelsOn objects cls ++ [label] := by
  have hsingle : [label].eraseDups = [label] := rfl
  unfold labelsOn
  rw [List.filterMap_append, List.eraseDups_append, List.filterMap_cons_some h,
    List.filterMap_nil]
  generalize objects.filterMap (labelOn? cls) = named
  by_cases hin : label ∈ named <;> simp [List.removeAll, hin, hsingle]

end ObjectName

namespace ClassData

/-- What the states of the class are called. -/
def labels (cls : ClassData) : List StateName :=
  cls.states.map StateData.label

/-- The states of a class after one has been added: it comes last, unless it was
there. -/
theorem labels_withState (cls : ClassData) (label : StateName) :
    (cls.withState label).labels
      = if label ∈ cls.labels then cls.labels else cls.labels ++ [label] := by
  have hstate : cls.hasState label ↔ label ∈ cls.labels := by simp [hasState, labels]
  unfold withState
  by_cases hin : label ∈ cls.labels
  · rw [if_pos (hstate.2 hin), if_pos hin]
  · rw [if_neg (mt hstate.1 hin), if_neg hin, labels, List.map_append]
    rfl

/-- A class and its states, without styles. -/
def outline (cls : ClassData) : String × List StateName :=
  (cls.name, cls.labels)

/-- A change of style leaves a class and its states as they are. The outline is what
the order is about, so applications need no further attention. -/
theorem outline_restyle (change : Style → Style) (label : Option StateName) (cls : ClassData) :
    (cls.restyle change label).outline = cls.outline := by
  cases label with
  | none => rfl
  | some label =>
    refine congrArg (Prod.mk cls.name) ?_
    rw [labels, restyle, List.map_map]
    refine List.map_congr_left fun state _ => ?_
    rw [Function.comp_apply]
    split <;> rfl

end ClassData

/-! ### What building keeps -/

namespace Block

/-- The classes of the block and their states, without styles. -/
def outline (block : Block) : List (String × List StateName) :=
  block.classes.map ClassData.outline

/-- A change of style leaves the classes of a block and their states as they are. Each class
keeps its outline, whether or not it is the one that is changed. -/
theorem outline_restyle (block : Block) (object : ObjectName) (change : Style → Style) :
    (block.restyle object change).outline = block.outline := by
  rw [outline, restyle, classes_changeClass, List.map_map]
  refine List.map_congr_left fun cls _ => ?_
  rw [Function.comp_apply]
  split
  · exact cls.outline_restyle change object.state
  · rfl

/-- The states of each class are in the order in which they have been named. -/
def InSequence (block : Block) (named : List ObjectName) : Prop :=
  ∀ entry ∈ block.outline, entry.2 = ObjectName.labelsOn named entry.1

namespace InSequence

variable {block : Block} {named : List ObjectName}

/-- A new class has no states, and none have been named on it. The hypothesis says
that named objects have their classes already, so that a state could not have been
named on a class that is missing. -/
theorem withClass (h : block.InSequence named)
    (hnamed : ∀ object ∈ named, block.hasClass object.cls) (name : String) :
    (block.withClass name).InSequence named := by
  unfold InSequence outline
  rw [classes_withClass]
  split
  · exact h
  · rename_i hnew
    have hnone : ObjectName.labelsOn named name = [] :=
      List.eq_nil_iff_forall_not_mem.2 fun label hin =>
        hnew (hnamed _ (ObjectName.mem_labelsOn_iff.1 hin))
    rw [List.map_append, List.map_singleton]
    exact List.forall_mem_append.2 ⟨h, List.forall_mem_singleton.2 hnone.symm⟩

/-- Naming a state keeps the states in sequence, on its own class and on the others. A class
leaves out a state that it has, and the list of names one that is in it already;
the invariant says that these are the same. -/
theorem changeClass_withState (h : block.InSequence named) (name : String) (label : StateName) :
    (block.changeClass name (·.withState label)).InSequence (named ++ [⟨name, some label⟩]) := by
  unfold InSequence outline
  rw [classes_changeClass, List.map_map]
  refine List.forall_mem_map.2 fun cls hcls => ?_
  have hold : cls.labels = ObjectName.labelsOn named cls.name :=
    h cls.outline (List.mem_map_of_mem hcls)
  rw [Function.comp_apply]
  by_cases hname : cls.name = name
  · subst hname
    have hlabel : ObjectName.labelOn? cls.name ⟨cls.name, some label⟩ = some label := if_pos rfl
    have hsame : (cls.withState label).name = cls.name := by
      unfold ClassData.withState
      split <;> rfl
    rw [if_pos (beq_self_eq_true _)]
    -- The class and the list of names leave out the state in the same case.
    calc (cls.withState label).labels
        = if label ∈ cls.labels then cls.labels else cls.labels ++ [label] :=
          cls.labels_withState label
      _ = ObjectName.labelsOn (named ++ [⟨cls.name, some label⟩]) cls.name := by
          rw [ObjectName.labelsOn_concat_of_some hlabel, hold]
      _ = ObjectName.labelsOn (named ++ [⟨cls.name, some label⟩]) (cls.withState label).name := by
          rw [hsame]
  · have hlabel : ObjectName.labelOn? cls.name ⟨name, some label⟩ = none := if_neg (Ne.symm hname)
    rw [if_neg (mt beq_iff_eq.1 hname)]
    exact hold.trans (ObjectName.labelsOn_concat_of_none hlabel).symm

/-- Naming an object keeps the states in sequence. Its class comes first, and without
a state this is all. -/
theorem withObject (h : block.InSequence named)
    (hnamed : ∀ object ∈ named, block.hasClass object.cls) (object : ObjectName) :
    (block.withObject object).InSequence (named ++ [object]) := by
  obtain ⟨name, state⟩ := object
  have hclass := h.withClass hnamed name
  cases state with
  | none =>
    intro entry hentry
    have hlabel : ObjectName.labelOn? entry.1 ⟨name, none⟩ = none := by
      simp [ObjectName.labelOn?]
    rw [ObjectName.labelsOn_concat_of_none hlabel]
    exact hclass entry hentry
  | some label => exact hclass.changeClass_withState name label

end InSequence

end Block

namespace Draft

/-- No declaration changes the classes of the block and their states. What a
declaration changes are styles, the base and the name of the block. -/
theorem outline_after (draft : Draft) (application : Application) :
    (draft.after application).block.outline = draft.block.outline := by
  unfold after
  split
  · rfl
  · rw [setProperty_eq]
    exact Block.outline_restyle _ _ _

/-- What a draft contains, with the states of each class in the order in which they have been
named. -/
structure Sequenced (name : String) (references : List (String × Block))
    (named : List ObjectName) (applied : List Application) (draft : Draft) : Prop extends
    draft.Shows name references named applied where
  sequence : draft.block.InSequence named

namespace Sequenced

variable {name : String} {references : List (String × Block)} {named : List ObjectName}
  {applied : List Application} {draft draft' : Draft}

/-- Declaring an object keeps the states in sequence. A state is added behind the
others of its class, and so is its label in the list of names. -/
theorem declare (h : draft.Sequenced name references named applied) {object : ObjectName}
    {block : Block} (hdeclare : draft.block.declare object = .ok block) :
    Sequenced name references (named ++ [object]) applied { draft with block } := by
  refine ⟨h.toShows.declare hdeclare, ?_⟩
  -- What is declared goes together with the block, so it is just added.
  obtain ⟨-, rfl⟩ := h.coherent.declare_eq_ok_iff.1 hdeclare
  refine h.sequence.withObject (fun other hother => ?_) object
  exact Block.hasClass_iff.2 ((h.names _).2 (.inr ⟨other, hother, .inr rfl⟩))

/-- Applying a declaration keeps the states in sequence, for it names none. That the
object has been named is needed for the account of applications. -/
theorem take (h : draft.Sequenced name references named applied) {application : Application}
    (hkey : application.key.object ∈ named) (htake : draft.take application = .ok draft') :
    draft'.Sequenced name references named (applied ++ [application]) := by
  refine ⟨h.toShows.take hkey htake, ?_⟩
  obtain ⟨-, rfl⟩ := take_eq_ok_iff.1 htake
  rw [Block.InSequence, outline_after]
  exact h.sequence

/-- Adding a rule keeps the states in sequence. Objects come before applications, and
only objects add names. -/
theorem addRule (h : draft.Sequenced name references named applied) {rule : Rule}
    (hadd : draft.addRule rule = .ok draft') :
    draft'.Sequenced name references (named ++ rule.objects) (applied ++ rule.applications) := by
  obtain ⟨-, block, hobjects, happlications⟩ := addRule_eq_ok_iff.1 hadd
  -- The rule declares all its objects before anything is applied to them.
  have hdeclared : Sequenced name references (named ++ rule.objects) applied { draft with block } :=
    foldlM_keeps_passed
      (P := fun before passed => Sequenced name references passed applied
        { draft with block := before })
      (fun _ _ _ _ _ hafter hbefore => hbefore.declare hafter) hobjects h
  refine foldlM_keeps_passed
    (P := fun before passed => Sequenced name references (named ++ rule.objects) passed before)
    (fun application happlication _ _ _ hafter hbefore => hbefore.take ?_ hafter)
    happlications hdeclared
  exact List.mem_append_right _ (Rule.mem_objects_of_mem_applications happlication)

end Sequenced

end Draft

/-- The states of a class are in the order in which the rules first name them. A rule
names the objects in front of its keys as well, and these count at the place where
they stand. -/
theorem Block.labels_of_ofRules {id : Nat} {name identifier : String}
    {references : List (String × Block)} {rules : List Rule} {block : Block}
    (h : ofRules id name identifier references rules = .ok block) {cls : ClassData}
    (hcls : cls ∈ block.classes) :
    cls.states.map StateData.label = Rule.labelsOn rules cls.name := by
  obtain ⟨draft, hdraft, hfinish⟩ := ofRules_eq_ok_iff.1 h
  obtain ⟨-, rfl⟩ := Draft.finish_ok_iff.1 hfinish
  -- The empty draft has the root alone, which has no states.
  have hbare : Draft.Sequenced name references (List.flatMap Rule.objects [])
      (List.flatMap Rule.applications []) ⟨.bare id name identifier references, []⟩ := by
    refine ⟨Draft.shows_bare id name identifier references, fun entry hentry => ?_⟩
    cases List.mem_singleton.1 hentry
    rfl
  have hsequenced : draft.Sequenced name references (rules.flatMap Rule.objects)
      (rules.flatMap Rule.applications) :=
    foldlM_keeps_passed
      (P := fun before passed => Draft.Sequenced name references (passed.flatMap Rule.objects)
        (passed.flatMap Rule.applications) before)
      (fun rule _ before after passed hadd hbefore => by simpa using hbefore.addRule hadd)
      hdraft hbare
  exact hsequenced.sequence cls.outline (List.mem_map_of_mem hcls)

end BlockStyles
