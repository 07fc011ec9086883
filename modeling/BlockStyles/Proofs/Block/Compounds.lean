import BlockStyles.Block.Lookup
import BlockStyles.Proofs.Block.Edits

/-!
# `BlockStyles.Proofs.Block.Compounds`: the object that a compound selector names

The simple selectors of a compound are gone through from left to right, each time with
what has been named so far. What they say together does not depend on that: the class is
the one that is written anywhere in the compound, or the root, and the state is that of
an attribute in it.

* `Selector.Compound.Names`: what it is for a compound selector to name an object.
* `Selector.Compound.names_iff`: a compound that is accepted names one object, the one that is
  read.
-/

set_option autoImplicit false

namespace BlockStyles

open BlockStyles.Selector (Attribute Compound Simple)

/-! ### What is written -/

namespace Selector.Compound

/-- The class that the compound speaks of: the one that is written, or the root if none is. -/
def IsOf (compound : Compound) (name : String) : Prop :=
  .cls name ∈ compound ∨ (∀ other, .cls other ∉ compound) ∧ name = rootName

/-- An attribute of the compound stands for the state. -/
def Selects (compound : Compound) (label : StateName) : Prop :=
  ∃ attr, .attr attr ∈ compound ∧ Sought.stateOf? attr = some label

/-- The compound speaks of the class of the object, and of its state if it is one. -/
structure Names (compound : Compound) (object : ObjectName) : Prop where
  cls : compound.IsOf object.cls
  state : ∀ label, compound.Selects label ↔ object.state = some label

end Selector.Compound

/-! ### What is read -/

/-- The class and the state that have been named so far are those that have been passed. -/
structure Selected.Tells (selected : Selected) (passed : List Simple) : Prop where
  cls : ∀ name, .cls name ∈ passed ↔ selected.cls = some name
  state : ∀ label, Compound.Selects passed label ↔ selected.state = some label

namespace Selected

variable {isKey : Bool} {selected selected' : Selected} {passed : List Simple}

/-- Before anything has been passed nothing has been named. -/
theorem tells_nothing : Selected.nothing.Tells [] where
  cls name := by simp [nothing]
  state label := by simp [nothing, Compound.Selects]

/-- An attribute that is accepted as a state stands for this state when it is looked
up. Names are checked when rules are read, and taken as they are when a selector is
looked up. -/
theorem stateOf?_of_stateOf {attr : Attribute} {label : StateName}
    (hspace : attr.isIn stateSpace) (h : stateOf attr = .ok label) :
    Sought.stateOf? attr = some label := by
  rw [Sought.stateOf?, if_pos hspace]
  unfold stateOf at h
  cases hvalue : attr.value with
  | some value =>
    show some ⟨some attr.name, value⟩ = some label
    simp only [hvalue] at h
    split at h
    · cases h
    · split at h
      · cases h
      · cases h
        rfl
  | none =>
    show some ⟨none, attr.name⟩ = some label
    simp only [hvalue] at h
    split at h
    · cases h
    · cases h
      rfl

/-- A simple selector that is neither a class nor an attribute adds nothing. Of these
the state of the reader says nothing, so it tells of the longer compound what it told
before. -/
theorem Tells.pass (h : selected.Tells passed) {simple : Simple}
    (hcls : ∀ name, simple ≠ .cls name) (hattr : ∀ attr, simple ≠ .attr attr) :
    selected.Tells (passed ++ [simple]) where
  cls name := by simp [← h.cls, (hcls name).symm]
  state label := by simp [← h.state, Compound.Selects, fun attr => (hattr attr).symm]

/-- A class, where none has been named before. A second class would be refused, so at
most one is told. -/
theorem Tells.addClass (h : selected.Tells passed) (hnone : selected.cls = none) (name : String) :
    Tells { selected with cls := some name } (passed ++ [.cls name]) where
  cls other := by simp [h.cls, hnone, eq_comm]
  state label := by simp [← h.state, Compound.Selects]

/-- A state, where none has been selected before. If the same state had been passed,
something would have been selected. -/
theorem Tells.addState (h : selected.Tells passed) (hnone : selected.state = none)
    {attr : Attribute} {label : StateName} (hspace : attr.isIn stateSpace)
    (hlabel : stateOf attr = .ok label) :
    Tells { selected with state := some label } (passed ++ [.attr attr]) where
  cls name := by simp [← h.cls]
  state other := by
    have hstate := stateOf?_of_stateOf hspace hlabel
    -- A state that has been passed would have been selected.
    have hnew : ¬ Compound.Selects passed other := by
      intro hother
      rw [(h.state other).1 hother] at hnone
      cases hnone
    constructor
    · rintro ⟨attr', hin, hother⟩
      rcases List.mem_append.1 hin with hin | hin
      · exact absurd ⟨attr', hin, hother⟩ hnew
      · cases List.mem_singleton.1 hin
        exact hstate.symm.trans hother
    · intro heq
      cases heq
      exact ⟨attr, by simp, hstate⟩

/-- What is told of the simple selectors that have been passed is kept by one more.
Those that are refused need no attention, and the others are a class, a state or a
pseudo selector. -/
theorem Tells.add (h : selected.Tells passed) {simple : Simple}
    (hadd : selected.add isKey simple = .ok selected') : selected'.Tells (passed ++ [simple]) := by
  cases simple with
  | cls name =>
    simp only [Selected.add] at hadd
    split at hadd
    · cases hadd
    · split at hadd
      · split at hadd <;> cases hadd
      · rename_i hnone
        cases hadd
        exact h.addClass hnone name
  | attr attr =>
    simp only [Selected.add] at hadd
    split at hadd
    · rename_i hspace
      split at hadd
      · cases hadd
      · rename_i hnone
        rw [map_eq_ok] at hadd
        obtain ⟨label, hlabel, rfl⟩ := hadd
        exact h.addState (by simpa using hnone) hspace hlabel
    · cases hadd
  -- Pseudo selectors are passed over, and leave what has been selected as it is.
  | pseudoClass name =>
    exact eq_of_pseudo hadd ▸ h.pass (by simp) (by simp)
  | pseudoElement name =>
    exact eq_of_pseudo hadd ▸ h.pass (by simp) (by simp)
  | type name => cases hadd
  | id name => cases hadd
  | universal => cases hadd
  | parent => cases hadd

end Selected

/-- What is accepted in front of the key is accepted as the key. The object does not
depend on it, so one may read all compounds of a selector as keys. -/
theorem ObjectName.ofCompound_key {isKey : Bool} {compound : Compound} {object : ObjectName}
    (h : ofCompound isKey compound = .ok object) : ofCompound true compound = .ok object := by
  -- Only for pseudo selectors does it matter where the compound stands.
  have hadd : ∀ (selected selected' : Selected) (simple : Simple),
      selected.add isKey simple = .ok selected' → selected.add true simple = .ok selected' := by
    intro selected selected' simple h
    have hpseudo : Selected.add.pseudo isKey selected = .ok selected' →
        Selected.add.pseudo true selected = .ok selected' := by
      unfold Selected.add.pseudo
      cases isKey <;> simp
    cases simple <;> first | exact h | exact hpseudo h
  unfold ofCompound at h ⊢
  split at h
  · cases h
  · rename_i selected hfold
    rw [foldlM_eq_ok_of_imp hadd hfold]
    exact h

namespace Selector.Compound

variable {isKey : Bool} {compound : Compound} {object : ObjectName}

/-- A compound that is accepted speaks of one class, and of the state of the object
alone. Without a class it speaks of the root, which is the class of the object then. -/
theorem isOf_and_selects_iff (h : ObjectName.ofCompound isKey compound = .ok object) :
    (∀ name, compound.IsOf name ↔ object.cls = name)
      ∧ ∀ label, compound.Selects label ↔ object.state = some label := by
  unfold ObjectName.ofCompound at h
  split at h
  · cases h
  · rename_i selected hfold
    split at h
    · cases h
    · cases h
      have hstep : ∀ simple ∈ compound, ∀ before after passed,
          Selected.add isKey before simple = .ok after → before.Tells passed →
            after.Tells (passed ++ [simple]) :=
        fun simple _ before after passed hadd htells => htells.add hadd
      -- The invariant of the walk over the compound, at its end.
      have htells : selected.Tells compound :=
        foldlM_keeps_passed hstep hfold Selected.tells_nothing
      refine ⟨fun name => ?_, htells.state⟩
      simp only [IsOf, htells.cls]
      cases selected.cls with
      | none => simp [eq_comm]
      | some first => simp

/-- A compound that is accepted names the object that is read, and no other. By this
`Names` can stand for the reader in statements. -/
theorem names_iff (h : ObjectName.ofCompound isKey compound = .ok object) {other : ObjectName} :
    compound.Names other ↔ other = object := by
  obtain ⟨hcls, hstate⟩ := isOf_and_selects_iff h
  constructor
  · intro hother
    have hcls' := (hcls other.cls).1 hother.cls
    have hstate' : other.state = object.state := by
      refine Option.ext fun label => ?_
      rw [← hother.state, hstate]
    cases object
    cases other
    exact congrArg₂ ObjectName.mk hcls'.symm hstate'
  · rintro rfl
    exact ⟨(hcls _).2 rfl, hstate⟩

end Selector.Compound

end BlockStyles
