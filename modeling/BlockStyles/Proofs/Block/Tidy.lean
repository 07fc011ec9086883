import BlockStyles.Proofs.Block.Edits
import BlockStyles.Proofs.Stylesheet.Names
import Mathlib.Data.List.Nodup

/-!
# `BlockStyles.Proofs.Block.Tidy`: every object of a block has its own name

The classes of a block have different names, and so have the states of a class;
all these names are identifiers. Every edit keeps this, so it holds of all blocks
that are built from the text of a stylesheet, and of the blocks they extend.

* `Block.Edits.tidy`: building keeps a block tidy.
* `Block.Written.tidy`: a block built from text is tidy.
-/

set_option autoImplicit false

namespace BlockStyles

open BlockStyles.Text (isIdentifier)

/-- The states of a class have different names, which are identifiers, and the class has one
too. -/
structure ClassData.Tidy (cls : ClassData) : Prop where
  name : isIdentifier cls.name
  labels : (cls.states.map StateData.label).Nodup
  legal : ∀ state ∈ cls.states, state.label.IsLegal

namespace ClassData

/-- A class without states is tidy if its name is an identifier. There are no states,
so nothing has to be said about labels. -/
theorem tidy_bare {name : String} (h : isIdentifier name) : (bare name).Tidy :=
  ⟨h, .nil, fun state hstate => by cases hstate⟩

/-- Adding a state keeps a class tidy: it is not added where it is already, and its
names are legal. -/
theorem Tidy.withState {cls : ClassData} {label : StateName} (h : cls.Tidy)
    (hlabel : label.IsLegal) : (cls.withState label).Tidy := by
  unfold ClassData.withState
  split
  · exact h
  · rename_i hnew
    refine ⟨h.name, ?_, fun state hstate => ?_⟩
    · rw [List.map_append, List.map_singleton, ← List.concat_eq_append, List.nodup_concat]
      refine ⟨fun hin => hnew ?_, h.labels⟩
      obtain ⟨state, hstate, heq⟩ := List.mem_map.1 hin
      exact List.any_eq_true.2 ⟨state, hstate, beq_iff_eq.2 heq⟩
    · rcases List.mem_append.1 hstate with hstate | hstate
      · exact h.legal state hstate
      · exact List.mem_singleton.1 hstate ▸ hlabel

/-- Changing a style keeps a class tidy, since names have nothing to do with styles.
This is one of the edits that a block is made of, for classes as well as for states. -/
theorem Tidy.restyle {cls : ClassData} (h : cls.Tidy) (change : Style → Style)
    (label : Option StateName) : (cls.restyle change label).Tidy := by
  cases label with
  | none => exact ⟨h.name, h.labels, h.legal⟩
  | some label =>
    refine ⟨h.name, ?_, fun state hstate => ?_⟩
    -- A change of style leaves every label as it is.
    · rw [ClassData.restyle, List.map_map]
      have hsame : (StateData.label ∘ fun state : StateData =>
          if state.label == label then { state with style := change state.style } else state)
            = StateData.label := by
        funext state
        rw [Function.comp_apply]
        split <;> rfl
      rw [hsame]
      exact h.labels
    · obtain ⟨before, hbefore, rfl⟩ := List.mem_map.1 hstate
      have hlegal := h.legal before hbefore
      split <;> exact hlegal

end ClassData

namespace Block

/-- The first class is the root, the classes have different names, and each of them is tidy. -/
structure Tidy (block : Block) : Prop where
  root : block.root.name = rootName
  names : (block.classes.map ClassData.name).Nodup
  classes : ∀ cls ∈ block.classes, cls.Tidy

/-! ### Building -/

/-- A change that leaves the names of classes alone leaves a block tidy, if it leaves
each class tidy. -/
theorem Tidy.changeClass {block : Block} (h : block.Tidy) (name : String)
    {change : ClassData → ClassData} (hname : ∀ cls, (change cls).name = cls.name)
    (htidy : ∀ cls, cls.Tidy → (change cls).Tidy) : (block.changeClass name change).Tidy := by
  refine ⟨?_, ?_, fun cls hcls => ?_⟩
  -- The root is kept apart from the other classes, and is changed if it has the name.
  · rw [← h.root]
    unfold Block.changeClass
    dsimp only
    split
    · exact hname _
    · rfl
  · have hsame : (ClassData.name ∘ fun cls : ClassData =>
        if cls.name == name then change cls else cls) = ClassData.name := by
      funext cls
      rw [Function.comp_apply]
      split
      · exact hname cls
      · rfl
    rw [classes_changeClass, List.map_map, hsame]
    exact h.names
  · rw [classes_changeClass] at hcls
    obtain ⟨before, hbefore, rfl⟩ := List.mem_map.1 hcls
    split
    · exact htidy before (h.classes before hbefore)
    · exact h.classes before hbefore

/-- Adding a class keeps a block tidy, because a name that is there is not added
again. -/
theorem Tidy.withClass {block : Block} (h : block.Tidy) {name : String}
    (hname : isIdentifier name) : (block.withClass name).Tidy := by
  unfold Block.withClass
  split
  · exact h
  · rename_i hnew
    -- The new class comes last.
    have hclasses : Block.classes { block with others := block.others ++ [.bare name] }
        = block.classes ++ [.bare name] := rfl
    refine ⟨h.root, ?_, fun cls hcls => ?_⟩
    · rw [hclasses, List.map_append, List.map_singleton, ← List.concat_eq_append,
        List.nodup_concat]
      refine ⟨fun hin => hnew ?_, h.names⟩
      obtain ⟨cls, hcls, heq⟩ := List.mem_map.1 hin
      exact List.any_eq_true.2 ⟨cls, hcls, beq_iff_eq.2 heq⟩
    · rw [hclasses] at hcls
      rcases List.mem_append.1 hcls with hcls | hcls
      · exact h.classes cls hcls
      · exact List.mem_singleton.1 hcls ▸ ClassData.tidy_bare hname

/-- A block with nothing but its root is tidy. Every block that is built begins as
such a block, and edits keep it tidy. -/
theorem tidy_bare (id : Nat) (name identifier : String) (references : List (String × Block)) :
    (bare id name identifier references).Tidy := by
  refine ⟨rfl, List.nodup_singleton _, fun cls hcls => ?_⟩
  cases List.mem_singleton.1 hcls
  exact ClassData.tidy_bare (by decide)

/-- Every edit keeps a block tidy, as long as what is added has names that are
identifiers. -/
theorem Edit.tidy {block block' : Block} (h : Edit (isIdentifier ·) block block')
    (htidy : block.Tidy) : block'.Tidy := by
  cases h with
  | addClass name hname => exact htidy.withClass hname
  | addState cls label hlabel =>
    refine htidy.changeClass cls (fun c => ?_) fun c hc => hc.withState hlabel
    unfold ClassData.withState
    split <;> rfl
  | restyle object change =>
    refine htidy.changeClass object.cls (fun c => ?_) fun c hc => hc.restyle change object.state
    unfold ClassData.restyle
    split <;> rfl
  | extend localName base hbase => exact ⟨htidy.root, htidy.names, htidy.classes⟩
  | rename name => exact ⟨htidy.root, htidy.names, htidy.classes⟩

/-- Building keeps a block tidy. The names that are added have been checked, as an
edit carries that they are identifiers. -/
theorem Edits.tidy {block block' : Block} (h : Edits (isIdentifier ·) block block')
    (htidy : block.Tidy) : block'.Tidy := by
  induction h with
  | refl => exact htidy
  | tail _ hlast ih => exact hlast.tidy ih

/-! ### Blocks from text -/

/-- A block that is built from the text of a stylesheet, with any blocks to refer to. -/
def FromText (block : Block) : Prop :=
  ∃ source sheet id name identifier references, Stylesheet.ofSource source = .ok sheet
    ∧ ofRules id name identifier references sheet.rules = .ok block

/-- A block from text is tidy, whatever it refers to. The names in a text that has
been parsed are identifiers, which cannot be said of sheets that are built by hand. -/
theorem FromText.tidy {block : Block} (h : block.FromText) : block.Tidy := by
  obtain ⟨source, sheet, id, name, identifier, references, hsheet, hbuilt⟩ := h
  have hedits : Edits (isIdentifier ·) (.bare id name identifier references) block :=
    edits_of_ofRules (by decide) (Stylesheet.isProper_of_ofSource hsheet) hbuilt
  exact hedits.tidy (tidy_bare id name identifier references)

/-- A block that is built from the text of a stylesheet, as are all blocks that it refers to. -/
inductive Written : Block → Prop where
  | intro (source : String) (sheet : Stylesheet) (id : Nat) (name identifier : String)
      (references : List (String × Block)) (block : Block)
      (hsheet : Stylesheet.ofSource source = .ok sheet)
      (hreferences : ∀ reference ∈ references, Written reference.2)
      (h : ofRules id name identifier references sheet.rules = .ok block) : Written block

namespace Written

variable {block : Block}

/-- A block from text, all of whose references are from text, is tidy. -/
theorem tidy (h : block.Written) : block.Tidy := by
  obtain ⟨source, sheet, id, name, identifier, references, _, hsheet, -, hbuilt⟩ := h
  exact FromText.tidy ⟨source, sheet, id, name, identifier, references, hsheet, hbuilt⟩

/-- The base of a block from text is one too, for it is one of the references. That is
enough for a whole lineage, by induction along the bases. -/
theorem of_base {base : Block} (h : block.Written) (hbase : block.base = some base) :
    base.Written := by
  obtain ⟨source, sheet, id, name, identifier, references, _, hsheet, hreferences, hbuilt⟩ := h
  rcases (ofRules_keeps hbuilt).base base hbase with hnone | ⟨localName, hin⟩
  · cases hnone
  · exact hreferences (localName, base) hin

/-- All blocks that a block from text extends are from text, by induction on the
lineage. -/
theorem of_mem_lineage {ancestor : Block} (h : block.Written) (hin : ancestor ∈ block.lineage) :
    ancestor.Written := by
  fun_induction lineage block with
  | case1 =>
    cases List.mem_singleton.1 hin
    exact h
  | case2 id name identifier references root others base ih =>
    rcases List.mem_cons.1 hin with rfl | hin
    · exact h
    · exact ih (h.of_base rfl) hin

end Written

end Block

end BlockStyles
