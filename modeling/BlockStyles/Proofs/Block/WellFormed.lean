import BlockStyles.Proofs.Block.Account

/-!
# `BlockStyles.Proofs.Block.WellFormed`: what is true of every block

What the checks of the construction are for: the objects of a block have names of their own
that do not get in each other's way, its base is one of its references, and the targets of all
resolutions are there.

* `Block.WellFormed`: the conditions, on the block alone.
* `Block.wellFormed_of_ofRules`: every block that is built satisfies them.
-/

set_option autoImplicit false

namespace BlockStyles

namespace Block

/-- A block as it has to be. -/
structure WellFormed (block : Block) : Prop where
  /-- The first class is the root. -/
  root : block.root.name = rootName
  classes_once : (block.classes.map ClassData.name).Nodup
  states_once : ∀ cls ∈ block.classes, (cls.states.map StateData.label).Nodup
  /-- No state of the root, and no group, has the name of a class. -/
  apart : ∀ state ∈ block.root.states, ∀ cls ∈ block.classes,
    state.label.name ≠ cls.name ∧ state.label.group ≠ some cls.name
  /-- No class has a boolean state and a group of one name. -/
  unmixed : ∀ cls ∈ block.classes, ∀ state ∈ cls.states, ∀ other ∈ cls.states,
    state.label.group = none → other.label.group ≠ some state.label.name
  base : ∀ base, block.base = some base → ∃ localName, (localName, base) ∈ block.references
  /-- The targets of all resolutions are found. -/
  targets : ∀ object ∈ block.objects, ∀ resolution ∈ object.style.resolutions,
    (block.lookup? resolution.target).isSome

variable {block : Block}

/-- A state of a class is there under its name. So two states with one label on a class
would be two objects with one name. -/
theorem mem_names_of_mem_states {cls : ClassData} (hcls : cls ∈ block.classes) {state : StateData}
    (hstate : state ∈ cls.states) : ⟨cls.name, some state.label⟩ ∈ block.names :=
  state_mem_names_iff.2 ⟨cls, hcls, rfl, List.any_eq_true.2 ⟨state, hstate, beq_self_eq_true _⟩⟩

/-- In a coherent block no state of the root, and no group, has the name of a class.
Otherwise a text could speak of either of them. -/
theorem Coherent.apart (h : block.Coherent) {state : StateData} (hstate : state ∈ block.root.states)
    {cls : ClassData} (hcls : cls ∈ block.classes) :
    state.label.name ≠ cls.name ∧ state.label.group ≠ some cls.name := by
  have hstate := mem_names_of_mem_states List.mem_cons_self hstate
  have hcls := mem_classNames_iff.1 (List.mem_map_of_mem hcls)
  -- The state takes its own name and that of its group.
  have hfree : cls.name ∉ namesOf state.label := fun hin =>
    (h.compatible _ hstate _ hcls).ahead ⟨h.root, state.label, rfl, hin⟩
  simp only [namesOf, List.mem_cons, Option.mem_toList, not_or] at hfree
  exact ⟨Ne.symm hfree.1, hfree.2⟩

/-- In a coherent block no class has a boolean state and a group of one name. Two such
states would be refused as a pair, in whichever order they are declared. -/
theorem Coherent.unmixed (h : block.Coherent) {cls : ClassData} (hcls : cls ∈ block.classes)
    {state other : StateData} (hstate : state ∈ cls.states) (hother : other ∈ cls.states)
    (hboolean : state.label.group = none) : other.label.group ≠ some state.label.name := by
  intro hgroup
  have hcompatible := h.compatible _ (mem_names_of_mem_states hcls hstate) _
    (mem_names_of_mem_states hcls hother)
  exact hcompatible.unmixed rfl state.label other.label rfl rfl (.inl ⟨hboolean, hgroup⟩)

end Block

/-- Every resolution has its target among those that are looked for in the end.
Resolutions are kept with the objects and targets with the draft, and both come from
the applications. -/
theorem Draft.ShowsRules.target_mem {name : String} {references : List (String × Block)}
    {draft : Draft} {rules : List Rule} (h : draft.ShowsRules name references rules)
    {object : Object} (hobject : object ∈ draft.block.objects) {resolution : Resolution}
    (hresolution : resolution ∈ object.style.resolutions) :
    resolution.target ∈ draft.targets.map Prod.fst := by
  rw [h.resolutions _ (Block.mem_styles_of_mem_objects hobject)] at hresolution
  obtain ⟨application, happlied, hrecorded⟩ := List.mem_filterMap.1 hresolution
  unfold Application.resolutionOn? at hrecorded
  split at hrecorded
  · rw [h.targets]
    exact List.mem_map_of_mem (List.mem_filterMap.2 ⟨application, happlied, hrecorded⟩)
  · cases hrecorded

/-- Every block that is built is well formed, whatever rules it is built from. They
need not come from a text. -/
theorem Block.wellFormed_of_ofRules {id : Nat} {name identifier : String}
    {references : List (String × Block)} {rules : List Rule} {block : Block}
    (h : ofRules id name identifier references rules = .ok block) : block.WellFormed := by
  obtain ⟨draft, hdraft, hfinish⟩ := ofRules_eq_ok_iff.1 h
  obtain ⟨hfound, rfl⟩ := Draft.finish_ok_iff.1 hfinish
  have hshows := Draft.showsRules_of_foldlM hdraft
  have hcoherent := hshows.coherent
  obtain ⟨hclasses, hstates⟩ := nodup_names_iff.1 hcoherent.once
  constructor
  case root => exact hcoherent.root
  case classes_once => exact hclasses
  case states_once => exact hstates
  case apart => exact fun state hstate cls hcls => hcoherent.apart hstate hcls
  case unmixed =>
    exact fun cls hcls state hstate other hother => hcoherent.unmixed hcls hstate hother
  -- The base of a draft is the last that was named, and each of them was looked up in the
  -- references.
  case base =>
    intro base hbase
    rw [hshows.base_eq] at hbase
    obtain ⟨application, -, hsome⟩ := List.mem_filterMap.1 (List.mem_of_getLast? hbase)
    exact hshows.references_eq ▸ Application.exists_mem_of_base? hsome
  -- Finishing has gone through all targets, and those of all objects are among them.
  case targets =>
    intro object hobject resolution hresolution
    exact hfound _ (hshows.target_mem hobject hresolution)

end BlockStyles
