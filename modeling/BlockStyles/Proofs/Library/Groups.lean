import BlockStyles.Proofs.Block.Sequence
import BlockStyles.Proofs.Library.Inheritance

/-!
# `BlockStyles.Proofs.Library.Groups`: the states of a group

There are two walks along a lineage. A search for a state stops at the nearest class that has it;
the list of a group goes through all classes of the name and keeps the states that the search
would find. Both come to the same: for each name that some block in the lineage has in the group,
the state of the nearest one.

* `ClassRef.state?_eq_some_iff`: a search finds the state of the nearest block that has one.
* `ClassRef.ListsGroup`: what the list of a group is.
* `ClassRef.mem_groupStates_iff`: the list has what a search finds under the names of the group.
* `Workshop.lists_groups`: so it is on every class of every block of a library.
-/

set_option autoImplicit false

namespace BlockStyles

/-! ### Searching -/

/-- The state is on a class of this name, and no block nearer in the lineage has such
a state. A nearer block may have the class without the state; it does not hide
anything then. -/
structure ClassRef.IsNearest (ref : ClassRef) (state : StateRef) : Prop where
  name : state.cls.name = ref.name
  first : ∃ nearer further, ref.block.lineage = nearer ++ state.block :: further
    ∧ ∀ other ∈ nearer, ⟨ref.name, some state.label⟩ ∉ other.names

namespace Block

variable {block : Block} {name : String} {label : StateName} {state : StateRef}

/-- The state of a block that is called so is its own. Names are unique within a
block, so the search can only come to this state. -/
theorem ownState_eq_some_iff (h : block.WellNamed) :
    (block.ownClass? name).bind (·.ownState? label) = some state
      ↔ state.block = block ∧ state.cls.name = name ∧ state.label = label := by
  constructor
  · intro hfound
    obtain ⟨ref, href, hown⟩ := Option.bind_eq_some_iff.1 hfound
    obtain ⟨rfl, rfl⟩ := of_ownClass? href
    obtain ⟨index, hindex, rfl⟩ := Option.map_eq_some_iff.1 hown
    exact ⟨rfl, rfl, beq_iff_eq.1 (List.findFinIdx?_eq_some_iff.1 hindex).1⟩
  · rintro ⟨rfl, rfl, rfl⟩
    have hcls : state.block.ownClass? state.cls.name = some state.cls :=
      ownClass?_name h state.cls.index
    rw [hcls]
    exact ClassRef.ownState?_label h state.index

/-- A block has no state of this name exactly if it does not declare one. The case of
states is read off the one of objects, which has been shown already. -/
theorem ownState_eq_none_iff (h : block.WellNamed) :
    (block.ownClass? name).bind (·.ownState? label) = none
      ↔ ⟨name, some label⟩ ∉ block.names := by
  have hown : block.ownSought? ⟨some name, some label⟩
      = ((block.ownClass? name).bind (·.ownState? label)).map .state := by
    rw [ownSought?, Option.getD_some]
    cases block.ownClass? name <;> rfl
  have hsome : (block.ownSought? ⟨some name, some label⟩).isSome
      ↔ ⟨name, some label⟩ ∈ block.names := isSome_ownSought?_iff h
  rw [← hsome, hown, Option.isSome_map, Option.not_isSome_iff_eq_none]

end Block

namespace ClassRef

variable {ref : ClassRef} {label : StateName} {state : StateRef} {group : String}

/-- What is found is the state of the nearest block that has one. A search that goes
on in blocks and in their states is put into the form of one search over the lineage. -/
theorem state?_eq_some_iff (hnamed : ∀ other ∈ ref.block.lineage, other.WellNamed) :
    ref.state? label = some state ↔ state.label = label ∧ ref.IsNearest state := by
  have hblock : ∀ {nearer further : List Block} {other : Block},
      ref.block.lineage = nearer ++ other :: further →
        other.WellNamed ∧ ∀ before ∈ nearer, before.WellNamed := by
    intro nearer further other hlineage
    rw [hlineage] at hnamed
    exact ⟨hnamed other (by simp), fun before hbefore => hnamed before (by simp [hbefore])⟩
  -- As one search it splits the lineage at the block where it ends.
  rw [state?, namesakes, findSome?_filterMap, List.findSome?_eq_some_iff]
  constructor
  · rintro ⟨nearer, other, further, hlineage, hfound, hnone⟩
    obtain ⟨hother, hnearer⟩ := hblock hlineage
    obtain ⟨rfl, hname, rfl⟩ := (Block.ownState_eq_some_iff hother).1 hfound
    refine ⟨rfl, hname, nearer, further, hlineage, fun before hbefore => ?_⟩
    exact (Block.ownState_eq_none_iff (hnearer before hbefore)).1 (hnone before hbefore)
  · rintro ⟨rfl, hname, nearer, further, hlineage, hnone⟩
    obtain ⟨hother, hnearer⟩ := hblock hlineage
    refine ⟨nearer, state.block, further, hlineage,
      (Block.ownState_eq_some_iff hother).2 ⟨rfl, hname, rfl⟩, fun before hbefore => ?_⟩
    exact (Block.ownState_eq_none_iff (hnearer before hbefore)).2 (hnone before hbefore)

/-- A state is found if a block in the lineage has one on its class of this name.
Which block it is does not matter here. -/
theorem exists_state?_iff (hnamed : ∀ other ∈ ref.block.lineage, other.WellNamed) :
    (∃ state, ref.state? label = some state)
      ↔ ∃ other ∈ ref.block.lineage, ⟨ref.name, some label⟩ ∈ other.names := by
  rw [← Option.isSome_iff_exists, state?, namesakes, findSome?_filterMap, List.findSome?_isSome_iff]
  refine exists_congr fun other => and_congr_right fun hother => ?_
  rw [← not_iff_not, Bool.not_eq_true, Option.isSome_eq_false_iff, Option.isNone_iff_eq_none]
  exact Block.ownState_eq_none_iff (hnamed other hother)

/-! ### Listing -/

/-- The states of a class are those whose class it is. A state in a block is the index
of its class and its own index there. -/
theorem mem_states_iff : state ∈ ref.states ↔ state.cls = ref := by
  constructor
  · intro hstate
    obtain ⟨index, -, rfl⟩ := List.mem_map.1 hstate
    rfl
  · rintro rfl
    exact List.mem_map.2 ⟨state.index, List.mem_finRange _, rfl⟩

/-- The classes that a search goes through are those of the same name on blocks of the
lineage. -/
theorem mem_namesakes_iff (hnamed : ∀ other ∈ ref.block.lineage, other.WellNamed)
    {namesake : ClassRef} :
    namesake ∈ ref.namesakes ↔ namesake.block ∈ ref.block.lineage ∧ namesake.name = ref.name := by
  rw [namesakes, List.mem_filterMap]
  constructor
  · rintro ⟨other, hother, hown⟩
    obtain ⟨rfl, hname⟩ := Block.of_ownClass? hown
    exact ⟨hother, hname⟩
  · rintro ⟨hother, hname⟩
    exact ⟨namesake.block, hother, hname ▸ Block.ownClass?_name (hnamed _ hother) namesake.index⟩

/-- One state comes before another: its block in the lineage, or it on the same class.
That a block comes before another is said by a sublist of the lineage, which has no
block twice. -/
def Precedes (ref : ClassRef) (state later : StateRef) : Prop :=
  [state.block, later.block].Sublist ref.block.lineage
    ∨ state.cls = later.cls ∧ state.index.val < later.index.val

/-- The states of all classes of the name are in order. Filtering the list for a group
keeps this. -/
theorem pairwise_flatMap_states (ref : ClassRef) :
    (ref.namesakes.flatMap states).Pairwise ref.Precedes := by
  refine List.pairwise_flatMap.2 ⟨fun namesake _ => ?_, ?_⟩
  -- The states of one class, and then those of two classes of different blocks.
  · refine List.pairwise_map.2 ((List.pairwise_lt_finRange _).imp fun hlt => ?_)
    exact .inr ⟨rfl, hlt⟩
  · refine List.pairwise_filterMap.2 (List.pairwise_iff_forall_sublist.2 ?_)
    intro block other hsublist namesake hnamesake namesake' hnamesake' state hstate later hlater
    cases mem_states_iff.1 hstate
    cases mem_states_iff.1 hlater
    obtain ⟨rfl, -⟩ := Block.of_ownClass? hnamesake
    obtain ⟨rfl, -⟩ := Block.of_ownClass? hnamesake'
    exact .inl hsublist

/-- These are the states on classes of the name, of all blocks in the lineage. The
list of a group is a part of them, in the same order. -/
theorem mem_flatMap_states_iff (hnamed : ∀ other ∈ ref.block.lineage, other.WellNamed) :
    state ∈ ref.namesakes.flatMap states
      ↔ state.block ∈ ref.block.lineage ∧ state.cls.name = ref.name := by
  simp only [List.mem_flatMap, mem_states_iff, exists_eq_right', mem_namesakes_iff hnamed]
  rfl

/-- A group has the states that a search finds under their names. The list is filtered
by comparing ids with what the search finds; that ids can stand for states here is
what `hids` is for. -/
theorem mem_groupStates_iff (hnamed : ∀ other ∈ ref.block.lineage, other.WellNamed)
    (hids : (ref.block.lineage.map Block.id).Nodup) :
    state ∈ ref.groupStates group ↔ ref.state? ⟨some group, state.label.name⟩ = some state := by
  rw [groupStates, List.mem_filter, mem_flatMap_states_iff hnamed]
  simp only [Bool.and_eq_true, beq_iff_eq, Option.any_eq_true]
  constructor
  · rintro ⟨⟨hstate, -⟩, -, found, hfound, hid⟩
    -- An id tells a state from all others that a lineage leads to.
    have hblock : found.block = state.block :=
      List.inj_on_of_nodup_map hids (block_mem_of_state? hfound) hstate
        (congrArg ObjectId.block hid)
    cases Object.eq_of_id_eq hid hblock
    exact hfound
  · intro hfound
    obtain ⟨hlabel, hnearest⟩ := (state?_eq_some_iff hnamed).1 hfound
    exact ⟨⟨block_mem_of_state? hfound, hnearest.name⟩, congrArg StateName.group hlabel, state,
      hfound, rfl⟩

/-- The list of the states of a group on a class. -/
structure ListsGroup (ref : ClassRef) (group : String) (states : List StateRef) : Prop where
  /-- It has the states that a search finds under their names, -/
  found : ∀ state, state ∈ states ↔ ref.state? ⟨some group, state.label.name⟩ = some state
  /-- no two of them by one name. -/
  once : (states.map fun state => state.label.name).Nodup
  /-- They are the states of the group that are not hidden by a nearer block. -/
  nearest : ∀ state, state ∈ states ↔ state.label.group = some group ∧ ref.IsNearest state
  /-- Each name that a block in the lineage has in the group on such a class is there. -/
  complete : ∀ other ∈ ref.block.lineage, ∀ name,
    ⟨ref.name, some ⟨some group, name⟩⟩ ∈ other.names → ∃ state ∈ states, state.label.name = name
  /-- They are in the order of the lineage, and then in that of their class, -/
  ordered : states.Pairwise ref.Precedes
  /-- whose states are in the order in which the rules of its block first name them. -/
  declared : ∀ state ∈ states, ∃ id name identifier rules,
    Block.ofRules id name identifier state.block.references rules = .ok state.block
      ∧ state.cls.data.states.map StateData.label = Rule.labelsOn rules ref.name

/-- The list of a group is as described, if names are unique within each block and no
block is twice in the lineage. Each field is a fact about the search, by
`mem_groupStates_iff`. -/
theorem listsGroup_groupStates (hnamed : ∀ other ∈ ref.block.lineage, other.WellNamed)
    (hids : (ref.block.lineage.map Block.id).Nodup)
    (hbuilt : ∀ other ∈ ref.block.lineage, ∃ id name identifier rules,
      Block.ofRules id name identifier other.references rules = .ok other) (group : String) :
    ref.ListsGroup group (ref.groupStates group) := by
  have hfound : ∀ state, state ∈ ref.groupStates group
      ↔ ref.state? ⟨some group, state.label.name⟩ = some state :=
    fun _ => mem_groupStates_iff hnamed hids
  have hordered : (ref.groupStates group).Pairwise ref.Precedes :=
    (pairwise_flatMap_states ref).filter _
  constructor
  case found => exact hfound
  case once =>
    -- Nothing comes before itself, since no block is twice in a lineage.
    have hnodup : (ref.groupStates group).Nodup := by
      refine hordered.imp ?_
      rintro state _ hbefore rfl
      rcases hbefore with hsublist | ⟨-, hlt⟩
      · exact List.nodup_iff_sublist.1 hids.of_map state.block hsublist
      · exact Nat.lt_irrefl _ hlt
    -- Two states of one name are both what a search for it finds.
    refine hnodup.map_on fun state hstate other hother hname => ?_
    have hsame := (hfound state).1 hstate
    rw [hname, (hfound other).1 hother] at hsame
    exact (Option.some.inj hsame).symm
  -- What a search finds under its own name is what no nearer block hides.
  case nearest =>
    intro state
    rw [hfound, state?_eq_some_iff hnamed]
    refine and_congr_left fun _ => ⟨fun hlabel => hlabel ▸ rfl, fun hgroup => ?_⟩
    rw [← hgroup]
  -- If some block has such a state, the search finds one, though maybe that of a nearer
  -- block.
  case complete =>
    intro other hother name hin
    obtain ⟨state, hstate⟩ := (exists_state?_iff hnamed).2 ⟨other, hother, hin⟩
    obtain ⟨hlabel, -⟩ := (state?_eq_some_iff hnamed).1 hstate
    have hname : state.label.name = name := congrArg StateName.name hlabel
    exact ⟨state, (hfound state).2 (hname ▸ hstate), hname⟩
  case ordered => exact hordered
  case declared =>
    intro state hstate
    have hstate := (hfound state).1 hstate
    obtain ⟨-, hnearest⟩ := (state?_eq_some_iff hnamed).1 hstate
    obtain ⟨id, name, identifier, rules, hrules⟩ := hbuilt _ (block_mem_of_state? hstate)
    refine ⟨id, name, identifier, rules, hrules, ?_⟩
    rw [← hnearest.name]
    exact Block.labels_of_ofRules hrules state.cls.mem_classes

end ClassRef

/-! ### The blocks of a library -/

namespace Workshop

variable {config : Config} {workshop : Workshop}

/-- On every class of every block, the list of a group has the states that can be
reached on the class, each the nearest of its name, in the order of the lineage and of
their declaration. The conditions on names and lineages hold in every library. They
follow from the well-formedness of blocks, so nothing has to be asked of the class or
the group. -/
theorem lists_groups (h : Reachable config workshop) {ref : ClassRef}
    (hblock : ref.block ∈ workshop.library.blocks) (group : String) :
    ref.ListsGroup group (ref.groupStates group) := by
  have hkept := kept_of_reachable h
  have hregistered := (hkept.blocks ref.block).1 hblock
  exact ClassRef.listsGroup_groupStates (wellNamed_of_mem_lineage h hblock)
    (hkept.lineage_ids_nodup hregistered)
    (fun other hother => hkept.built other ((hkept.lineage hregistered).1 other hother)) group

/-- The block in the middle does not have the class. Of the states of its base, one is
declared again and hidden, and the other one comes last. The order is that of the
lineage, and within a block that of the declarations. -/
theorem lists_groups_skipping :
    let config : Config := ⟨[], "/r", 32, []⟩
    let sized (value : String) : Rule :=
      ⟨[⟨[⟨[.cls "item", .attr ⟨some "state", "size", some value⟩], .none⟩]⟩], [], .unknown⟩
    let extending (localName : String) : Rule := ⟨[⟨[⟨[.cls "root"], .none⟩]⟩],
      [.declaration ⟨"extends", localName, false, .unknown⟩], .unknown⟩
    let toA : AtRule := ⟨"block-reference", "a from './a.css'", .unknown⟩
    let toB : AtRule := ⟨"block-reference", "b from './b.css'", .unknown⟩
    let first := (Library.empty.addSheet config ⟨[], [sized "small", sized "large"]⟩ "/r/a.css"
      "a").1
    let second := (first.addSheet config ⟨[toA], [extending "a"]⟩ "/r/b.css" "b").1
    let third := (second.addSheet config
      ⟨[toB], [extending "b", sized "large", sized "huge"]⟩ "/r/c.css" "c").1
    ∃ registered block ref, Reachable config ⟨third, [], registered⟩ ∧ block ∈ third.blocks
      ∧ block.lineage.map Block.id = [3, 2, 1] ∧ block.class? "item" = some ref
      ∧ ref.block = block
      ∧ (ref.groupStates "size").map (fun state => (state.block.id, state.label.name))
        = [(3, "large"), (3, "huge"), (1, "small")]
      ∧ ref.ListsGroup "size" (ref.groupStates "size") := by
  intro config sized extending toA toB first second third
  have hmade : first.Made config :=
    Library.Made.empty.addSheet ⟨[], [sized "small", sized "large"]⟩ "/r/a.css" "a"
  obtain ⟨registered, hreachable⟩ :=
    (hmade.addSheet ⟨[toA], [extending "a"]⟩ "/r/b.css" "b").addSheet
      ⟨[toB], [extending "b", sized "large", sized "huge"]⟩ "/r/c.css" "c"
  -- What is shown is computed at once, as names and ids.
  have hrun : third.blocks.getLast?.map (fun block =>
      (block.lineage.map Block.id, (block.ownClass? "item").map fun ref =>
        (ref.groupStates "size").map fun state => (state.block.id, state.label.name)))
      = some ([3, 2, 1], some [(3, "large"), (3, "huge"), (1, "small")]) := by
    decide +kernel
  obtain ⟨block, hlast, hshown⟩ := Option.map_eq_some_iff.1 hrun
  obtain ⟨hids, hlisted⟩ := Prod.mk.inj hshown
  obtain ⟨ref, hown, hstates⟩ := Option.map_eq_some_iff.1 hlisted
  obtain ⟨hsame, -⟩ := Block.of_ownClass? hown
  have hblock := List.mem_of_getLast? hlast
  have hclass : block.class? "item" = some ref := by
    rw [Block.class?_eq, hown, Option.some_or]
  exact ⟨registered, block, ref, hreachable, hblock, hids, hclass, hsame, hstates,
    lists_groups hreachable (hsame.symm ▸ hblock) "size"⟩

end Workshop

end BlockStyles
