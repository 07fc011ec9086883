import BlockStyles.Proofs.Block.Find
import BlockStyles.Proofs.Template.Recording

/-!
# `BlockStyles.Proofs.Template.RoundTrip`: what is written down is restored

An object is written as the identifier of its block and its selector. It is found
again if the block is in a lineage that the analysis knows and no other block there
has its identifier: the last colon ends the identifier, since there is none in the
selector, and in its own block the selector means the object.

Objects are written in the order of their ids, and groups in the order of their
names. So each of them comes in its turn when an element is restored, and nothing is
lost, since no group is empty.

* `Analysis.objectFor_writtenId`: an object is found by its written id.
* `Analysis.blocksFor_toDocument`: the blocks are found under their aliases.
* `Analysis.elementFor_toEntry`: an element is restored with all that is attached to it.
* `Analysis.ofDocument_toDocument`: so is an analysis with all its elements.
-/

set_option autoImplicit false

namespace BlockStyles

open BlockStyles.Text (Position splitLast_append)

/-! ### Elements -/

namespace Element

/-- The object is attached to the element, in whatever way. It may be attached in
several ways at once. -/
def Attaches (element : Element) (object : Object) : Prop :=
  object ∈ element.statics.toList
    ∨ (∃ condition, (object, condition) ∈ element.dynamics.toList)
    ∨ ∃ entry ∈ element.exclusives.toList, object ∈ entry.2.toList

/-- The element as it is restored: under another id, and at its position if that is known. -/
def restored (element : Element) (id : Nat) : Element :=
  { element with id, position := if element.position.isKnown then element.position else .unknown }

/-- Attaches the members of a group, one after the other. This is how a group is
restored. -/
def addGroup (element : Element) (entry : String × ObjectSet) : Element :=
  entry.2.toList.foldl (fun element object => element.addExclusive entry.1 object) element

/-- Static objects that are attached one after the other are put to the static ones.
The other attachments are not touched by this. -/
theorem foldl_addStatic (element : Element) (objects : List Object) :
    objects.foldl addStatic element
      = { element with statics := objects.foldl SortedList.insertNew element.statics } := by
  induction objects generalizing element with
  | nil => rfl
  | cons object objects ih => exact ih (element.addStatic object)

/-- Conditional objects that are attached one after the other are put to the
conditional ones. -/
theorem foldl_addDynamic (element : Element) (entries : List (Object × Option String)) :
    entries.foldl (fun element entry => element.addDynamic entry.1 entry.2) element
      = { element with dynamics := entries.foldl SortedList.insertNew element.dynamics } := by
  induction entries generalizing element with
  | nil => rfl
  | cons entry entries ih => exact ih (element.addDynamic entry.1 entry.2)

/-- An object that is attached in a group is put to the members of the group. If the
group is new, it has no other member. -/
theorem groupObjects_addExclusive (element : Element) (group : String) (object : Object) :
    (element.addExclusive group object).groupObjects group
      = (element.groupObjects group).insertNew object := by
  have hfound : (element.addExclusive group object).exclusives.find? group
      = some (group, (element.groupObjects group).insertNew object) := by
    rw [addExclusive, SortedList.find?_insert, if_pos rfl]
  rw [groupObjects, hfound]

/-- An object that is attached in a group changes no other group. Groups are kept
under their names, so each of them can be followed by itself. -/
theorem groupObjects_addExclusive_of_ne (element : Element) {group other : String}
    (object : Object) (h : other ≠ group) :
    (element.addExclusive group object).groupObjects other = element.groupObjects other := by
  rw [groupObjects, groupObjects, addExclusive, SortedList.find?_insert, if_neg (Ne.symm h)]

/-- A group that is not there has no members. Adding to it is then the same as making
the group. -/
theorem groupObjects_of_new {element : Element} {group : String}
    (h : ∀ entry ∈ element.exclusives.toList, entry.1 ≠ group) :
    element.groupObjects group = .empty := by
  have hnone : element.exclusives.find? group = none := by
    cases hfind : element.exclusives.find? group with
    | none => rfl
    | some entry =>
      obtain ⟨hentry, hgroup⟩ := SortedList.find?_eq_some_iff.1 hfind
      exact absurd hgroup (h entry hentry)
  rw [groupObjects, hnone]

/-- Several members of one group together are one new entry for the group. Each of
them replaces the entry that the one before it has made. -/
theorem foldl_addExclusive (element : Element) (group : String) {objects : List Object}
    (h : objects ≠ []) :
    objects.foldl (fun element object => element.addExclusive group object) element
      = { element with
          exclusives := element.exclusives.insert
            (group, objects.foldl SortedList.insertNew (element.groupObjects group)) } := by
  induction objects generalizing element with
  | nil => exact absurd rfl h
  | cons object objects ih =>
    by_cases hmore : objects = []
    · subst hmore
      rfl
    · rw [List.foldl_cons, ih (element.addExclusive group object) hmore,
        groupObjects_addExclusive, addExclusive]
      simp only [SortedList.insert_insert, List.foldl_cons]

/-- A group that is new and not empty is added as it is. An empty group would leave no
trace, since groups come about by their members. -/
theorem addGroup_of_new {element : Element} {entry : String × ObjectSet}
    (hmembers : entry.2.toList ≠ [])
    (hnew : ∀ old ∈ element.exclusives.toList, old.1 ≠ entry.1) :
    element.addGroup entry = { element with exclusives := element.exclusives.insert entry } := by
  rw [addGroup, foldl_addExclusive element entry.1 hmembers, groupObjects_of_new hnew,
    SortedList.foldl_insertNew_toList]

/-- Groups that are new and not empty are added as they are. An empty one would not be
there afterwards, since nothing is attached for it. -/
theorem foldl_addGroup {element : Element} {groups : List (String × ObjectSet)}
    (hmembers : ∀ entry ∈ groups, entry.2.toList ≠ []) (hnodup : (groups.map Prod.fst).Nodup)
    (hnew : ∀ entry ∈ groups, ∀ old ∈ element.exclusives.toList, old.1 ≠ entry.1) :
    groups.foldl addGroup element
      = { element with exclusives := groups.foldl SortedList.insert element.exclusives } := by
  induction groups generalizing element with
  | nil => rfl
  | cons entry groups ih =>
    obtain ⟨hfresh, hnodup⟩ := List.nodup_cons.1 hnodup
    rw [List.foldl_cons, addGroup_of_new (hmembers entry List.mem_cons_self)
      (hnew entry List.mem_cons_self)]
    refine ih (fun e he => hmembers e (List.mem_cons_of_mem _ he)) hnodup fun e he old hold => ?_
    rcases SortedList.mem_insert hold with rfl | hold
    · exact fun heq => hfresh (heq ▸ List.mem_map_of_mem he)
    · exact hnew e (List.mem_cons_of_mem _ he) old hold

end Element

namespace Analysis

variable {analysis : Analysis}

/-! ### Objects -/

/-- The blocks whose objects can be on elements: those that have an alias, and all
that they extend. A block may be there several times. -/
def lineages (analysis : Analysis) : List Block :=
  analysis.blocks.toList.flatMap (·.2.lineage)

/-- An object is found by its written id. The last colon is the one between identifier
and selector, as there is none in the selector of a tidy block. -/
theorem objectFor_writtenId {object : Object} (htidy : object.block.Tidy)
    (hin : object.block ∈ analysis.lineages)
    (hdistinct : ∀ block ∈ analysis.lineages,
      block.identifier = object.block.identifier → block = object.block) :
    analysis.objectFor object.writtenId = .ok object := by
  have hcut : Text.splitLast ':' object.writtenId.toList
      = some (object.block.identifier.toList, object.source.toList) := by
    have hwritten : object.writtenId.toList
        = object.block.identifier.toList ++ ':' :: object.source.toList := by
      simp [Object.writtenId]
    rw [hwritten, splitLast_append _ (Object.colon_not_mem_source htidy)]
  have hblock : analysis.lineages.find?
      (·.identifier == String.ofList object.block.identifier.toList) = some object.block := by
    rw [String.ofList_toList]
    -- The first block of the identifier is the block of the object, as there is no other one.
    cases hfind : analysis.lineages.find? (·.identifier == object.block.identifier) with
    | none => exact absurd (beq_self_eq_true _) (List.find?_eq_none.1 hfind _ hin)
    | some block =>
      have hidentifier : block.identifier = object.block.identifier := by
        simpa using List.find?_some hfind
      rw [hdistinct block (List.mem_of_find?_eq_some hfind) hidentifier]
  rw [lineages] at hblock
  simp only [objectFor, hcut, hblock, Block.findObject?_source htidy]

/-! ### Restoring elements -/

section

variable {element : Element}
  (hfound : ∀ object, element.Attaches object → analysis.objectFor object.writtenId = .ok object)
include hfound

/-- The static objects that are written down are found and attached again. Each of
them is found by the id under which it was written. -/
theorem foldlM_statics (start : Element) :
    element.toEntry.statics.foldlM (fun (before : Element) written =>
        (analysis.objectFor written).map before.addStatic) start
      = .ok { start with
          statics := element.statics.toList.foldl SortedList.insertNew start.statics } := by
  rw [Element.toEntry, List.foldlM_map, ← Element.foldl_addStatic]
  refine foldlM_eq_ok (fun object hobject before => ?_) start
  rw [hfound object (.inl hobject)]
  rfl

/-- The conditional objects that are written down are found and attached again, with
their conditions. -/
theorem foldlM_dynamics (start : Element) :
    element.toEntry.dynamics.foldlM (fun (before : Element) dynamic =>
        (analysis.objectFor dynamic.id).map fun object =>
          before.addDynamic object dynamic.condition) start
      = .ok { start with
          dynamics := element.dynamics.toList.foldl SortedList.insertNew start.dynamics } := by
  rw [Element.toEntry, List.foldlM_map, ← Element.foldl_addDynamic]
  refine foldlM_eq_ok (fun entry hentry before => ?_) start
  rw [hfound entry.1 (.inr (.inl ⟨entry.2, hentry⟩))]
  rfl

/-- The objects in groups that are written down are found and attached again, group by
group. -/
theorem foldlM_exclusives (start : Element) :
    element.toEntry.exclusives.foldlM (fun (before : Element) choice =>
        (analysis.objectFor choice.id).map (before.addExclusive choice.group)) start
      = .ok (element.exclusives.toList.foldl Element.addGroup start) := by
  have hentries : element.toEntry.exclusives
      = (element.exclusives.toList.flatMap fun entry => entry.2.toList.map (Prod.mk entry.1)).map
          fun choice => ⟨choice.1, choice.2.writtenId⟩ := by
    simp [Element.toEntry, List.map_flatMap, Function.comp_def]
  -- The choices are read one by one, but those of one group come together.
  have hgroups : element.exclusives.toList.foldl Element.addGroup start
      = (element.exclusives.toList.flatMap fun entry => entry.2.toList.map (Prod.mk entry.1)).foldl
          (fun before choice => before.addExclusive choice.1 choice.2) start := by
    simp only [List.foldl_flatMap, List.foldl_map]
    rfl
  rw [hentries, hgroups, List.foldlM_map]
  refine foldlM_eq_ok (fun choice hchoice before => ?_) start
  obtain ⟨entry, hentry, hmember⟩ := List.mem_flatMap.1 hchoice
  obtain ⟨object, hobject, rfl⟩ := List.mem_map.1 hmember
  rw [hfound object (.inr (.inr ⟨entry, hentry, hobject⟩))]
  rfl

/-- An element is restored with all that is attached to it. The lists are sorted, so
that attaching their members in this order gives them back. -/
theorem elementFor_toEntry (id : Nat) (hmade : element.Made) :
    analysis.elementFor id element.toEntry = .ok (element.restored id) := by
  -- Sorted lists are made again by attaching their members one after the other.
  have hstatics : element.statics.toList.foldl SortedList.insertNew .empty = element.statics :=
    SortedList.foldl_insertNew_toList element.statics
  have hdynamics : element.dynamics.toList.foldl SortedList.insertNew .empty = element.dynamics :=
    SortedList.foldl_insertNew_toList element.dynamics
  have hexclusives : element.exclusives.toList.foldl SortedList.insert .empty
      = element.exclusives :=
    SortedList.ofList_toList element.exclusives
  have hposition : element.toEntry.position.getD .unknown = (element.restored id).position := by
    unfold Element.toEntry Element.restored
    dsimp only
    split <;> rfl
  refine bind_eq_ok.2 ⟨_, foldlM_statics hfound _, bind_eq_ok.2 ⟨_, foldlM_dynamics hfound _, ?_⟩⟩
  rw [foldlM_exclusives hfound, Element.foldl_addGroup hmade.group_ne_nil
    (SortedList.nodup_keys _) fun entry _ old hold => absurd hold List.not_mem_nil]
  dsimp only [Element.bare]
  rw [hstatics, hdynamics, hexclusives, hposition]
  rfl

end

/-! ### Analyses -/

/-- The objects on recorded elements can be told from what is written of them: they
are of known blocks, these come from text, and no two of them have the same
identifier. -/
structure Restorable (analysis : Analysis) : Prop where
  written : ∀ entry ∈ analysis.blocks.toList, entry.2.Written
  attached : ∀ element ∈ analysis.elements, ∀ object, element.Attaches object →
    object.block ∈ analysis.lineages
  distinct : ∀ block ∈ analysis.lineages, ∀ other ∈ analysis.lineages,
    block.identifier = other.identifier → block = other

/-- Each object on a recorded element is found by its written id. The identifiers of
blocks in reach are distinct, so no other block can be meant. -/
theorem Restorable.objectFor (h : analysis.Restorable) {element : Element}
    (helement : element ∈ analysis.elements) {object : Object} (hobject : element.Attaches object) :
    analysis.objectFor object.writtenId = .ok object := by
  have hin : object.block ∈ analysis.lineages := h.attached element helement object hobject
  obtain ⟨entry, hentry, hlineage⟩ := List.mem_flatMap.1 hin
  have hwritten : object.block.Written := (h.written entry hentry).of_mem_lineage hlineage
  exact objectFor_writtenId hwritten.tidy hin fun block hblock heq =>
    h.distinct block hblock object.block hin heq

/-- Every alias is written down with the identifier of its block, in the order of the
aliases. -/
theorem blocks_toDocument (analysis : Analysis) :
    analysis.toDocument.blocks.toList
      = analysis.blocks.toList.map fun entry => (entry.1, entry.2.identifier) :=
  SortedList.toList_ofList (List.pairwise_map.2 analysis.blocks.ascending)

/-- The blocks of a written analysis are found under their aliases, with the
identifiers that are written. -/
theorem blocksFor_toDocument (analysis : Analysis) :
    blocksFor analysis.toDocument analysis.blocks.toList = .ok analysis.blocks.toList := by
  rw [blocksFor, blocks_toDocument, List.mapM_map]
  refine (mapM_eq_ok (g := id) fun entry hentry => ?_).trans (by rw [List.map_id])
  dsimp only [Function.comp_apply]
  rw [SortedList.lookup_of_mem hentry]
  simp

/-- Elements are restored one after the other, each under the next id. Entries keep
the order of the elements, and so do the ids that are given out again. -/
theorem elementsFor_map_toEntry {elements : List Element}
    (hmade : ∀ element ∈ elements, element.Made)
    (hfound : ∀ element ∈ elements, ∀ object, element.Attaches object →
      analysis.objectFor object.writtenId = .ok object) (next : Nat) :
    analysis.elementsFor next (elements.map Element.toEntry)
      = .ok (elements.mapIdx fun i element => element.restored (next + i)) := by
  induction elements generalizing next with
  | nil => rfl
  | cons element elements ih =>
    have hrest := ih (fun e he => hmade e (List.mem_cons_of_mem _ he))
      (fun e he => hfound e (List.mem_cons_of_mem _ he)) (next + 1)
    have helement := elementFor_toEntry (hfound element List.mem_cons_self) next
      (hmade element List.mem_cons_self)
    -- The ids of the rest are counted from the next one.
    have hids : (fun i (e : Element) => e.restored (next + (i + 1)))
        = fun i e => e.restored (next + 1 + i) := by
      funext i e
      rw [Nat.add_assoc, Nat.add_comm 1]
    rw [List.mapIdx_cons, hids]
    exact bind_eq_ok.2 ⟨_, helement, bind_eq_ok.2 ⟨_, hrest, rfl⟩⟩

/-- The analysis as it is restored: closed, without the validators it may have had, and with
elements that have got new ids. -/
def restored (analysis : Analysis) (next : Nat) : Analysis where
  template := analysis.template
  blocks := analysis.blocks
  elements := analysis.elements.mapIdx fun i element => element.restored (next + i)
  validators := Options.default.validators
  stage := .closed

/-- What is written of a restored analysis is what was written of the first one. So a
second round of writing and restoring adds nothing to the first. -/
theorem toDocument_restored (analysis : Analysis) (next : Nat) :
    (analysis.restored next).toDocument = analysis.toDocument := by
  have hunknown : Position.unknown.isKnown = false := by decide
  have hentry : ∀ (element : Element) (id : Nat),
      (element.restored id).toEntry = element.toEntry := by
    intro element id
    cases hknown : element.position.isKnown <;>
      simp [Element.restored, Element.toEntry, hknown, hunknown]
  -- Nothing is written of ids, nor of a position that is not known.
  have hentries : (analysis.restored next).elements.map Element.toEntry
      = analysis.elements.map Element.toEntry := by
    refine List.ext_getElem? fun i => ?_
    simp [restored, Function.comp_def, hentry]
  rw [toDocument, hentries]
  rfl

/-- An analysis is restored from what is written of it, and the same is written of it
again. Restoring is given the blocks, since a document has only their identifiers. The
first hypothesis says that elements have come about by attaching, so that no group is
empty, and the second that written ids are not ambiguous. -/
theorem ofDocument_toDocument (hreached : analysis.Reached) (h : analysis.Restorable)
    (next : Nat) :
    ofDocument analysis.toDocument analysis.blocks.toList next = .ok (analysis.restored next)
      ∧ (analysis.restored next).toDocument = analysis.toDocument := by
  let fresh : Analysis := { begin analysis.template .default with blocks := analysis.blocks }
  -- Where an object is found depends on nothing but the blocks.
  have hfound : ∀ element ∈ analysis.elements, ∀ object, element.Attaches object →
      fresh.objectFor object.writtenId = .ok object :=
    fun element helement object hobject => h.objectFor helement hobject
  have helements : fresh.elementsFor next (analysis.elements.map Element.toEntry)
      = .ok (analysis.restored next).elements :=
    elementsFor_map_toEntry hreached.made hfound next
  refine ⟨bind_eq_ok.2 ⟨_, blocksFor_toDocument analysis, ?_⟩, toDocument_restored analysis next⟩
  rw [SortedList.ofList_toList]
  exact bind_eq_ok.2 ⟨_, helements, rfl⟩

/-- The identifier of a block may hold a colon, as the written ids of its objects do.
An id is split at its last colon, and the selector behind it has none. -/
theorem ofDocument_toDocument_colon :
    let block : Block := .bare 0 "b" "dir:b.css" []
    let root : Object := .cls block.rootRef
    let element := (((Element.bare 4 .unknown).addStatic root).addDynamic root (some "isLarge"))
      |>.addExclusive "size" root
    let analysis : Analysis :=
      { (begin "t.hbs" .default).addBlock "b" block with elements := [element] }
    ofDocument analysis.toDocument analysis.blocks.toList 7 = .ok (analysis.restored 7)
      ∧ (analysis.restored 7).toDocument = analysis.toDocument := by
  intro block root element analysis
  have hmade : element.Made :=
    ((Element.Made.bare 4 .unknown).addStatic root |>.addDynamic root (some "isLarge")
      |>.addExclusive "size" root)
  -- The element was recorded, so the analysis can be reached.
  have hreached : analysis.Reached := by
    have hopen := Reached.begin "t.hbs" .default
      |>.step (.addBlock _ "b" block) |>.step (.start 4 .unknown rfl)
    exact hopen.step (.finish _ hmade)
  have hwritten : block.Written :=
    .intro "" ⟨[], []⟩ 0 "b" "dir:b.css" [] block Stylesheet.ofSource_empty nofun rfl
  have hlineages : ∀ known ∈ analysis.lineages, known = block := by
    intro known hknown
    exact List.mem_singleton.1 hknown
  refine ofDocument_toDocument hreached ⟨?_, ?_, ?_⟩ 7
  · intro entry hentry
    cases List.mem_singleton.1 hentry
    exact hwritten
  · intro recorded hrecorded object hobject
    cases List.mem_singleton.1 hrecorded
    have hroot : object = root := by
      rcases hobject with hstatic | ⟨condition, hdynamic⟩ | ⟨entry, hentry, hmember⟩
      · exact List.mem_singleton.1 hstatic
      · cases List.mem_singleton.1 hdynamic
        rfl
      · cases List.mem_singleton.1 hentry
        exact List.mem_singleton.1 hmember
    rw [hroot]
    exact List.mem_singleton_self block
  · intro known hknown other hother _
    rw [hlineages known hknown, hlineages other hother]

end Analysis

end BlockStyles
