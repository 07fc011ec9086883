import BlockStyles.Proofs.Template.RoundTrip

/-!
# `BlockStyles.Proofs.Template.Canonical`: documents that have been read once

A document may name an object in many ways: with white space and quotes in the selector,
without a selector for the root, through a block that only inherits the object, or several
times, and its entries may stand in any order. An analysis that is restored from it holds
the objects themselves. What is written of the analysis names each of them by its own
block and selector, once for each way of attaching, in the order of their ids. That
document is restored to the same objects, and is written again as it is.

* `Element.Answers`: an element has the objects that an entry names, as it names them.
* `Analysis.Renders`: an analysis is what a document says, with given blocks.
* `Analysis.renders_of_ofDocument`: so is an analysis that has been restored from it.
* `Analysis.Renders.restorable`: a restored analysis can be told from what is written of it.
* `Analysis.ofDocument_canonical`: a document is brought into its final form at once.
-/

set_option autoImplicit false

namespace BlockStyles

open BlockStyles.Text (Position)

/-! ### Entries and elements -/

namespace Element

/-- The element has the objects that the entry names, each in the way in which it is
named there. `idOf` is the id of the object that a name stands for. Nothing is said
about the order of the names, but that of the conditions for one object. -/
structure Answers (idOf : String → Option ObjectId) (entry : Document.Entry) (element : Element) :
    Prop where
  position : element.position = entry.position.getD .unknown
  statics : ∀ id, element.statics.contains id ↔ ∃ written ∈ entry.statics, idOf written = some id
  /-- Of several conditions for an object the first counts. -/
  dynamics : ∀ id, (element.dynamics.find? id).map Prod.snd
    = (entry.dynamics.find? (idOf ·.id == some id)).map Document.Dynamic.condition
  exclusives : ∀ group id, (element.groupObjects group).contains id ↔
    ∃ choice ∈ entry.exclusives, choice.group = group ∧ idOf choice.id = some id

variable {idOf : String → Option ObjectId} {position : Option Position} {statics : List String}
  {dynamics : List Document.Dynamic} {exclusives : List Document.Exclusive} {element : Element}
  {object : Object}

/-- A bare element answers an entry that names nothing. The position is that of the
entry, or the unknown one if there is none. -/
theorem answers_bare (id : Nat) :
    Answers idOf ⟨position, [], [], []⟩ (.bare id (position.getD .unknown)) where
  position := rfl
  statics id := by simp [bare, SortedList.contains, SortedList.find?, SortedList.empty]
  dynamics id := rfl
  exclusives group id := by
    simp [bare, groupObjects, SortedList.contains, SortedList.find?, SortedList.empty]

/-- If one more static object is named and attached, the element still answers. An
element knows its objects by their ids, and the names are those under which they were
looked up. -/
theorem Answers.addStatic (h : Answers idOf ⟨position, statics, dynamics, exclusives⟩ element)
    {written : String} (hid : idOf written = some object.id) :
    Answers idOf ⟨position, statics ++ [written], dynamics, exclusives⟩
      (element.addStatic object) where
  position := h.position
  statics id := by
    rw [Element.addStatic, SortedList.contains_insertNew, h.statics]
    simp [or_and_right, exists_or, hid]
  dynamics := h.dynamics
  exclusives := h.exclusives

/-- If one more conditional object is named and attached, the element still answers.
If it is there already, its condition is that of the first name for it. -/
theorem Answers.addDynamic (h : Answers idOf ⟨position, statics, dynamics, exclusives⟩ element)
    {dynamic : Document.Dynamic} (hid : idOf dynamic.id = some object.id) :
    Answers idOf ⟨position, statics, dynamics ++ [dynamic], exclusives⟩
      (element.addDynamic object dynamic.condition) where
  position := h.position
  statics := h.statics
  dynamics id := by
    rw [Element.addDynamic, SortedList.find?_insertNew, List.find?_append, Option.map_or,
      Option.map_or, h.dynamics, List.find?_singleton, hid]
    by_cases heq : object.id = id <;> simp [heq]
  exclusives := h.exclusives

/-- If one more object is named and attached in a group, the element still answers.
Whether the group has been there before plays no role. -/
theorem Answers.addExclusive (h : Answers idOf ⟨position, statics, dynamics, exclusives⟩ element)
    {choice : Document.Exclusive} (hid : idOf choice.id = some object.id) :
    Answers idOf ⟨position, statics, dynamics, exclusives ++ [choice]⟩
      (element.addExclusive choice.group object) where
  position := h.position
  statics := h.statics
  dynamics := h.dynamics
  exclusives group id := by
    by_cases hgroup : group = choice.group
    · subst hgroup
      rw [groupObjects_addExclusive, SortedList.contains_insertNew, h.exclusives]
      simp [or_and_right, exists_or, hid]
    -- The other groups are as they were.
    · rw [groupObjects_addExclusive_of_ne element object hgroup, h.exclusives]
      simp [or_and_right, exists_or, Ne.symm hgroup]

/-- What is attached to an element has been attached before or is the object that is
added. Here this is said of a static one. -/
theorem Attaches.of_addStatic {other : Object} (h : (element.addStatic object).Attaches other) :
    other = object ∨ element.Attaches other := by
  rcases h with h | h | h
  · exact (SortedList.mem_insertNew h).imp_right .inl
  · exact .inr (.inr (.inl h))
  · exact .inr (.inr (.inr h))

/-- What is attached to an element has been attached before or is the conditional
object that is added. -/
theorem Attaches.of_addDynamic {condition : Option String} {other : Object}
    (h : (element.addDynamic object condition).Attaches other) :
    other = object ∨ element.Attaches other := by
  rcases h with h | ⟨known, h⟩ | h
  · exact .inr (.inl h)
  · rcases SortedList.mem_insertNew h with heq | h
    · exact .inl (congrArg Prod.fst heq)
    · exact .inr (.inr (.inl ⟨known, h⟩))
  · exact .inr (.inr (.inr h))

/-- A member of a group is attached to the element. -/
theorem attaches_of_mem_groupObjects {group : String} {other : Object}
    (h : other ∈ (element.groupObjects group).toList) : element.Attaches other := by
  unfold groupObjects at h
  split at h
  · rename_i name objects hfind
    exact .inr (.inr ⟨_, (SortedList.find?_eq_some_iff.1 hfind).1, h⟩)
  · cases h

/-- What is attached to an element has been attached before or is the member that is
added to a group: the group that is put in place of the old one has the members of
that. -/
theorem Attaches.of_addExclusive {group : String} {other : Object}
    (h : (element.addExclusive group object).Attaches other) :
    other = object ∨ element.Attaches other := by
  rcases h with h | h | ⟨entry, hentry, h⟩
  · exact .inr (.inl h)
  · exact .inr (.inr (.inl h))
  · rcases SortedList.mem_insert hentry with rfl | hentry
    · exact (SortedList.mem_insertNew h).imp_right attaches_of_mem_groupObjects
    · exact .inr (.inr (.inr ⟨entry, hentry, h⟩))

/-- All objects on the element are of these blocks. -/
def ComesFrom (element : Element) (blocks : List Block) : Prop :=
  ∀ object, element.Attaches object → object.block ∈ blocks

end Element

/-- The blocks that the aliases of a document stand for. An alias that nothing is
given for is left out. -/
def Document.named (document : Document) (blocks : List (String × Block)) : List Block :=
  document.blocks.toList.filterMap fun entry => blocks.lookup entry.1

namespace Analysis

variable {analysis : Analysis} {document : Document} {blocks : List (String × Block)}

/-- The id of the object that a written id stands for. This is what elements are
compared with an entry by. -/
def idFor (analysis : Analysis) (written : String) : Option ObjectId :=
  (analysis.objectFor written).toOption.map Object.id

/-- The analysis is what the document says, with the given blocks. It is told by what
the document means, since the document may say it in many ways. -/
structure Renders (document : Document) (blocks : List (String × Block)) (analysis : Analysis) :
    Prop where
  closed : analysis.stage = .closed
  template : analysis.template = document.template
  /-- Its aliases are those of the document, for blocks with the identifiers given there, -/
  aliases : analysis.toDocument.blocks = document.blocks
  /-- and each of them stands for the block that is given. -/
  given : ∀ entry ∈ analysis.blocks.toList, blocks.lookup entry.1 = some entry.2
  /-- Its elements are those of the document, one for each entry and in the same order. -/
  elements : List.Forall₂ (Element.Answers analysis.idFor) document.elements analysis.elements
  /-- All objects come from its blocks and from those that they extend. -/
  attached : ∀ element ∈ analysis.elements, element.ComesFrom analysis.lineages

/-! ### Objects and elements -/

/-- An object that is found comes from a block that has an alias, or from one that
such a block extends. The block that the id names is one of those, and the object may
come from a base of it. -/
theorem block_mem_of_objectFor {written : String} {object : Object}
    (h : analysis.objectFor written = .ok object) : object.block ∈ analysis.lineages := by
  unfold objectFor at h
  dsimp only at h
  split at h
  · rename_i found hfound
    cases h
    split at hfound
    · cases hfound
    · split at hfound
      · rename_i block hblock
        obtain ⟨entry, hentry, hlineage⟩ :=
          List.mem_flatMap.1 (List.mem_of_find?_eq_some hblock)
        exact List.mem_flatMap.2
          ⟨entry, hentry, Block.mem_lineage_trans hlineage (Block.block_mem_of_findObject? hfound)⟩
      · cases hfound
  · cases h

/-- The id of an object that is found is the one that its name stands for. Two names
stand for one object if they have one id, so names are compared by it. -/
theorem idFor_of_objectFor {written : String} {object : Object}
    (h : analysis.objectFor written = .ok object) : analysis.idFor written = some object.id := by
  rw [idFor, h]
  rfl

/-- An element that is restored has the objects that its entry names. Its names are
gone through in three rounds, one for each way of attaching. -/
theorem answers_of_elementFor {id : Nat} {entry : Document.Entry} {element : Element}
    (h : analysis.elementFor id entry = .ok element) :
    element.Answers analysis.idFor entry := by
  obtain ⟨withStatics, hstatics, h⟩ := bind_eq_ok.1 h
  obtain ⟨withDynamics, hdynamics, hexclusives⟩ := bind_eq_ok.1 h
  -- After each step the element answers the part of the entry that has been gone through.
  have hafterStatics : withStatics.Answers analysis.idFor
      ⟨entry.position, [] ++ entry.statics, [], []⟩ := by
    refine foldlM_keeps_passed (P := fun before passed =>
      before.Answers analysis.idFor ⟨entry.position, passed, [], []⟩)
      (fun written _ before after passed hadd hbefore => ?_) hstatics (Element.answers_bare id)
    obtain ⟨object, hobject, rfl⟩ := map_eq_ok.1 hadd
    exact hbefore.addStatic (idFor_of_objectFor hobject)
  have hafterDynamics : withDynamics.Answers analysis.idFor
      ⟨entry.position, entry.statics, [] ++ entry.dynamics, []⟩ := by
    refine foldlM_keeps_passed (P := fun before passed =>
      before.Answers analysis.idFor ⟨entry.position, entry.statics, passed, []⟩)
      (fun dynamic _ before after passed hadd hbefore => ?_) hdynamics hafterStatics
    obtain ⟨object, hobject, rfl⟩ := map_eq_ok.1 hadd
    exact hbefore.addDynamic (idFor_of_objectFor hobject)
  refine foldlM_keeps_passed (P := fun before passed =>
    before.Answers analysis.idFor ⟨entry.position, entry.statics, entry.dynamics, passed⟩)
    (fun choice _ before after passed hadd hbefore => ?_) hexclusives hafterDynamics
  obtain ⟨object, hobject, rfl⟩ := map_eq_ok.1 hadd
  exact hbefore.addExclusive (idFor_of_objectFor hobject)

/-- All objects on an element that is restored come from known blocks, because each of
them has been found. -/
theorem attached_of_elementFor {id : Nat} {entry : Document.Entry} {element : Element}
    (h : analysis.elementFor id entry = .ok element) : element.ComesFrom analysis.lineages := by
  refine elementFor_keeps (P := fun e : Element => e.ComesFrom analysis.lineages) h
    ?bare ?static ?dynamic ?exclusive
  case bare =>
    rintro object (hobject | ⟨condition, hobject⟩ | ⟨group, hgroup, -⟩)
    · cases hobject
    · cases hobject
    · cases hgroup
  -- An attachment adds an object that has been found.
  case static =>
    intro before written object hobject hbefore other hother
    rcases hother.of_addStatic with rfl | hother
    · exact block_mem_of_objectFor hobject
    · exact hbefore other hother
  case dynamic =>
    intro before written condition object hobject hbefore other hother
    rcases hother.of_addDynamic with rfl | hother
    · exact block_mem_of_objectFor hobject
    · exact hbefore other hother
  case exclusive =>
    intro before written group object hobject hbefore other hother
    rcases hother.of_addExclusive with rfl | hother
    · exact block_mem_of_objectFor hobject
    · exact hbefore other hother

/-! ### Blocks -/

/-- Each alias of the document is restored with the block that is given for it, which
has the identifier that is written down. If one of the blocks is missing or has
another one, nothing is restored. -/
theorem blocksFor_eq_ok_iff {restored : List (String × Block)} :
    blocksFor document blocks = .ok restored ↔
      List.Forall₂ (fun written entry => entry.1 = written.1 ∧ entry.2.identifier = written.2
        ∧ blocks.lookup written.1 = some entry.2) document.blocks.toList restored := by
  rw [blocksFor, mapM_eq_ok_iff]
  refine Iff.of_eq (congrArg (fun R => List.Forall₂ R _ _) ?_)
  funext written entry
  obtain ⟨localName, identifier⟩ := written
  obtain ⟨name, block⟩ := entry
  refine propext ?_
  dsimp only
  cases hfind : blocks.lookup localName with
  | none => simp
  | some found =>
    by_cases hidentifier : found.identifier = identifier
    · grind
    · grind

/-- The blocks that a document leads to are those of the analysis that renders it. So
the two speak of the same lineages. -/
theorem Renders.named (h : analysis.Renders document blocks) :
    document.named blocks = analysis.blocks.toList.map Prod.snd := by
  have hblocks : document.blocks.toList
      = analysis.blocks.toList.map fun entry => (entry.1, entry.2.identifier) := by
    rw [← h.aliases, blocks_toDocument]
  rw [Document.named, hblocks, List.filterMap_map, ← List.filterMap_eq_map]
  exact List.filterMap_congr h.given

/-- What is restored renders the document. Of the elements, one is restored for each
entry, by the blocks that have been found before. -/
theorem renders_of_ofDocument {next : Nat} (h : ofDocument document blocks next = .ok analysis) :
    analysis.Renders document blocks := by
  obtain ⟨restored, hrestored, h⟩ := bind_eq_ok.1 h
  obtain ⟨elements, helements, h⟩ := bind_eq_ok.1 h
  cases h
  have hentries := blocksFor_eq_ok_iff.1 hrestored
  have helements := forall₂_of_elementsFor helements
  have hwritten : restored.map (fun entry => (entry.1, entry.2.identifier))
      = document.blocks.toList := by
    refine (List.forall₂_eq_eq_eq ▸ List.forall₂_map_left_iff.2 (hentries.flip.imp ?_))
    rintro ⟨name, block⟩ ⟨localName, identifier⟩ ⟨rfl, rfl, -⟩
    rfl
  -- The aliases come in the order of the document, so none of them gets lost.
  have hlist : (SortedList.ofList Prod.fst restored).toList = restored :=
    SortedList.toList_ofList (List.pairwise_map.1 (hwritten ▸ document.blocks.ascending))
  constructor
  case closed => rfl
  case template => rfl
  case aliases =>
    refine SortedList.ext ?_
    rw [blocks_toDocument]
    dsimp only
    rw [hlist, hwritten]
  case given =>
    dsimp only
    rw [hlist]
    intro entry hentry
    obtain ⟨written, -, hname, -, hgiven⟩ := exists_of_forall₂ hentries hentry
    rw [hname, hgiven]
  -- Where an object is found depends on nothing but the blocks.
  case elements =>
    exact helements.imp fun entry element ⟨id, helement⟩ => answers_of_elementFor helement
  case attached =>
    intro element helement
    obtain ⟨entry, -, id, hentry⟩ := exists_of_forall₂ helements helement
    exact attached_of_elementFor hentry

/-! ### The final form -/

/-- The blocks of a written analysis are those that are given for the document. So the
document that is written of it can be read with the same blocks. -/
theorem Renders.blocksFor (h : analysis.Renders document blocks) :
    Analysis.blocksFor analysis.toDocument blocks = .ok analysis.blocks.toList := by
  rw [blocksFor_eq_ok_iff, blocks_toDocument, List.forall₂_map_left_iff, List.forall₂_same]
  exact fun entry hentry => ⟨rfl, rfl, h.given entry hentry⟩

section

variable (hwritten : ∀ block ∈ document.named blocks, block.Written)
  (hdistinct : ∀ block ∈ (document.named blocks).flatMap Block.lineage,
    ∀ other ∈ (document.named blocks).flatMap Block.lineage,
      block.identifier = other.identifier → block = other)
include hwritten hdistinct

/-- An analysis that renders a document can be told from what is written of it. What
this asks of blocks is known of those that the document names. -/
theorem Renders.restorable (h : analysis.Renders document blocks) : analysis.Restorable := by
  have hlineages : (document.named blocks).flatMap Block.lineage = analysis.lineages := by
    rw [h.named, List.flatMap_map, lineages]
  exact {
    written := fun entry hentry => hwritten entry.2 (h.named ▸ List.mem_map_of_mem hentry)
    attached := h.attached
    distinct := hlineages ▸ hdistinct }

/-- A document is brought into its final form at once: the analysis that is restored
from it is written as a document from which the same objects are restored, and which
is written again. The ids of elements are new each time, and are not written down. -/
theorem ofDocument_canonical {next : Nat} (h : ofDocument document blocks next = .ok analysis) :
    analysis.Renders document blocks ∧ ∀ next' : Nat,
      ofDocument analysis.toDocument blocks next' = .ok (analysis.restored next')
        ∧ (analysis.restored next').toDocument = analysis.toDocument := by
  have hrenders := renders_of_ofDocument h
  have hrestorable := hrenders.restorable hwritten hdistinct
  obtain ⟨restored, -, h⟩ := bind_eq_ok.1 h
  obtain ⟨elements, helements, h⟩ := bind_eq_ok.1 h
  have hmade : ∀ element ∈ analysis.elements, element.Made := by
    cases h
    exact made_of_elementsFor helements
  refine ⟨hrenders, fun next' => ⟨?_, toDocument_restored analysis next'⟩⟩
  let fresh : Analysis := { begin analysis.template .default with blocks := analysis.blocks }
  -- Where an object is found depends on nothing but the blocks.
  have hfound : ∀ element ∈ analysis.elements, ∀ object, element.Attaches object →
      fresh.objectFor object.writtenId = .ok object :=
    fun element helement object hobject => hrestorable.objectFor helement hobject
  have hagain : fresh.elementsFor next' (analysis.elements.map Element.toEntry)
      = .ok (analysis.restored next').elements :=
    elementsFor_map_toEntry hmade hfound next'
  refine bind_eq_ok.2 ⟨_, hrenders.blocksFor, ?_⟩
  rw [SortedList.ofList_toList]
  exact bind_eq_ok.2 ⟨_, hagain, rfl⟩

end

/-- The root of a block is named in four ways, twice for good and with two conditions.
The document that is written then has each of them once, without the condition where
there is an attachment for good. -/
theorem ofDocument_canonical_root :
    let block : Block := .bare 0 "b" "dir:b.css" []
    let document : Document := {
      template := "t.hbs"
      blocks := .ofList Prod.fst [("b", "dir:b.css")]
      elements := [{
        position := none
        statics := ["dir:b.css: .root", "dir:b.css:"]
        dynamics := [⟨"dir:b.css:.root", none⟩, ⟨"dir:b.css:  ", some "isLarge"⟩]
        exclusives := [⟨"size", "dir:b.css:"⟩] }] }
    let final : Document.Entry := {
      position := none
      statics := ["dir:b.css:.root"]
      dynamics := [⟨"dir:b.css:.root", none⟩]
      exclusives := [⟨"size", "dir:b.css:.root"⟩] }
    ∃ analysis : Analysis, (ofDocument document [("b", block)] 3 = .ok analysis
        ∧ analysis.toDocument.elements = [final])
      ∧ analysis.Renders document [("b", block)] ∧ ∀ next' : Nat,
        ofDocument analysis.toDocument [("b", block)] next' = .ok (analysis.restored next')
          ∧ (analysis.restored next').toDocument = analysis.toDocument := by
  intro block document final
  have hwritten : block.Written :=
    .intro "" ⟨[], []⟩ 0 "b" "dir:b.css" [] block Stylesheet.ofSource_empty nofun rfl
  have hnamed : document.named [("b", block)] = [block] := rfl
  -- That it is restored, and as what, is found by computing.
  have hfinal : (ofDocument document [("b", block)] 3).map (·.toDocument.elements)
      = .ok [final] := by decide +kernel
  obtain ⟨analysis, hrestored, hagain⟩ := map_eq_ok.1 hfinal
  refine ⟨analysis, ⟨hrestored, hagain⟩, ofDocument_canonical ?_ ?_ hrestored⟩
  · intro known hknown
    cases List.mem_singleton.1 (hnamed ▸ hknown)
    exact hwritten
  · intro known hknown other hother _
    rw [List.mem_singleton.1 hknown, List.mem_singleton.1 hother]

end Analysis

end BlockStyles
