import BlockStyles.Proofs.Template.Attachments
import BlockStyles.Proofs.Template.Histories

/-!
# `BlockStyles.Proofs.Template.Aliases`: what the aliases of an analysis lead to

An element is recorded if an alias leads to the block of each of its objects: it stands
for this block or for one that extends it. Nothing that has been recorded is looked at
again, but aliases can be given to other blocks at any time. An object stays within reach
as long as an alias that led to its block is given to no block but those that extend it,
and it can get out of reach otherwise.

The aliases of an analysis can be read off the events of a run, as its elements can:
`Analysis.Advances` says what one event makes of both.

* `Covers.foldl_insert`: what keeps an alias leading to a block.
* `Desk.Run.covers_recorded`: when an element was recorded, an alias led to the block of each of its
  objects.
* `Desk.Run.recorded_resolvable`: what the objects on recorded elements can be traced to.
* `Desk.uncovered_after_addBlock`: an object gets out of reach.
-/

set_option autoImplicit false

namespace BlockStyles

/-- The alias and the block that the analysis at place `i` is given. -/
def Event.added? (i : Nat) : Event → Option (String × Block)
  | .call j (.addBlock localName block) _ => if j = i then some (localName, block) else none
  | _ => none

/-- The aliases that the analysis at place `i` has been given, each with its last
block. They are read off the events alone. -/
def aliases (i : Nat) (events : List Event) : SortedList (Prod.fst : String × Block → String) :=
  .ofList Prod.fst (events.filterMap (Event.added? i))

/-- The alias leads to the block: it stands for this block or for one that extends it.
This is what is asked of the blocks of all objects when an element ends. -/
def Covers (blocks : SortedList (Prod.fst : String × Block → String)) (localName : String)
    (origin : Block) : Prop :=
  ∃ block, blocks.find? localName = some (localName, block) ∧ block.inherits origin

/-- The ids of all objects on a written element. -/
def Document.Entry.ids (entry : Document.Entry) : List String :=
  entry.statics ++ entry.dynamics.map Document.Dynamic.id
    ++ entry.exclusives.map Document.Exclusive.id

namespace Analysis

/-- The alias, which the document gives with the identifier of its block, leads to the
block of the object. If no other block of the lineage has the id of that block, the
lineage holds the block itself, whose identifier is written down for the object. -/
def Traces (analysis : Analysis) (localName : String) (object : Object) : Prop :=
  ∃ block, analysis.blocks.find? localName = some (localName, block) ∧
    analysis.toDocument.blocks.find? localName = some (localName, block.identifier) ∧
    block.inherits object.block ∧
    ((∀ ancestor ∈ block.lineage, ancestor.id = object.block.id → ancestor = object.block) →
      object.block ∈ block.lineage)

/-- What the events say of the blocks of the analysis at place `i`, and of the objects on
its elements. -/
structure Resolves (i : Nat) (events : List Event) (analysis : Analysis) : Prop where
  /-- Its blocks are those that it has been given, the last one for each alias. -/
  blocks_eq : analysis.blocks = aliases i events
  /-- Whatever id is written down is the one of an object on a recorded element. -/
  ids : ∀ entry ∈ analysis.toDocument.elements, ∀ id ∈ entry.ids,
    ∃ element ∈ analysis.elements, ∃ object, element.Attaches object ∧
      id = object.block.identifier ++ ":" ++ object.source
  /-- When the end of an element was accepted, an alias led to the block of each of its
  objects, and every alias that did still does, for the document too, if all blocks that it
  has been given since extend the block of the object. -/
  covered : ∀ element ∈ analysis.elements, ∃ earlier later,
    events = earlier ++ .call i (.finish element) (.ok none) :: later ∧
      ∀ object, element.Attaches object →
        (∃ localName, Covers (aliases i earlier) localName object.block) ∧
        ∀ localName, Covers (aliases i earlier) localName object.block →
          (∀ block answer, .call i (.addBlock localName block) answer ∈ later →
            block.inherits object.block) →
          analysis.Traces localName object

/-- What an event makes of the blocks and the elements of the analysis at place `i`.
No more than this is needed to say what aliases lead to after a run. -/
structure Advances (i : Nat) (event : Event) (before after : Analysis) : Prop where
  blocks_eq : after.blocks = (event.added? i).toList.foldl SortedList.insert before.blocks
  /-- An element whose end is accepted has not been objected to. -/
  elements : after.elements = before.elements ∨
    ∃ element, event = .call i (.finish element) (.ok none) ∧
      before.objection? element = none ∧ after.elements = before.elements ++ [element]

end Analysis

/-! ### Aliases -/

section

variable {i : Nat} {events later : List Event} {event : Event}
  {blocks : SortedList (Prod.fst : String × Block → String)} {localName : String} {origin : Block}

/-- Aliases that are given later are put to those that are there, one after the other. -/
theorem aliases_append (i : Nat) (events later : List Event) :
    aliases i (events ++ later)
      = (later.filterMap (Event.added? i)).foldl SortedList.insert (aliases i events) := by
  rw [aliases, SortedList.ofList, List.filterMap_append, List.foldl_append]
  rfl

/-- One more event gives one alias at the most. Most events give none, and then the
aliases stay as they are. -/
theorem aliases_concat (i : Nat) (events : List Event) (event : Event) :
    aliases i (events ++ [event])
      = (event.added? i).toList.foldl SortedList.insert (aliases i events) := by
  rw [aliases_append]
  cases h : event.added? i <;> simp [h]

/-- An alias is given by a call to add a block, and by nothing else. It does not
matter what the answer was: such a call always succeeds. -/
theorem Event.mem_of_added? {entry : String × Block} (h : entry ∈ event.added? i) :
    ∃ answer, event = .call i (.addBlock entry.1 entry.2) answer := by
  unfold added? at h
  split at h
  · rename_i j localName block answer
    obtain ⟨rfl, hentry⟩ := Option.ite_none_right_eq_some.1 h
    cases hentry
    exact ⟨answer, rfl⟩
  · cases h

/-- What happens elsewhere gives no alias here. -/
theorem Event.added?_eq_none (h : ∀ call answer, event ≠ .call i call answer) :
    event.added? i = none := by
  cases hadded : event.added? i with
  | none => rfl
  | some entry =>
    obtain ⟨answer, hevent⟩ := Event.mem_of_added? hadded
    exact absurd hevent (h _ answer)

/-- An analysis that nothing has been asked of has no aliases. This is how the aliases
of an analysis start out. -/
theorem aliases_eq_empty (h : ∀ call answer, .call i call answer ∉ events) :
    aliases i events = .empty := by
  have hnone : events.filterMap (Event.added? i) = [] := by
    refine List.filterMap_eq_nil_iff.2 fun event hevent => ?_
    refine Event.added?_eq_none fun call answer heq => ?_
    exact h call answer (heq ▸ hevent)
  rw [aliases, hnone]
  rfl

/-- An alias that is given to a block that extends the origin leads there afterwards,
and so do all the others that have led there. Only the block of this one alias is
replaced. -/
theorem Covers.insert (h : Covers blocks localName origin) {entry : String × Block}
    (hentry : entry.1 = localName → entry.2.inherits origin) :
    Covers (blocks.insert entry) localName origin := by
  obtain ⟨block, hfind, hinherits⟩ := h
  by_cases hname : entry.1 = localName
  · refine ⟨entry.2, ?_, hentry hname⟩
    rw [SortedList.find?_insert, if_pos hname, ← hname]
  · refine ⟨block, ?_, hinherits⟩
    rw [SortedList.find?_insert, if_neg hname, hfind]

/-- An alias goes on leading to a block as long as it is given to none but blocks that
extend it. What other aliases are given to does not matter. -/
theorem Covers.foldl_insert (h : Covers blocks localName origin) {entries : List (String × Block)}
    (hentries : ∀ block, (localName, block) ∈ entries → block.inherits origin) :
    Covers (entries.foldl SortedList.insert blocks) localName origin := by
  induction entries generalizing blocks with
  | nil => exact h
  | cons entry entries ih =>
    refine ih (h.insert ?_) fun block hblock => hentries block (List.mem_cons_of_mem entry hblock)
    rintro rfl
    exact hentries entry.2 List.mem_cons_self

/-- An alias of an analysis goes on leading to a block under the same condition,
whatever else happens later in the run. -/
theorem Covers.aliases_append (h : Covers (aliases i events) localName origin)
    (hlater : ∀ block answer, .call i (.addBlock localName block) answer ∈ later →
      block.inherits origin) : Covers (aliases i (events ++ later)) localName origin := by
  rw [BlockStyles.aliases_append]
  refine h.foldl_insert fun block hblock => ?_
  obtain ⟨event, hevent, hadded⟩ := List.mem_filterMap.1 hblock
  obtain ⟨answer, rfl⟩ := Event.mem_of_added? hadded
  exact hlater block answer hevent

end

/-! ### What is recorded and written down -/

namespace Analysis

variable {i : Nat} {event : Event} {analysis after : Analysis}

/-- If nothing is objected to an element, an alias leads to the block of each of its
objects. The check looks at blocks by their ids, so this holds of every object that is
attached, and not only of those listed. -/
theorem covers_of_objection? {element : Element} (h : analysis.objection? element = none)
    {object : Object} (hobject : element.Attaches object) :
    ∃ localName, Covers analysis.blocks localName object.block := by
  -- What has been looked at is an object with the same id, of a block with the same id.
  obtain ⟨listed, hlisted, hid⟩ := Element.exists_mem_objects hobject
  have hblock : listed.block.id = object.block.id := by
    rw [← listed.block_id, ← object.block_id, hid]
  unfold objection? at h
  split at h
  · cases h
  · rename_i hknown
    have hfound := List.find?_eq_none.1 hknown listed hlisted
    rw [Context.aliasFor?, Option.isNone_map, Bool.not_eq_true, Option.isNone_eq_false_iff,
      List.find?_isSome] at hfound
    obtain ⟨⟨localName, block⟩, hentry, hinherits⟩ := hfound
    refine ⟨localName, block, SortedList.find?_eq_some_iff.2 ⟨hentry, rfl⟩, ?_⟩
    rw [Block.inherits, ← hblock]
    exact hinherits

/-- An alias that leads to the block of an object does so in the document, which gives
every alias with the identifier of its block. -/
theorem traces_of_covers {localName : String} {object : Object}
    (h : Covers analysis.blocks localName object.block) : analysis.Traces localName object := by
  obtain ⟨block, hfind, hinherits⟩ := h
  refine ⟨block, hfind, ?_, hinherits, fun hdistinct => ?_⟩
  · refine SortedList.find?_eq_some_iff.2 ⟨?_, rfl⟩
    rw [blocks_toDocument]
    exact List.mem_map_of_mem (SortedList.find?_eq_some_iff.1 hfind).1
  · obtain ⟨ancestor, hancestor, hid⟩ := List.any_eq_true.1 hinherits
    exact hdistinct ancestor hancestor (beq_iff_eq.1 hid) ▸ hancestor

/-- The ids on a written element are those of the objects that are attached to it, in
whatever way. -/
theorem mem_ids_toEntry {element : Element} {id : String} :
    id ∈ element.toEntry.ids ↔ ∃ object, element.Attaches object ∧ object.writtenId = id := by
  have hids : element.toEntry.ids
      = (element.statics.toList ++ element.dynamics.toList.map Prod.fst
          ++ element.exclusives.toList.flatMap (·.2.toList)).map Object.writtenId := by
    simp [Document.Entry.ids, Element.toEntry, List.map_flatMap, Function.comp_def]
  simp only [hids, List.mem_map, Element.attaches_iff_mem]

/-! ### What an event makes of an analysis -/

/-- An analysis that the event does not concern stays as it is. -/
theorem advances_elsewhere (h : ∀ call answer, event ≠ .call i call answer) :
    analysis.Advances i event analysis where
  blocks_eq := by
    rw [Event.added?_eq_none h]
    rfl
  elements := .inl rfl

/-- Every analysis stays as it is when nothing is asked of any. Such events are the
beginning of an analysis, and what is done with elements in hand. -/
theorem advances_aside (i : Nat) (analysis : Analysis) : analysis.Advances i .aside analysis := by
  refine advances_elsewhere fun call answer h => ?_
  cases h

/-- A call gives its alias and records its element, as its outcome says. All other
calls leave aliases and elements as they are, and so do calls that fail. -/
theorem Outcome.advances {next : Nat} {call : Call} {answer : Answer}
    (h : analysis.Outcome next call after answer) :
    analysis.Advances i (.call i call answer) after := by
  cases h with
  | added localName block =>
    refine ⟨?_, .inl rfl⟩
    rw [Event.added?, if_pos rfl]
    rfl
  | recorded element position hstage hfit => exact ⟨rfl, .inr ⟨element, rfl, hfit, rfl⟩⟩
  | _ => exact ⟨rfl, .inl rfl⟩

end Analysis

namespace Desk

variable {i : Nat} {events : List Event} {event : Event} {desk after : Desk} {later : Analysis}

/-- An analysis has advanced by the last event, or is begun. In the second case it has
neither blocks nor elements yet. -/
theorem Step.advances (h : Step desk event after) (hi : after.analyses[i]? = some later) :
    (∃ analysis, desk.analyses[i]? = some analysis ∧ analysis.Advances i event later) ∨
      (desk.analyses.length ≤ i ∧ event = .aside ∧
        later.blocks = .empty ∧ later.elements = []) := by
  cases h with
  | begin template options =>
    rw [List.getElem?_append] at hi
    -- The analysis was there before, or it is the one that has been begun.
    split at hi
    · exact .inl ⟨later, hi, later.advances_aside i⟩
    · rename_i hnew
      rw [List.eq_of_mem_singleton (List.mem_of_getElem? hi)]
      exact .inr ⟨Nat.le_of_not_lt hnew, rfl, rfl, rfl⟩
  | addStatic => exact .inl ⟨later, hi, later.advances_aside i⟩
  | addDynamic => exact .inl ⟨later, hi, later.advances_aside i⟩
  | addExclusive => exact .inl ⟨later, hi, later.advances_aside i⟩
  | restored => exact .inl ⟨later, hi, later.advances_aside i⟩
  | @call j analysis hj call hhand =>
    rw [desk.analyses_answered] at hi
    -- The call was made to this analysis, or to another one.
    by_cases hij : j = i
    · subst hij
      rw [List.getElem?_set_self (List.getElem?_eq_some_iff.1 hj).1] at hi
      cases hi
      exact .inl ⟨analysis, hj, (analysis.outcome_perform desk.next call).advances⟩
    · rw [List.getElem?_set_ne hij] at hi
      refine .inl ⟨later, hi, Analysis.advances_elsewhere fun c a hevent => ?_⟩
      cases hevent
      exact hij rfl

/-- The blocks of an analysis are those that it has been given. The induction is on
the run, with the event that comes last. -/
theorem Run.blocks_eq (h : Run events desk) {analysis : Analysis}
    (hi : desk.analyses[i]? = some analysis) : analysis.blocks = aliases i events := by
  induction h generalizing analysis with
  | nil next => cases hi
  | snoc hrun hstep ih =>
    rw [aliases_concat]
    rcases hstep.advances hi with ⟨before, hbefore, hadvances⟩ | ⟨hlength, rfl, hblocks, -⟩
    · rw [hadvances.blocks_eq, ih hbefore]
    -- Nothing can have been asked of an analysis before it is begun.
    · rw [aliases_eq_empty fun call answer hmem =>
        Nat.not_lt.2 hlength (hrun.orderly.calls i call answer hmem), hblocks]
      rfl

/-- When the end of a recorded element was accepted, an alias led to the block of each
of its objects. The run is cut at that event, and the aliases are those of the events
in front of it. -/
theorem Run.covers_recorded (h : Run events desk) {analysis : Analysis}
    (hi : desk.analyses[i]? = some analysis) :
    ∀ element ∈ analysis.elements, ∃ earlier later,
      events = earlier ++ .call i (.finish element) (.ok none) :: later ∧
        ∀ object, element.Attaches object →
          ∃ localName, Covers (aliases i earlier) localName object.block := by
  induction h generalizing analysis with
  | nil next => cases hi
  | @snoc events desk after event hrun hstep ih =>
    intro element helement
    rcases hstep.advances hi with ⟨before, hbefore, hadvances⟩ | ⟨-, -, -, hnone⟩
    -- An element that is there already has its end further back; that of a new one is this event.
    · rcases hadvances.elements with hsame | ⟨added, hevent, hfit, hadded⟩
      · obtain ⟨earlier, later, rfl, hcovers⟩ := ih hbefore element (hsame ▸ helement)
        exact ⟨earlier, later ++ [event], by simp, hcovers⟩
      · rcases List.mem_append.1 (hadded ▸ helement) with hold | hnew
        · obtain ⟨earlier, later, rfl, hcovers⟩ := ih hbefore element hold
          exact ⟨earlier, later ++ [event], by simp, hcovers⟩
        · cases List.mem_singleton.1 hnew
          refine ⟨events, [], by rw [hevent], fun object hobject => ?_⟩
          rw [← hrun.blocks_eq hbefore]
          exact Analysis.covers_of_objection? hfit hobject
    · rw [hnone] at helement
      cases helement

/-- At any time of a run, the objects on recorded elements can be traced as far as the
events say that nothing has come between. What can come between is that an alias is
given to a block that does not extend the one of the object. The events are the
history of the whole desk, so calls to other analyses may stand between. -/
theorem Run.recorded_resolvable (h : Run events desk) {analysis : Analysis}
    (hi : desk.analyses[i]? = some analysis) : analysis.Resolves i events where
  blocks_eq := h.blocks_eq hi
  ids entry hentry id hid := by
    obtain ⟨element, helement, rfl⟩ := List.mem_map.1 hentry
    obtain ⟨object, hobject, rfl⟩ := Analysis.mem_ids_toEntry.1 hid
    exact ⟨element, helement, object, hobject, rfl⟩
  covered element helement := by
    obtain ⟨earlier, later, hevents, hcovers⟩ := h.covers_recorded hi element helement
    refine ⟨earlier, later, hevents, fun object hobject => ⟨hcovers object hobject, ?_⟩⟩
    intro localName hcovered hlater
    refine Analysis.traces_of_covers ?_
    rw [h.blocks_eq hi, hevents]
    refine hcovered.aliases_append fun block answer hmem => hlater block answer ?_
    -- The end of the element itself gives no alias.
    rcases List.mem_cons.1 hmem with hend | hmem
    · cases hend
    · exact hmem

/-- An element with an object of a block is recorded, then another block gets the
alias. The two cases below differ in what this other block has to do with the first. -/
theorem run_readded (block : Block) :
    let base : Block := .bare 0 "base" "base.css" []
    let element : Element := (Element.bare 5 ⟨1, 1⟩).addStatic (.cls base.rootRef)
    ∃ desk, Run [.aside, .call 0 (.addBlock "" base) (.ok none), .started 0 5 ⟨1, 1⟩, .aside,
        .call 0 (.finish element) (.ok none), .call 0 (.addBlock "" block) (.ok none)] desk ∧
      desk.analyses = [{ ((Analysis.begin "t.hbs" .default).addBlock "" base).addBlock "" block with
        elements := [element] }] := by
  intro base element
  let known : Analysis := (Analysis.begin "t.hbs" .default).addBlock "" base
  let inside : Analysis := { known with stage := .inside 5 ⟨1, 1⟩ }
  let recorded : Analysis := { known with elements := [element] }
  let hands : List Element := [element, .bare 5 ⟨1, 1⟩]
  -- One step for each event: the alias, the start, the object, the end, and the alias
  -- again.
  have hknown : Step ⟨5, [.begin "t.hbs" .default], []⟩ (.call 0 (.addBlock "" base) (.ok none))
      ⟨5, [known], []⟩ :=
    @Step.call _ 0 _ rfl (.addBlock "" base) nofun
  have hinside : Step ⟨5, [known], []⟩ (.started 0 5 ⟨1, 1⟩) ⟨6, [inside], [.bare 5 ⟨1, 1⟩]⟩ :=
    @Step.call _ 0 known rfl (.start ⟨1, 1⟩) nofun
  have hattach : Step ⟨6, [inside], [.bare 5 ⟨1, 1⟩]⟩ .aside ⟨6, [inside], hands⟩ :=
    .addStatic (List.mem_singleton_self _) (.cls base.rootRef)
  have hrecorded : Step ⟨6, [inside], hands⟩ (.call 0 (.finish element) (.ok none))
      ⟨6, [recorded], hands⟩ := by
    refine @Step.call _ 0 inside rfl (.finish element) ?_
    rintro _ ⟨⟩
    exact List.mem_cons_self
  have hreadded : Step ⟨6, [recorded], hands⟩ (.call 0 (.addBlock "" block) (.ok none))
      ⟨6, [recorded.addBlock "" block], hands⟩ :=
    @Step.call _ 0 recorded rfl (.addBlock "" block) nofun
  exact ⟨_, (Run.nil 5).snoc (.begin "t.hbs" .default) |>.snoc hknown |>.snoc hinside
    |>.snoc hattach |>.snoc hrecorded |>.snoc hreadded, rfl⟩

/-- The block that gets the alias extends the one that has had it. Objects of the base
are found through the new block, which has them in its lineage. -/
theorem recorded_resolvable_extended :
    let base : Block := .bare 0 "base" "base.css" []
    let extended : Block := { Block.bare 1 "ext" "ext.css" [("base", base)] with base := some base }
    let element : Element := (Element.bare 5 ⟨1, 1⟩).addStatic (.cls base.rootRef)
    let events : List Event := [.aside, .call 0 (.addBlock "" base) (.ok none),
      .started 0 5 ⟨1, 1⟩, .aside, .call 0 (.finish element) (.ok none),
      .call 0 (.addBlock "" extended) (.ok none)]
    let after : Analysis :=
      { ((Analysis.begin "t.hbs" .default).addBlock "" base).addBlock "" extended with
        elements := [element] }
    ∃ desk, Run events desk ∧ desk.analyses = [after] ∧ after.Resolves 0 events := by
  intro base extended element events after
  obtain ⟨desk, hrun, hanalyses⟩ := run_readded extended
  exact ⟨desk, hrun, hanalyses, hrun.recorded_resolvable (by rw [hanalyses]; rfl)⟩

/-- The block that gets the alias has nothing to do with the one that has had it. No
alias leads to the block of the recorded object any longer, and what is written of it
is not found. The element stays recorded, since objects are looked at only when an
element is recorded. -/
theorem uncovered_after_addBlock :
    let base : Block := .bare 0 "base" "base.css" []
    let other : Block := .bare 1 "other" "other.css" []
    let element : Element := (Element.bare 5 ⟨1, 1⟩).addStatic (.cls base.rootRef)
    let events : List Event := [.aside, .call 0 (.addBlock "" base) (.ok none),
      .started 0 5 ⟨1, 1⟩, .aside, .call 0 (.finish element) (.ok none),
      .call 0 (.addBlock "" other) (.ok none)]
    let after : Analysis :=
      { ((Analysis.begin "t.hbs" .default).addBlock "" base).addBlock "" other with
        elements := [element] }
    ∃ desk, Run events desk ∧ desk.analyses = [after] ∧
      element ∈ after.elements ∧ element.Attaches (.cls base.rootRef) ∧
      (∀ localName, ¬ Covers after.blocks localName base) ∧
      after.toDocument.blocks.toList = [("", "other.css")] ∧
      after.toDocument.elements.map Document.Entry.ids = [["base.css:.root"]] ∧
      after.objectFor "base.css:.root" = .error (.general (.unknownObject "base.css:.root")) := by
  intro base other element events after
  obtain ⟨desk, hrun, hanalyses⟩ := run_readded other
  refine ⟨desk, hrun, hanalyses, List.mem_singleton_self element,
    .inl (List.mem_singleton_self _), ?_, rfl, rfl, rfl⟩
  -- There is only one alias, and its block does not extend the other.
  rintro localName ⟨block, hfind, hinherits⟩
  cases List.mem_singleton.1 (SortedList.find?_eq_some_iff.1 hfind).1
  exact absurd hinherits (by decide)

end Desk

end BlockStyles
