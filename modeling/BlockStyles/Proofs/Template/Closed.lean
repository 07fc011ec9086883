import BlockStyles.Proofs.Template.Aliases

/-!
# `BlockStyles.Proofs.Template.Closed`: what happens to a closed analysis

Once an analysis is closed, no element is started or ended any more. Each attempt is
refused and leaves the analysis as it is, and so does closing it again. Whoever still has
an element in hand can attach objects to it, but what is in hand is not what has been
recorded.

Aliases are not looked after in the same way: a block gets its alias whether the analysis
is closed or not, and the alias is written down. So a closed analysis is the same for good
only as long as no block is added to it.

* `Analysis.perform_of_closed`: what a call to a closed analysis comes to.
* `Desk.Continues.staysClosed`: what a closed analysis is after any further events.
* `Desk.addBlock_after_close`: a block that is added to a closed analysis is written down.
-/

set_option autoImplicit false

namespace BlockStyles

open BlockStyles.Text (Position)

namespace Analysis

/-- Gives aliases to blocks, one after the other. The last block that an alias is
given to counts. -/
def addBlocks (analysis : Analysis) (entries : List (String × Block)) : Analysis :=
  { analysis with blocks := entries.foldl SortedList.insert analysis.blocks }

/-- The answer to a call to a closed analysis. It depends on the template, which is
part of the error, and on nothing else of the analysis. -/
def closedAnswer (analysis : Analysis) : Call → Answer
  | .addBlock _ _ => .ok none
  | .start position => .error (analysis.errorAt position .analysisEnded)
  | .finish element => .error (analysis.errorAt element.position .noOpenElement)
  | .close => .ok none

/-- What has become of a closed analysis at place `i` after some events. Blocks are
the only thing that may have changed, and the events say how. -/
structure StaysClosed (i : Nat) (events : List Event) (before after : Analysis) : Prop where
  /-- Nothing is changed but the blocks. -/
  unchanged : after = { before with blocks := after.blocks }
  closed : after.stage = .closed
  /-- Each alias that has been given since stands for the block that got it last. -/
  blocks_eq : after.blocks = (before.addBlocks (events.filterMap (Event.added? i))).blocks
  /-- The template and the elements are written down as they were. -/
  written : after.toDocument = { before.toDocument with blocks := after.toDocument.blocks }
  /-- Everything is as it was if no block has been added. -/
  same : (∀ localName block answer, .call i (.addBlock localName block) answer ∉ events) →
    after = before
  /-- All attempts to start or end an element have been refused. -/
  answers : ∀ call answer, .call i call answer ∈ events → answer = before.closedAnswer call

/-- Aliases that are given in two rounds are given in one. What a closed analysis
still takes is collected in this way over a whole run. -/
theorem addBlocks_addBlocks (analysis : Analysis) (entries more : List (String × Block)) :
    (analysis.addBlocks entries).addBlocks more = analysis.addBlocks (entries ++ more) := by
  rw [addBlocks, addBlocks, addBlocks, List.foldl_append]

/-- What a call to a closed analysis comes to. A block is added, and any other call
leaves the analysis as it is. -/
theorem perform_of_closed {analysis : Analysis} (h : analysis.stage = .closed) (i next : Nat)
    (call : Call) :
    analysis.perform next call
      = (analysis.addBlocks ((Event.call i call (analysis.closedAnswer call)).added? i).toList,
          analysis.closedAnswer call) := by
  obtain ⟨template, blocks, elements, validators, stage⟩ := analysis
  cases h
  cases call with
  | addBlock localName block =>
    rw [Event.added?, if_pos rfl]
    rfl
  | start position => rfl
  | finish element => rfl
  | close => rfl

end Analysis

namespace Desk

/-- The events that lead from one desk to another. The desk that it starts from need
not be a new one. -/
inductive Continues (desk : Desk) : List Event → Desk → Prop where
  | refl : Continues desk [] desk
  | snoc {events : List Event} {event : Event} {middle after : Desk}
      (h : Continues desk events middle) (hstep : Step middle event after) :
      Continues desk (events ++ [event]) after

variable {i : Nat} {events : List Event} {event : Event} {desk after : Desk} {analysis : Analysis}

/-- One event adds its block to a closed analysis, if it gives one, and is answered as
is due. An event that is no call to this analysis neither changes it nor has an answer
of it. -/
theorem Step.of_closed (h : Step desk event after) (hi : desk.analyses[i]? = some analysis)
    (hclosed : analysis.stage = .closed) :
    after.analyses[i]? = some (analysis.addBlocks (event.added? i).toList)
      ∧ ∀ call answer, event = .call i call answer → answer = analysis.closedAnswer call := by
  have haside : ∀ call answer, Event.aside = .call i call answer →
      answer = analysis.closedAnswer call :=
    fun _ _ h => Event.noConfusion h
  cases h with
  | begin template options =>
    have hlt : i < desk.analyses.length := (List.getElem?_eq_some_iff.1 hi).1
    exact ⟨(List.getElem?_append_left hlt).trans hi, haside⟩
  | addStatic => exact ⟨hi, haside⟩
  | addDynamic => exact ⟨hi, haside⟩
  | addExclusive => exact ⟨hi, haside⟩
  | restored => exact ⟨hi, haside⟩
  | @call j other hj call hhand =>
    rw [desk.analyses_answered]
    -- The call was made to this analysis, which is closed, or to another one.
    by_cases hij : j = i
    · subst hij
      cases hi.symm.trans hj
      rw [List.getElem?_set_self (List.getElem?_eq_some_iff.1 hi).1,
        Analysis.perform_of_closed hclosed j]
      refine ⟨rfl, fun called answer hevent => ?_⟩
      cases hevent
      rfl
    · have helsewhere : ∀ c a,
          Event.call j call (other.perform desk.next call).2 ≠ .call i c a := by
        rintro c a ⟨⟩
        exact hij rfl
      rw [List.getElem?_set_ne hij, Event.added?_eq_none helsewhere]
      exact ⟨hi, fun c a hevent => absurd hevent (helsewhere c a)⟩

/-- A closed analysis is there after any further events, with the blocks that they
add, and every call has been answered as is due. By induction on the events, of which
the last one is a step. -/
theorem Continues.of_closed (h : Continues desk events after)
    (hi : desk.analyses[i]? = some analysis) (hclosed : analysis.stage = .closed) :
    after.analyses[i]? = some (analysis.addBlocks (events.filterMap (Event.added? i)))
      ∧ ∀ call answer, .call i call answer ∈ events → answer = analysis.closedAnswer call := by
  induction h with
  | refl => exact ⟨hi, fun call answer hmem => absurd hmem List.not_mem_nil⟩
  | @snoc events event middle after _ hstep ih =>
    -- The answers depend on the template alone, which the events so far have not changed.
    obtain ⟨hmiddle, hanswers⟩ := ih
    obtain ⟨hafter, hanswer⟩ := hstep.of_closed hmiddle hclosed
    refine ⟨hafter.trans ?_, fun call answer hmem => ?_⟩
    · rw [Analysis.addBlocks_addBlocks, List.filterMap_append]
      cases hadded : event.added? i <;> simp [hadded]
    · rcases List.mem_append.1 hmem with hmem | hmem
      · exact hanswers call answer hmem
      · rw [hanswer call answer (List.mem_singleton.1 hmem).symm]
        cases call <;> rfl

/-- After any further events, a closed analysis is what it was but for blocks that
have been added to it. If none have been added, it is the same. Blocks can be added at
any time, and this is the only thing that an event can do to it. -/
theorem Continues.staysClosed (h : Continues desk events after)
    (hi : desk.analyses[i]? = some analysis) (hclosed : analysis.stage = .closed) :
    ∃ later, after.analyses[i]? = some later ∧ Analysis.StaysClosed i events analysis later := by
  obtain ⟨hlater, hanswers⟩ := h.of_closed hi hclosed
  refine ⟨_, hlater, rfl, hclosed, rfl, rfl, fun hnone => ?_, hanswers⟩
  have hadded : events.filterMap (Event.added? i) = [] := by
    refine List.filterMap_eq_nil_iff.2 fun event hevent => ?_
    refine Option.eq_none_iff_forall_not_mem.2 fun entry hentry => ?_
    obtain ⟨answer, rfl⟩ := Event.mem_of_added? hentry
    exact hnone entry.1 entry.2 answer hevent
  rw [hadded]
  rfl

/-- An element is recorded and the analysis closed. Then the element gets another
object and is handed in again, and a new one is asked for. What has been recorded does
not follow the element, and both calls fail. -/
theorem staysClosed_recorded :
    let block : Block := .bare 0 "b" "b.css" []
    let closed : Analysis :=
      { (Analysis.begin "t.hbs" .default).addBlock "" block with
        elements := [.bare 5 ⟨1, 1⟩], stage := .closed }
    let changed : Element := (Element.bare 5 ⟨1, 1⟩).addStatic (.cls block.rootRef)
    let events : List Event := [.aside,
      .call 0 (.finish changed) (.error (closed.errorAt ⟨1, 1⟩ .noOpenElement)),
      .call 0 (.start ⟨2, 1⟩) (.error (closed.errorAt ⟨2, 1⟩ .analysisEnded))]
    let desk : Desk := ⟨6, [closed], [.bare 5 ⟨1, 1⟩]⟩
    ∃ after, Continues desk events after ∧ desk.analyses[0]? = some closed ∧
      closed.stage = .closed ∧
      ∃ later, after.analyses[0]? = some later ∧
        Analysis.StaysClosed 0 events closed later := by
  intro block closed changed events desk
  -- The element in hand is changed first; what has been recorded is not.
  have hattach : Step desk .aside (desk.take changed) :=
    .addStatic (List.mem_singleton_self _) (.cls block.rootRef)
  have hfinish : Step (desk.take changed)
      (.call 0 (.finish changed) (.error (closed.errorAt ⟨1, 1⟩ .noOpenElement)))
      (desk.take changed) := by
    have hhand : ∀ element, Analysis.Call.finish changed = .finish element →
        element ∈ (desk.take changed).hands := by
      rintro _ ⟨⟩
      exact List.mem_cons_self
    have hrefused : closed.perform (desk.take changed).next (.finish changed)
        = (closed, .error (closed.errorAt ⟨1, 1⟩ .noOpenElement)) := rfl
    have hstep := @Step.call (desk.take changed) 0 closed rfl (.finish changed) hhand
    rwa [hrefused] at hstep
  have hstart : Step (desk.take changed)
      (.call 0 (.start ⟨2, 1⟩) (.error (closed.errorAt ⟨2, 1⟩ .analysisEnded)))
      (desk.take changed) :=
    @Step.call (desk.take changed) 0 closed rfl (.start ⟨2, 1⟩) nofun
  have hcontinues : Continues desk events (desk.take changed) :=
    ((Continues.refl.snoc hattach).snoc hfinish).snoc hstart
  exact ⟨_, hcontinues, rfl, rfl, hcontinues.staysClosed rfl rfl⟩

/-- A block that is added to a closed analysis is written down. Closing ends the
recording of elements. It does not end the adding of blocks, and the document that is
written afterwards has the new one. -/
theorem addBlock_after_close :
    let block : Block := .bare 0 "b" "b.css" []
    let closed : Analysis := { Analysis.begin "t.hbs" .default with stage := .closed }
    ∃ desk after, Run [.aside, .call 0 .close (.ok none)] desk ∧ desk.analyses = [closed] ∧
      Continues desk [.call 0 (.addBlock "" block) (.ok none)] after ∧
      after.analyses = [closed.addBlock "" block] ∧
      (closed.addBlock "" block).stage = .closed ∧
      closed.toDocument.blocks.toList = [] ∧
      (closed.addBlock "" block).toDocument.blocks.toList = [("", "b.css")] := by
  intro block closed
  -- The analysis is closed at once, and then it is given a block.
  have hclose : Step ⟨5, [.begin "t.hbs" .default], []⟩ (.call 0 .close (.ok none))
      ⟨5, [closed], []⟩ :=
    @Step.call _ 0 (.begin "t.hbs" .default) rfl .close nofun
  have hadd : Step ⟨5, [closed], []⟩ (.call 0 (.addBlock "" block) (.ok none))
      ⟨5, [closed.addBlock "" block], []⟩ :=
    @Step.call _ 0 closed rfl (.addBlock "" block) nofun
  exact ⟨_, _, (Run.nil 5).snoc (.begin "t.hbs" .default) |>.snoc hclose, rfl,
    Continues.refl.snoc hadd, rfl, rfl, rfl, rfl⟩

end Desk

end BlockStyles
