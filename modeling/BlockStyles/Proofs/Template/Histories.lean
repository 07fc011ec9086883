import BlockStyles.Template.Analysis
import Mathlib.Data.List.Nodup

/-!
# `BlockStyles.Proofs.Template.Histories`: analyses over whole runs

Several analyses may be under way at once. Whoever has got an element when it was
started has it in hand: it may be copied, objects may be attached to any of the
copies, and each of them may be handed in as often as one likes, at the end of an
element of this analysis or of another one. Elements of restored analyses can be in
hand as well.

A *run* lists what has been asked of the analyses and what they have answered. The
list alone tells which element is open and which have been recorded; what makes this
work is that numbers are given out once, and that nothing that is done with an element
in hand changes its number or its position.

* `Analysis.outcome_perform`: all that a call can come to.
* `Desk.Orderly.step`: whatever happens next, what holds at any time holds afterwards.
* `Desk.Run.orderly`: what holds at any time.
* `Desk.Run.follows_history`: an analysis is what its history says, and goes on so.
* `Analysis.Proceeds`: what one event can make of an analysis, call by call. An event that
  concerns another analysis leaves it as it is.
-/

set_option autoImplicit false

namespace BlockStyles

open BlockStyles.Text (Position)

/-! ### Calls -/

namespace Analysis

/-- What can be asked of an analysis. -/
inductive Call where
  | addBlock (localName : String) (block : Block)
  | start (position : Position)
  | finish (element : Element)
  | close

/-- The answer to a call: the element that is given out, if there is one. -/
abbrev Answer : Type := Except Error (Option Element)

/-- The analysis after a call, and the answer. An element that is started gets the
number `next`. -/
def perform (analysis : Analysis) (next : Nat) : Call → Analysis × Answer
  | .addBlock localName block => (analysis.addBlock localName block, .ok none)
  | .start position =>
    match analysis.start next position with
    | .ok (element, after) => (after, .ok (some element))
    | .error error => (analysis, .error error)
  | .finish element =>
    let (after, answer) := analysis.finish element
    (after, answer.map fun _ => none)
  | .close =>
    match analysis.close with
    | .ok after => (after, .ok none)
    | .error error => (analysis, .error error)

/-- All that a call can come to. Each case says at which stage it is met, what becomes
of the analysis, and what the answer is. -/
inductive Outcome (analysis : Analysis) (next : Nat) : Call → Analysis → Answer → Prop where
  | added (localName : String) (block : Block) :
      Outcome analysis next (.addBlock localName block) (analysis.addBlock localName block)
        (.ok none)
  | started (position : Position) (h : analysis.stage = .idle) :
      Outcome analysis next (.start position) { analysis with stage := .inside next position }
        (.ok (some (.bare next position)))
  | notStarted (position : Position) (error : Error) (h : analysis.stage ≠ .idle) :
      Outcome analysis next (.start position) analysis (.error error)
  | recorded (element : Element) (position : Position)
      (h : analysis.stage = .inside element.id position)
      (hfit : analysis.objection? element = none) :
      Outcome analysis next (.finish element)
        { analysis with stage := .idle, elements := analysis.elements ++ [element] } (.ok none)
  | rejected (element : Element) (position : Position) (cause : Cause) (error : Error)
      (h : analysis.stage = .inside element.id position)
      (hunfit : analysis.objection? element = some cause) :
      Outcome analysis next (.finish element) { analysis with stage := .idle } (.error error)
  | notOpen (element : Element) (error : Error)
      (h : ∀ position, analysis.stage ≠ .inside element.id position) :
      Outcome analysis next (.finish element) analysis (.error error)
  | closed (h : ∀ id position, analysis.stage ≠ .inside id position) :
      Outcome analysis next .close { analysis with stage := .closed } (.ok none)
  | notClosed (id : Nat) (position : Position) (error : Error)
      (h : analysis.stage = .inside id position) :
      Outcome analysis next .close analysis (.error error)

variable {analysis : Analysis}

/-- What a call to start an element comes to, at each stage. It succeeds when no
element is open and the analysis is not closed. -/
theorem outcome_start (analysis : Analysis) (next : Nat) (position : Position) :
    Outcome analysis next (.start position) (analysis.perform next (.start position)).1
      (analysis.perform next (.start position)).2 := by
  cases hstage : analysis.stage with
  | idle =>
    simp only [perform, start, hstage]
    exact .started position hstage
  | inside id here =>
    simp only [perform, start, hstage]
    exact .notStarted position _ (by simp [hstage])
  | closed =>
    simp only [perform, start, hstage]
    exact .notStarted position _ (by simp [hstage])

/-- What a call to end an element comes to. Inside an element it depends on which
element is handed in, and then on whether it fits. -/
theorem outcome_finish (analysis : Analysis) (next : Nat) (element : Element) :
    Outcome analysis next (.finish element) (analysis.perform next (.finish element)).1
      (analysis.perform next (.finish element)).2 := by
  cases hstage : analysis.stage with
  | idle =>
    simp only [perform, finish, hstage]
    exact .notOpen element _ (by simp [hstage])
  | closed =>
    simp only [perform, finish, hstage]
    exact .notOpen element _ (by simp [hstage])
  | inside id position =>
    by_cases hid : id = element.id
    · subst hid
      -- Whether the element fits does not depend on the stage.
      have hsame : objection? { analysis with stage := .idle } element
          = analysis.objection? element := rfl
      cases hfit : analysis.objection? element with
      | none =>
        simp only [perform, finish, hstage, if_pos, hsame, hfit]
        exact .recorded element position hstage hfit
      | some cause =>
        simp only [perform, finish, hstage, if_pos, hsame, hfit]
        exact .rejected element position cause _ hstage hfit
    · simp only [perform, finish, hstage, if_neg hid]
      exact .notOpen element _ (by simp [hstage, hid])

/-- What a call to close the analysis comes to. It fails when an element is open.
Closing twice is no error. -/
theorem outcome_close (analysis : Analysis) (next : Nat) :
    Outcome analysis next .close (analysis.perform next .close).1
      (analysis.perform next .close).2 := by
  cases hstage : analysis.stage with
  | inside id position =>
    simp only [perform, close, hstage]
    exact .notClosed id position _ hstage
  | idle =>
    simp only [perform, close, hstage]
    exact .closed (by simp [hstage])
  | closed =>
    simp only [perform, close, hstage]
    exact .closed (by simp [hstage])

/-- A call comes to one of its outcomes. From here on nothing is said of how a call is
carried out. -/
theorem outcome_perform (analysis : Analysis) (next : Nat) (call : Call) :
    Outcome analysis next call (analysis.perform next call).1 (analysis.perform next call).2 := by
  cases call with
  | addBlock localName block => exact .added localName block
  | start position => exact outcome_start analysis next position
  | finish element => exact outcome_finish analysis next element
  | close => exact outcome_close analysis next

/-- An element is given out when one is started, and at no other time. The new element
has the next id and nothing attached to it. -/
theorem Outcome.givesOut {next : Nat} {call : Call} {after : Analysis} {answer : Answer}
    (h : Outcome analysis next call after answer) :
    (∃ position, call = .start position ∧ answer = .ok (some (.bare next position))) ∨
      ∀ element, answer ≠ .ok (some element) := by
  cases h with
  | started position => exact .inl ⟨position, rfl, rfl⟩
  | _ => exact .inr nofun

end Analysis

/-! ### Runs -/

/-- What happens in a run: a call and its answer, where analyses are named by their
places, or something that concerns no analysis that is there. -/
inductive Event where
  | aside
  | call (i : Nat) (call : Analysis.Call) (answer : Analysis.Answer)

namespace Event

/-- An element of this number and position is given out by the analysis at place `i`. -/
def started (i id : Nat) (position : Position) : Event :=
  .call i (.start position) (.ok (some (.bare id position)))

/-- The event is a call to end the element of this number, however it has been answered. -/
def Ends (i id : Nat) (event : Event) : Prop :=
  ∃ element answer, event = .call i (.finish element) answer ∧ element.id = id

/-- The element whose end the analysis at place `i` has accepted. -/
def recorded? (i : Nat) : Event → Option Element
  | .call j (.finish element) (.ok _) => if j = i then some element else none
  | _ => none

end Event

/-- Analyses under way, and the elements that somebody has in hand, in every form that
they have had there. -/
structure Desk where
  /-- The number that the next element gets, whoever starts it. -/
  next : Nat
  analyses : List Analysis
  hands : List Element

namespace Desk

/-- An element in hand is taken in hand again, in another form. Its number and
position are the same. -/
def take (desk : Desk) (element : Element) : Desk :=
  { desk with hands := element :: desk.hands }

/-- The desk after a call to the analysis at place `i`. An element that is given out is
in hand, and its number is used up. -/
def answered (desk : Desk) (i : Nat) (after : Analysis) (answer : Analysis.Answer) : Desk :=
  match answer with
  | .ok (some element) =>
    { next := desk.next + 1, analyses := desk.analyses.set i after, hands := element :: desk.hands }
  | _ => { desk with analyses := desk.analyses.set i after }

/-- What can happen next. An element in hand stays there, as the copy that could have
been made of it. -/
inductive Step (desk : Desk) : Event → Desk → Prop where
  | begin (template : String) (options : Options) :
      Step desk .aside
        { desk with analyses := desk.analyses ++ [.begin template options] }
  | call {i : Nat} {analysis : Analysis} (hi : desk.analyses[i]? = some analysis)
      (call : Analysis.Call) (hhand : ∀ element, call = .finish element → element ∈ desk.hands) :
      Step desk (.call i call (analysis.perform desk.next call).2)
        (desk.answered i (analysis.perform desk.next call).1 (analysis.perform desk.next call).2)
  | addStatic {element : Element} (h : element ∈ desk.hands) (object : Object) :
      Step desk .aside (desk.take (element.addStatic object))
  | addDynamic {element : Element} (h : element ∈ desk.hands) (object : Object)
      (condition : Option String) :
      Step desk .aside (desk.take (element.addDynamic object condition))
  | addExclusive {element : Element} (h : element ∈ desk.hands) (group : String)
      (object : Object) : Step desk .aside (desk.take (element.addExclusive group object))
  /-- An element comes from an analysis that has been restored elsewhere. -/
  | restored {element : Element} (h : element.id = desk.next) :
      Step desk .aside { desk.take element with next := desk.next + 1 }

/-- The events of a run, from no analysis on, and what there is in the end. -/
inductive Run : List Event → Desk → Prop where
  | nil (next : Nat) : Run [] ⟨next, [], []⟩
  | snoc {events : List Event} {desk after : Desk} {event : Event} (h : Run events desk)
      (hstep : Step desk event after) : Run (events ++ [event]) after

end Desk

/-- The analysis at place `i` has given out the element, and no end of it has been
asked for since. An end that was refused counts, too, since after it the element is
not open any more. -/
def IsOpen (events : List Event) (i id : Nat) (position : Position) : Prop :=
  ∃ earlier later, events = earlier ++ Event.started i id position :: later ∧
    ∀ event ∈ later, ¬ event.Ends i id

namespace Analysis

/-- The analysis at place `i` is what its history says. The stage and the elements can
be read off the events, which do not speak of either. -/
structure Follows (i : Nat) (events : List Event) (analysis : Analysis) : Prop where
  /-- It is inside the element that has been started and not ended, and in none if there is
  no such element. -/
  inside_iff : ∀ id position, analysis.stage = .inside id position ↔ IsOpen events i id position
  /-- Its elements are those whose end it has accepted, in this order. -/
  elements_eq : analysis.elements = events.filterMap (Event.recorded? i)
  /-- The open element is not among them. -/
  unrecorded : ∀ id position, analysis.stage = .inside id position →
    ∀ element ∈ analysis.elements, element.id ≠ id
  /-- No element is recorded twice, in whatever form. -/
  nodup : (analysis.elements.map Element.id).Nodup
  /-- Every recorded element is one that it has given out, at that position. -/
  started : ∀ element ∈ analysis.elements, Event.started i element.id element.position ∈ events

/-- What an event may make of the analysis at place `i`. It speaks of one event, so it
is said of every next one, and a run is a sequence of these. -/
structure Proceeds (i : Nat) (event : Event) (before after : Analysis) : Prop where
  /-- What is closed stays closed. -/
  closed : before.stage = .closed → after.stage = .closed
  /-- Nothing is taken away from the elements, and nothing is added but an element whose end
  is accepted. -/
  elements_eq : after.elements = before.elements ++ (event.recorded? i).toList
  /-- What happens elsewhere changes nothing. -/
  elsewhere : (∀ call answer, event ≠ .call i call answer) → after = before
  /-- A call that fails changes nothing, unless it is the end of the open element: if that is
  objected to, no element is open any longer, and all else is as before. -/
  failed : ∀ call error, event = .call i call (.error error) →
    after = before ∨ ∃ element position cause, call = .finish element ∧
      before.stage = .inside element.id position ∧ before.objection? element = some cause ∧
      after = { before with stage := .idle }

end Analysis

/-- If no element is given out, nothing but the analysis has changed. An element that
is given out would be in hand afterwards, and its id used up. -/
theorem Desk.answered_quiet (desk : Desk) (i : Nat) (after : Analysis) {answer : Analysis.Answer}
    (h : ∀ element, answer ≠ .ok (some element)) :
    desk.answered i after answer = { desk with analyses := desk.analyses.set i after } := by
  unfold answered
  split
  · exact absurd rfl (h _)
  · rfl

/-- The analysis is replaced by what the call has made of it, in either case. -/
theorem Desk.analyses_answered (desk : Desk) (i : Nat) (after : Analysis)
    (answer : Analysis.Answer) :
    (desk.answered i after answer).analyses = desk.analyses.set i after := by
  unfold answered
  split <;> rfl

/-! ### What an event changes -/

/-- An element is open after one more event if this event starts it, or if it was open
and the event is no call to end it. -/
theorem isOpen_concat {events : List Event} {event : Event} {i id : Nat} {position : Position} :
    IsOpen (events ++ [event]) i id position ↔
      event = .started i id position ∨ IsOpen events i id position ∧ ¬ event.Ends i id := by
  constructor
  · rintro ⟨earlier, later, heq, hlater⟩
    -- The event is the one that has started the element, or the last of those behind it.
    rcases List.eq_nil_or_concat' later with rfl | ⟨before, last, rfl⟩
    · exact .inl (List.singleton_inj.1 (List.append_inj' heq rfl).2)
    · rw [← List.cons_append, ← List.append_assoc] at heq
      obtain ⟨hevents, hlast⟩ := List.append_inj' heq rfl
      rw [List.singleton_inj.1 hlast]
      exact .inr ⟨⟨earlier, before, hevents, fun e he => hlater e (List.mem_append_left _ he)⟩,
        hlater last (List.mem_append_right _ (List.mem_singleton_self last))⟩
  · rintro (rfl | ⟨⟨earlier, later, rfl, hlater⟩, hevent⟩)
    · exact ⟨events, [], rfl, fun e he => absurd he List.not_mem_nil⟩
    · refine ⟨earlier, later ++ [event], by simp, fun e he => ?_⟩
      rcases List.mem_append.1 he with he | he
      · exact hlater e he
      · exact List.mem_singleton.1 he ▸ hevent

/-- What is open has been started. Its number has therefore been given out, and is not
new. -/
theorem IsOpen.started {events : List Event} {i id : Nat} {position : Position}
    (h : IsOpen events i id position) : Event.started i id position ∈ events := by
  obtain ⟨earlier, later, rfl, -⟩ := h
  exact List.mem_append_right _ List.mem_cons_self

/-- What happens elsewhere records nothing here. So only calls to this analysis have
to be looked at. -/
theorem Event.recorded?_eq_none {i : Nat} {event : Event}
    (h : ∀ call answer, event ≠ .call i call answer) : event.recorded? i = none := by
  unfold recorded?
  split
  · rename_i j element answer
    refine if_neg ?_
    rintro rfl
    exact h _ _ rfl
  · rfl

namespace Analysis.Follows

variable {i : Nat} {events : List Event} {event : Event} {analysis after : Analysis}

/-- An event that neither starts an element, nor ends the open one, nor adds one. The
analysis follows the longer history as it did the shorter one. -/
theorem keep (h : analysis.Follows i events) (hstage : after.stage = analysis.stage)
    (helements : after.elements = analysis.elements)
    (hstart : ∀ id position, event ≠ .started i id position)
    (hend : ∀ id position, analysis.stage = .inside id position → ¬ event.Ends i id)
    (hrecorded : event.recorded? i = none) : after.Follows i (events ++ [event]) where
  inside_iff id position := by
    rw [hstage, isOpen_concat, h.inside_iff]
    -- What was open is still open, since the event does not end it, and nothing new is.
    constructor
    · intro hopen
      exact .inr ⟨hopen, hend id position ((h.inside_iff id position).2 hopen)⟩
    · rintro (hevent | ⟨hopen, -⟩)
      · exact absurd hevent (hstart id position)
      · exact hopen
  elements_eq := by
    rw [helements, h.elements_eq, List.filterMap_append, List.filterMap_cons_none hrecorded]
    simp
  unrecorded := by
    rw [hstage, helements]
    exact h.unrecorded
  nodup := helements ▸ h.nodup
  started element helement :=
    List.mem_append_left _ (h.started element (helements ▸ helement))

/-- What happens elsewhere is no part of the history. An analysis knows of nothing but
the calls that are made to it. -/
theorem elsewhere (h : analysis.Follows i events)
    (hevent : ∀ call answer, event ≠ .call i call answer) :
    analysis.Follows i (events ++ [event]) := by
  refine h.keep rfl rfl (fun id position => hevent _ _) ?_ (Event.recorded?_eq_none hevent)
  rintro id position - ⟨element, answer, hends, -⟩
  exact hevent _ _ hends

/-- An event after which no element is open. The elements change as it says. An
element that is recorded by it is the one that was open, so it has been started and is
not recorded yet. -/
theorem leave (h : analysis.Follows i events)
    (hstage : ∀ id position, after.stage ≠ .inside id position)
    (helements : after.elements = analysis.elements ++ (event.recorded? i).toList)
    (hstart : ∀ id position, event ≠ .started i id position)
    (hend : ∀ id position, analysis.stage = .inside id position → event.Ends i id)
    (hrecorded : ∀ element, event.recorded? i = some element →
      analysis.stage = .inside element.id element.position) :
    after.Follows i (events ++ [event]) where
  inside_iff id position := by
    rw [isOpen_concat]
    refine iff_of_false (hstage id position) ?_
    rintro (hevent | ⟨hopen, hnot⟩)
    · exact hstart id position hevent
    · exact hnot (hend id position ((h.inside_iff id position).2 hopen))
  elements_eq := by
    rw [helements, h.elements_eq, List.filterMap_append]
    cases hevent : event.recorded? i <;> simp [hevent]
  unrecorded id position hinside := absurd hinside (hstage id position)
  nodup := by
    rw [helements]
    cases hevent : event.recorded? i with
    | none => simpa using h.nodup
    | some element =>
      have hnew : element.id ∉ analysis.elements.map Element.id := by
        intro hmem
        obtain ⟨other, hother, hid⟩ := List.mem_map.1 hmem
        exact h.unrecorded _ _ (hrecorded element hevent) other hother hid
      rw [Option.toList_some, List.map_append, List.map_singleton, ← List.concat_eq_append]
      exact (List.nodup_concat _ _).2 ⟨hnew, h.nodup⟩
  started element helement := by
    rw [helements] at helement
    refine List.mem_append_left _ ?_
    rcases List.mem_append.1 helement with helement | helement
    · exact h.started element helement
    -- What is added is the open element, which has been started.
    · exact ((h.inside_iff _ _).1 (hrecorded element (Option.mem_toList.1 helement))).started

/-- An analysis that has just begun has no history. No call has been made to it, so
nothing has been recorded and no element is open. -/
theorem begin (template : String) (options : Options)
    (h : ∀ call answer, Event.call i call answer ∉ events) :
    (Analysis.begin template options).Follows i events where
  inside_iff id position := by
    exact iff_of_false (fun hinside => by cases hinside) fun hopen => h _ _ hopen.started
  elements_eq := by
    refine (List.filterMap_eq_nil_iff.2 fun event hevent => ?_).symm
    refine Event.recorded?_eq_none fun call answer heq => ?_
    exact h call answer (heq ▸ hevent)
  unrecorded id position hinside := by cases hinside
  nodup := List.nodup_nil
  started element helement := absurd helement List.not_mem_nil

/-- A call that fails and is not the end of the open element. It leaves everything as
it is. -/
theorem refused (h : analysis.Follows i events) {call : Call} {error : Error}
    (hother : ∀ element position, call = .finish element →
      analysis.stage ≠ .inside element.id position) :
    analysis.Follows i (events ++ [.call i call (.error error)]) := by
  refine h.keep rfl rfl (fun id position hevent => ?_) (fun id position hinside => ?_) ?_
  · rw [Event.started, Event.call.injEq] at hevent
    cases hevent.2.2
  · rintro ⟨element, answer, hevent, rfl⟩
    cases hevent
    exact hother element position rfl hinside
  · cases call <;> rfl

/-- A call to the analysis itself, with an element in hand that is as it was given
out. There is one case for each outcome, most of which keep or leave the stage. -/
theorem call {next : Nat} {call : Call} {answer : Answer} (h : analysis.Follows i events)
    (hcall : analysis.Outcome next call after answer)
    (hnext : ∀ id position, Event.started i id position ∈ events → id < next)
    (hhand : ∀ element, call = .finish element → ∀ position,
      Event.started i element.id position ∈ events → element.position = position) :
    after.Follows i (events ++ [.call i call answer]) := by
  have hopened : ∀ id position, analysis.stage = .inside id position →
      Event.started i id position ∈ events :=
    fun id position hinside => ((h.inside_iff id position).1 hinside).started
  cases hcall with
  | added localName block =>
    refine h.keep rfl rfl (fun id position hevent => by cases hevent) (fun id position _ => ?_) rfl
    rintro ⟨element, answer, hevent, -⟩
    cases hevent
  | notStarted position error hstage => exact h.refused fun element here hcall => by cases hcall
  | notClosed id position error hstage => exact h.refused fun element here hcall => by cases hcall
  | notOpen element error hstage =>
    refine h.refused fun other position hcall => ?_
    cases hcall
    exact hstage position
  | closed hstage =>
    refine h.leave nofun (List.append_nil _).symm nofun (fun id position hinside => ?_) nofun
    exact absurd hinside (hstage id position)
  | rejected element position cause error hstage hunfit =>
    refine h.leave nofun (List.append_nil _).symm nofun (fun id here hinside => ?_) nofun
    rw [hstage] at hinside
    cases hinside
    exact ⟨element, _, rfl, rfl⟩
  | recorded element position hstage hfit =>
    have hevent : Event.recorded? i (.call i (.finish element) (.ok none)) = some element :=
      if_pos rfl
    refine h.leave nofun ?_ nofun (fun id here hinside => ?_) (fun other hother => ?_)
    · rw [hevent]
      rfl
    · rw [hstage] at hinside
      cases hinside
      exact ⟨element, _, rfl, rfl⟩
    -- The element in hand stands where the open one has been started.
    · rw [hevent] at hother
      cases hother
      rw [hhand element rfl position (hopened _ _ hstage), hstage]
  | started position hstage =>
    have hidle : ∀ id here, ¬ IsOpen events i id here := by
      intro id here hopen
      have := (h.inside_iff id here).2 hopen
      rw [hstage] at this
      cases this
    refine ⟨fun id here => ?_, ?_, fun id here hinside => ?_, h.nodup, fun element helement => ?_⟩
    · rw [isOpen_concat]
      constructor
      · intro hinside
        cases hinside
        exact .inl rfl
      · rintro (hevent | ⟨hopen, -⟩)
        · cases hevent
          rfl
        · exact absurd hopen (hidle id here)
    · rw [List.filterMap_append, ← h.elements_eq]
      exact (List.append_nil _).symm
    -- The number is a new one.
    · cases hinside
      exact fun element helement => Nat.ne_of_lt (hnext _ _ (h.started element helement))
    · exact List.mem_append_left _ (h.started element helement)

end Analysis.Follows

/-! ### What holds at any time -/

namespace Desk

/-- What holds of the analyses, the elements in hand and the events so far. The second
to fourth points are needed for the last one: numbers are new when they are given out,
and an element in hand is known by its number and its position. -/
structure Orderly (events : List Event) (desk : Desk) : Prop where
  /-- Calls have been made to analyses that are there. -/
  calls : ∀ i call answer, Event.call i call answer ∈ events → i < desk.analyses.length
  /-- Numbers that have been given out are used up. -/
  used : ∀ i id position, Event.started i id position ∈ events → id < desk.next
  /-- So are those of elements in hand. -/
  hands_used : ∀ element ∈ desk.hands, element.id < desk.next
  /-- An element in hand is where it was when it was given out. -/
  position_eq : ∀ i id position, Event.started i id position ∈ events →
    ∀ element ∈ desk.hands, element.id = id → element.position = position
  follows : ∀ i (analysis : Analysis), desk.analyses[i]? = some analysis →
    analysis.Follows i events

variable {events : List Event} {event : Event} {desk after : Desk}

namespace Orderly

/-- An element in hand is taken in hand again, in another form. A caller may attach
things to an element as often as it likes, and number and position stay. -/
theorem take (h : Orderly events desk) {element : Element} (changed : Element)
    (helement : element ∈ desk.hands) (hid : changed.id = element.id)
    (hposition : changed.position = element.position) :
    Orderly events (desk.take changed) where
  calls := h.calls
  used := h.used
  hands_used := by
    intro other hother
    -- The new form has the number of the old one, which is used up.
    rcases List.mem_cons.1 hother with rfl | hother
    · exact hid ▸ h.hands_used element helement
    · exact h.hands_used other hother
  position_eq := by
    intro i id position hstart other hother hother'
    rcases List.mem_cons.1 hother with rfl | hother
    · rw [hposition]
      exact h.position_eq i id position hstart element helement (hid ▸ hother')
    · exact h.position_eq i id position hstart other hother hother'
  follows := h.follows

/-- An element with a new number is taken in hand. It is none that has been given out
here. -/
theorem takeNew (h : Orderly events desk) {element : Element} (hid : element.id = desk.next) :
    Orderly events { desk.take element with next := desk.next + 1 } where
  calls := h.calls
  used i id position hstart := Nat.lt_succ_of_lt (h.used i id position hstart)
  hands_used := by
    intro other hother
    rcases List.mem_cons.1 hother with rfl | hother
    · exact hid ▸ Nat.lt_succ_self desk.next
    · exact Nat.lt_succ_of_lt (h.hands_used other hother)
  position_eq := by
    intro i id position hstart other hother hother'
    rcases List.mem_cons.1 hother with rfl | hother
    · exact absurd (hid ▸ hother') (Nat.ne_of_gt (h.used i id position hstart))
    · exact h.position_eq i id position hstart other hother hother'
  follows := h.follows

/-- Nothing is asked of any analysis. So all histories are as before. -/
theorem aside (h : Orderly events desk) : Orderly (events ++ [.aside]) desk where
  calls i call answer hmem := h.calls i call answer (by simpa using hmem)
  used i id position hmem := h.used i id position (by simpa [Event.started] using hmem)
  hands_used := h.hands_used
  position_eq i id position hmem :=
    h.position_eq i id position (by simpa [Event.started] using hmem)
  follows i analysis hi := (h.follows i analysis hi).elsewhere fun _ _ hevent => by cases hevent

/-- Another analysis is begun. Nothing has been asked of it yet, since calls are made
to analyses that are there. -/
theorem begin (h : Orderly events desk) (template : String) (options : Options) :
    Orderly events { desk with analyses := desk.analyses ++ [.begin template options] } where
  calls i call answer hmem := by
    have := h.calls i call answer hmem
    simp only [List.length_append, List.length_singleton]
    omega
  used := h.used
  hands_used := h.hands_used
  position_eq := h.position_eq
  follows i analysis hi := by
    rw [List.getElem?_append] at hi
    split at hi
    · exact h.follows i analysis hi
    · rename_i hnew
      rw [List.eq_of_mem_singleton (List.mem_of_getElem? hi)]
      exact .begin template options fun call answer hmem => hnew (h.calls i call answer hmem)

section Call

variable {i : Nat} {analysis changed : Analysis} {asked : Analysis.Call} {answer : Analysis.Answer}

/-- One more call is made to an analysis that is there. The analysis keeps its place,
so the events speak of the same ones as before. -/
theorem calls_concat (h : Orderly events desk) (hi : desk.analyses[i]? = some analysis) :
    ∀ j c a, Event.call j c a ∈ events ++ [.call i asked answer] →
      j < (desk.analyses.set i changed).length := by
  intro j c a hmem
  rw [List.length_set]
  rcases List.mem_append.1 hmem with hmem | hmem
  · exact h.calls j c a hmem
  · cases List.mem_singleton.1 hmem
    exact (List.getElem?_eq_some_iff.1 hi).1

/-- The analysis that a call is made to has the call in its history. For all others it
is something that happens elsewhere. -/
theorem follows_concat (h : Orderly events desk) (hi : desk.analyses[i]? = some analysis)
    (hhand : ∀ element, asked = .finish element → element ∈ desk.hands)
    (hcall : analysis.Outcome desk.next asked changed answer) :
    ∀ j (other : Analysis), (desk.analyses.set i changed)[j]? = some other →
      other.Follows j (events ++ [.call i asked answer]) := by
  intro j other hj
  by_cases hij : i = j
  · subst hij
    rw [List.getElem?_set_self (List.getElem?_eq_some_iff.1 hi).1] at hj
    cases hj
    exact (h.follows i analysis hi).call hcall (h.used i)
      fun element helement position hstart =>
        h.position_eq i element.id position hstart element (hhand element helement) rfl
  -- The other analyses are not concerned.
  · rw [List.getElem?_set_ne hij] at hj
    refine (h.follows j other hj).elsewhere fun c a hevent => ?_
    cases hevent
    exact hij rfl

/-- A call changes the analysis that it is made to, and nothing else if nothing is
given out. So no number is used up by it. -/
theorem callQuiet (h : Orderly events desk) (hi : desk.analyses[i]? = some analysis)
    (hhand : ∀ element, asked = .finish element → element ∈ desk.hands)
    (hcall : analysis.Outcome desk.next asked changed answer)
    (hquiet : ∀ element, answer ≠ .ok (some element)) :
    Orderly (events ++ [.call i asked answer])
      { desk with analyses := desk.analyses.set i changed } := by
  -- No element was given out by the call, so all that were started were so before.
  have hold : ∀ j id position,
      Event.started j id position ∈ events ++ [.call i asked answer] →
        Event.started j id position ∈ events := by
    intro j id position hstart
    rcases List.mem_append.1 hstart with hstart | hstart
    · exact hstart
    · cases List.mem_singleton.1 hstart
      exact absurd rfl (hquiet _)
  exact {
    calls := h.calls_concat hi
    used := fun j id position hstart => h.used j id position (hold j id position hstart)
    hands_used := h.hands_used
    position_eq := fun j id position hstart =>
      h.position_eq j id position (hold j id position hstart)
    follows := h.follows_concat hi hhand hcall }

/-- An element that is started is in hand, and its number is used up. The position
that it was started at is the one it has in hand. -/
theorem callStart (h : Orderly events desk) (hi : desk.analyses[i]? = some analysis)
    {position : Position} (hcall : analysis.Outcome desk.next (.start position) changed
      (.ok (some (.bare desk.next position)))) :
    Orderly (events ++ [.started i desk.next position])
      { next := desk.next + 1, analyses := desk.analyses.set i changed,
        hands := .bare desk.next position :: desk.hands } where
  calls := h.calls_concat hi
  used j id here hstart := by
    rcases List.mem_append.1 hstart with hstart | hstart
    · exact Nat.lt_succ_of_lt (h.used j id here hstart)
    · cases List.mem_singleton.1 hstart
      exact Nat.lt_succ_self desk.next
  hands_used element helement := by
    rcases List.mem_cons.1 helement with rfl | helement
    · exact Nat.lt_succ_self desk.next
    · exact Nat.lt_succ_of_lt (h.hands_used element helement)
  -- The number that is given out is none of the earlier ones.
  position_eq j id here hstart element helement hid := by
    rcases List.mem_append.1 hstart with hstart | hstart
    · rcases List.mem_cons.1 helement with rfl | helement
      · exact absurd hid (Nat.ne_of_gt (h.used j id here hstart))
      · exact h.position_eq j id here hstart element helement hid
    · cases List.mem_singleton.1 hstart
      rcases List.mem_cons.1 helement with rfl | helement
      · rfl
      · exact absurd hid (Nat.ne_of_lt (h.hands_used element helement))
  follows := h.follows_concat hi (fun element heq => by cases heq) hcall

/-- A call changes the analysis that it is made to, and nothing else but what it gives
out. -/
theorem call (h : Orderly events desk) (hi : desk.analyses[i]? = some analysis)
    (hhand : ∀ element, asked = .finish element → element ∈ desk.hands)
    (hcall : analysis.Outcome desk.next asked changed answer) :
    Orderly (events ++ [.call i asked answer]) (desk.answered i changed answer) := by
  rcases hcall.givesOut with ⟨position, rfl, rfl⟩ | hquiet
  · exact h.callStart hi hcall
  · rw [desk.answered_quiet i changed hquiet]
    exact h.callQuiet hi hhand hcall hquiet

end Call

/-- Whatever happens next, all of this holds afterwards. Attaching an object changes
neither number nor position. -/
theorem step (h : Orderly events desk) (hstep : Step desk event after) :
    Orderly (events ++ [event]) after := by
  cases hstep with
  | begin template options => exact (h.begin template options).aside
  | call hi call hhand => exact h.call hi hhand (Analysis.outcome_perform _ _ call)
  | @addStatic element helement object =>
    exact (h.take (element.addStatic object) helement rfl rfl).aside
  | @addDynamic element helement object condition =>
    exact (h.take (element.addDynamic object condition) helement rfl rfl).aside
  | @addExclusive element helement group object =>
    exact (h.take (element.addExclusive group object) helement rfl rfl).aside
  | restored hid => exact (h.takeNew hid).aside

end Orderly

/-- What holds at any time of a run, by induction on its events. At the start there
are no analyses, no elements and no calls. -/
theorem Run.orderly (h : Run events desk) : Orderly events desk := by
  induction h with
  | nil next =>
    refine ⟨fun _ _ _ hmem => ?_, fun _ _ _ hmem => ?_, fun _ hmem => ?_, fun _ _ _ hmem => ?_,
      fun i analysis hi => ?_⟩
    · exact absurd hmem List.not_mem_nil
    · exact absurd hmem List.not_mem_nil
    · exact absurd hmem List.not_mem_nil
    · exact absurd hmem List.not_mem_nil
    · simp at hi
  | snoc _ hstep ih => exact ih.step hstep

end Desk

/-! ### What an event makes of an analysis -/

namespace Analysis

variable {i : Nat} {event : Event} {analysis after : Analysis}

/-- An analysis that an event does not concern stays as it is, which is one way to
proceed. -/
theorem Proceeds.elsewhere_refl (h : ∀ call answer, event ≠ .call i call answer) :
    analysis.Proceeds i event analysis where
  closed := id
  elements_eq := by
    rw [Event.recorded?_eq_none h]
    exact (List.append_nil _).symm
  elsewhere _ := rfl
  failed call error hevent := absurd hevent (h call _)

/-- Staying as it is, every analysis proceeds when nothing is asked of any. Another
analysis may be begun, or an object be attached to an element in hand. -/
theorem proceeds_aside (i : Nat) (analysis : Analysis) : analysis.Proceeds i .aside analysis := by
  refine .elsewhere_refl fun call answer h => ?_
  cases h

/-- A call that succeeds and adds what it says. What is said about failures is empty
then. -/
theorem proceeds_ok {call : Call} {element : Option Element}
    (hclosed : analysis.stage = .closed → after.stage = .closed)
    (helements : after.elements
      = analysis.elements ++ (Event.recorded? i (.call i call (.ok element))).toList) :
    analysis.Proceeds i (.call i call (.ok element)) after where
  closed := hclosed
  elements_eq := helements
  elsewhere h := absurd rfl (h call _)
  failed other error hevent := by
    rw [Event.call.injEq] at hevent
    cases hevent.2.2

/-- A call that fails and changes nothing. Nothing is recorded by it. -/
theorem proceeds_error (i : Nat) (analysis : Analysis) (call : Call) (error : Error) :
    analysis.Proceeds i (.call i call (.error error)) analysis where
  closed hclosed := hclosed
  elements_eq := by cases call <;> exact (List.append_nil _).symm
  elsewhere _ := rfl
  failed _ _ _ := .inl rfl

/-- By each of its outcomes a call proceeds. Only the end of an open element that does
not fit both fails and changes something. -/
theorem Outcome.proceeds {next : Nat} {call : Call} {answer : Answer}
    (h : analysis.Outcome next call after answer) :
    analysis.Proceeds i (.call i call answer) after := by
  cases h with
  | added localName block =>
    exact proceeds_ok (fun hclosed => hclosed) (List.append_nil _).symm
  | started position hstage =>
    exact proceeds_ok (fun hclosed => by simp [hstage] at hclosed) (List.append_nil _).symm
  | recorded element position hstage hfit =>
    refine proceeds_ok (fun hclosed => by simp [hstage] at hclosed) ?_
    rw [Event.recorded?, if_pos rfl]
    rfl
  | closed hstage => exact proceeds_ok (fun _ => rfl) (List.append_nil _).symm
  | notStarted position error hstage => exact analysis.proceeds_error i _ error
  | notOpen element error hstage => exact analysis.proceeds_error i _ error
  | notClosed id position error hstage => exact analysis.proceeds_error i _ error
  -- The only call that fails and changes something.
  | rejected element position cause error hstage hunfit =>
    refine ⟨fun hclosed => by simp [hstage] at hclosed, (List.append_nil _).symm,
      fun h => absurd rfl (h _ _), fun call error' hevent => .inr ?_⟩
    rw [Event.call.injEq] at hevent
    exact ⟨element, position, cause, hevent.2.1.symm, hstage, hunfit, rfl⟩

end Analysis

namespace Desk

variable {events : List Event} {event : Event} {desk after : Desk}

/-- An analysis that is there stays there, and proceeds by the event. A call may be to
this analysis or to another one. -/
theorem Step.proceeds (h : Step desk event after) {i : Nat} {analysis : Analysis}
    (hi : desk.analyses[i]? = some analysis) :
    ∃ later, after.analyses[i]? = some later ∧ analysis.Proceeds i event later := by
  have hlength : i < desk.analyses.length := (List.getElem?_eq_some_iff.1 hi).1
  cases h with
  | begin template options =>
    refine ⟨analysis, ?_, analysis.proceeds_aside i⟩
    rw [List.getElem?_append_left hlength]
    exact hi
  | addStatic => exact ⟨analysis, hi, analysis.proceeds_aside i⟩
  | addDynamic => exact ⟨analysis, hi, analysis.proceeds_aside i⟩
  | addExclusive => exact ⟨analysis, hi, analysis.proceeds_aside i⟩
  | restored => exact ⟨analysis, hi, analysis.proceeds_aside i⟩
  | @call j other hj call hhand =>
    rw [desk.analyses_answered]
    -- The call was made to this analysis, or to another one.
    by_cases hij : j = i
    · subst hij
      rw [hi] at hj
      cases hj
      exact ⟨_, List.getElem?_set_self hlength, (analysis.outcome_perform desk.next call).proceeds⟩
    · refine ⟨analysis, (List.getElem?_set_ne hij).trans hi, .elsewhere_refl fun c a hevent => ?_⟩
      cases hevent
      exact hij rfl

/-- At any time of a run, an analysis is what its history says, and it goes on so.
Both parts together cover every run, one event at a time. Calls to different analyses
may be mixed in any way, and elements may be handed to the wrong one. -/
theorem Run.follows_history (h : Run events desk) {i : Nat} {analysis : Analysis}
    (hi : desk.analyses[i]? = some analysis) :
    analysis.Follows i events ∧ ∀ event after, Step desk event after →
      ∃ later, after.analyses[i]? = some later ∧ analysis.Proceeds i event later :=
  ⟨h.orderly.follows i analysis hi, fun _ _ hstep => hstep.proceeds hi⟩

/-- Two analyses are under way. The first one is handed the element of the second,
then its own with an object of a block that it does not know; the second one is handed
its element twice. Three of these calls fail, and what is recorded is the one element
that was accepted. -/
theorem follows_history_crossed :
    let first : Analysis := .begin "one.hbs" .default
    let second : Analysis := .begin "two.hbs" .default
    let root : Object := .cls (Block.bare 0 "b" "b.css" []).rootRef
    let own : Element := (Element.bare 5 ⟨1, 1⟩).addStatic root
    let foreign : Element := .bare 6 ⟨2, 2⟩
    let unknown : Cause := .unregisteredBlock root.qualifiedName root.block.name
    let events : List Event := [.aside, .aside, .started 0 5 ⟨1, 1⟩, .started 1 6 ⟨2, 2⟩, .aside,
      .call 0 (.finish foreign) (.error (first.errorAt ⟨2, 2⟩ .notTheOpenElement)),
      .call 0 (.finish own) (.error (first.errorAt ⟨1, 1⟩ unknown)),
      .call 1 (.finish foreign) (.ok none),
      .call 1 (.finish foreign) (.error (second.errorAt ⟨2, 2⟩ .noOpenElement))]
    let after : Analysis := { second with elements := [foreign] }
    ∃ desk, Run events desk ∧ desk.analyses = [first, after] ∧
      after.Follows 1 events ∧ ∀ event later, Step desk event later →
        ∃ changed, later.analyses[1]? = some changed ∧ after.Proceeds 1 event changed := by
  intro first second root own foreign unknown events after
  let firstOpen : Analysis := { first with stage := .inside 5 ⟨1, 1⟩ }
  let secondOpen : Analysis := { second with stage := .inside 6 ⟨2, 2⟩ }
  let hands : List Element := [own, foreign, .bare 5 ⟨1, 1⟩]
  have hown : ∀ element, Analysis.Call.finish own = .finish element → element ∈ hands := by
    rintro _ ⟨⟩
    exact List.mem_cons_self
  have hforeign : ∀ element, Analysis.Call.finish foreign = .finish element → element ∈ hands := by
    rintro _ ⟨⟩
    exact List.mem_cons_of_mem own List.mem_cons_self
  -- One step for each event, with what each of the two analyses is then.
  have hfirst : Step ⟨5, [first, second], []⟩ (.started 0 5 ⟨1, 1⟩)
      ⟨6, [firstOpen, second], [.bare 5 ⟨1, 1⟩]⟩ :=
    @Step.call _ 0 first rfl (.start ⟨1, 1⟩) nofun
  have hsecond : Step ⟨6, [firstOpen, second], [.bare 5 ⟨1, 1⟩]⟩ (.started 1 6 ⟨2, 2⟩)
      ⟨7, [firstOpen, secondOpen], [foreign, .bare 5 ⟨1, 1⟩]⟩ :=
    @Step.call _ 1 second rfl (.start ⟨2, 2⟩) nofun
  have hattach : Step ⟨7, [firstOpen, secondOpen], [foreign, .bare 5 ⟨1, 1⟩]⟩ .aside
      ⟨7, [firstOpen, secondOpen], hands⟩ :=
    .addStatic (List.mem_cons_of_mem foreign List.mem_cons_self) root
  have hcrossed : Step ⟨7, [firstOpen, secondOpen], hands⟩
      (.call 0 (.finish foreign) (.error (first.errorAt ⟨2, 2⟩ .notTheOpenElement)))
      ⟨7, [firstOpen, secondOpen], hands⟩ :=
    @Step.call _ 0 firstOpen rfl (.finish foreign) hforeign
  have hrejected : Step ⟨7, [firstOpen, secondOpen], hands⟩
      (.call 0 (.finish own) (.error (first.errorAt ⟨1, 1⟩ unknown)))
      ⟨7, [first, secondOpen], hands⟩ :=
    @Step.call _ 0 firstOpen rfl (.finish own) hown
  have haccepted : Step ⟨7, [first, secondOpen], hands⟩ (.call 1 (.finish foreign) (.ok none))
      ⟨7, [first, after], hands⟩ :=
    @Step.call _ 1 secondOpen rfl (.finish foreign) hforeign
  have hagain : Step ⟨7, [first, after], hands⟩
      (.call 1 (.finish foreign) (.error (second.errorAt ⟨2, 2⟩ .noOpenElement)))
      ⟨7, [first, after], hands⟩ :=
    @Step.call _ 1 after rfl (.finish foreign) hforeign
  have hrun : Run events ⟨7, [first, after], hands⟩ :=
    (Run.nil 5).snoc (.begin "one.hbs" .default) |>.snoc (.begin "two.hbs" .default)
      |>.snoc hfirst |>.snoc hsecond |>.snoc hattach |>.snoc hcrossed |>.snoc hrejected
      |>.snoc haccepted |>.snoc hagain
  exact ⟨_, hrun, rfl, hrun.follows_history rfl⟩

end Desk

end BlockStyles
