import BlockStyles.Proofs.Library.Arena
import BlockStyles.Proofs.Library.Sequential
import BlockStyles.Proofs.Stylesheet.Names
import Mathlib.Data.Countable.Basic
import Mathlib.Data.List.Chain
import Mathlib.Logic.Encodable.Basic
import Mathlib.Logic.Equiv.List

/-!
# `BlockStyles.Proofs.Library.Agreement`: other requests do not change an answer

What a request is answered by may depend on others in two ways. Blocks are taken
over from them, and a file is refused if it would close a circle with files that
others are loading, or if the chain of a request is too long.

The first makes no difference, since every registered block is what its file
means (`Agreeing.blocks`). The second does not occur for a file that is *loadable*:
no circle can be reached from it, and no chain of references from it is longer than
the limit. Files only wait for files that they refer to, so a circle of waiting
files would be one of references.

* `Task.Stack.not_refused`: a request on behalf of a loadable file is not refused, however
  many others are under way.
* `Session.Agreeing.step`: a step keeps the agreement of blocks and answers with their meaning.
* `Session.agreeing_of_reachable`: what a loadable file is answered by is what it means.
* `Session.agrees_with_alone`: so it is what the file is answered by on its own, up
  to the ids of blocks.
-/

set_option autoImplicit false

namespace BlockStyles

open Relation (TransGen ReflTransGen)

/-- No circle of references can be reached from a file, and no chain of references from it has
more files than the limit. -/
structure Config.Loadable (config : Config) (target : String) : Prop where
  acyclic : ∀ file, ReflTransGen config.RefersTo target file → ¬ TransGen config.RefersTo file file
  depth : ∀ chain : List String, (target :: chain).IsChain config.RefersTo →
    (target :: chain).length ≤ config.maxDepth

/-- A file is loadable if those that it refers to refer to nothing. This is for
examples, where there are few files. -/
theorem Config.loadable_of_leaves {config : Config} {target : String}
    (hleaves : ∀ file, config.RefersTo target file → config.referencesOf file = [])
    (hdepth : 2 ≤ config.maxDepth) : config.Loadable target := by
  -- Whatever is reached from the target is a leaf, so no way is longer than one reference.
  have hend : ∀ {file next : String}, TransGen config.RefersTo target file →
      ¬ config.RefersTo file next := by
    rintro file next hreach ⟨name, hname⟩
    obtain ⟨first, hfirst, hrest⟩ := TransGen.head'_iff.1 hreach
    rcases Relation.ReflTransGen.cases_head hrest with rfl | ⟨_, ⟨name', hname'⟩, -⟩
    · rw [hleaves _ hfirst] at hname
      cases hname
    · rw [hleaves _ hfirst] at hname'
      cases hname'
  refine ⟨fun file hreach hcircle => ?_, fun chain hchain => ?_⟩
  · obtain ⟨next, hnext, -⟩ := TransGen.head'_iff.1 hcircle
    exact hend (TransGen.trans_right hreach hcircle) hnext
  · match chain, hchain with
    | [], _ => exact Nat.le_trans (Nat.le_succ 1) hdepth
    | [file], _ => exact hdepth
    | file :: next :: rest, hchain =>
      obtain ⟨hfile, hrest⟩ := List.isChain_cons_cons.1 hchain
      exact absurd (List.isChain_cons_cons.1 hrest).1 (hend (.single hfile))

/-! ### Files that others wait for -/

namespace Task

variable {config : Config} {first request : Request} {waiting : List WaitingFile}

/-- The files of a stack are a chain of references that starts at the file of the
first request. So a bound on such chains is one on the depth of a stack. -/
theorem Stack.chain (h : Stack config first waiting request) :
    ∃ rest, Task.chain waiting ++ [request.target] = first.target :: rest
      ∧ (first.target :: rest).IsChain config.RefersTo := by
  induction h with
  | bottom => exact ⟨[], rfl, .singleton _⟩
  | push waiting lower request file after localName _ hreads hfile hrefers ih =>
    -- What has been the last file of the chain is open now, and refers to the new last one.
    obtain ⟨rest, hrest, hchain⟩ := ih
    have hrefersTo := hrefers.refersTo hreads
    rw [hfile] at hrefersTo
    have hlist : Task.chain (⟨after, localName⟩ :: waiting) ++ [request.target]
        = first.target :: (rest ++ [request.target]) := by
      rw [← List.cons_append, ← hrest]
      simp [Task.chain, hrefers.identifier, hfile]
    refine ⟨rest ++ [request.target], hlist, ?_⟩
    rw [← List.cons_append, ← hrest, List.append_assoc, List.singleton_append,
      List.isChain_append_cons_cons]
    exact ⟨hrest ▸ hchain, hrefersTo, .singleton _⟩

/-- The file of the first request leads to every file that comes later. Each file in
the stack refers to the one above it, so this is the chain of them read upwards. -/
theorem Stack.reach (h : Stack config first waiting request) :
    ReflTransGen config.RefersTo first.target request.target := by
  induction h with
  | bottom => exact .refl
  | push waiting lower request file after localName _ hreads hfile hrefers ih =>
    exact ih.tail (hfile ▸ hrefers.refersTo hreads)

/-- The files that are open in a task lead to the file that it asks for. So if one of
them is the file that is asked for, there is a circle of references. -/
theorem Stack.reach_of_mem_chain (h : Stack config first waiting request) {file : String}
    (hfile : file ∈ Task.chain waiting) : TransGen config.RefersTo file request.target :=
  Session.reach_above (fun _ _ hmem => h.refersTo_of_mem_awaits hmem) (mem_chain.1 hfile)

/-- What the files of a stack wait for does not depend on what the uppermost one waits
for. -/
theorem mem_awaitsFrom_none {above : String} {file next : String}
    (h : (file, next) ∈ awaitsFrom none waiting) :
    (file, next) ∈ awaitsFrom (some above) waiting := by
  rw [awaitsFrom_some]
  exact List.mem_append_right _ h

/-- What a task makes a file wait for is a file that it refers to. The phase says
whether the last file waits at all. -/
theorem From.refersTo_of_mem_awaits {task : Task} (h : task.From config first)
    {file next : String} (hmem : (file, next) ∈ task.awaits) : config.RefersTo file next := by
  obtain ⟨waiting, phase⟩ := task
  obtain ⟨request, hstack, hphase⟩ := h
  refine hstack.refersTo_of_mem_awaits ?_
  cases phase with
  -- In a phase that awaits nothing the innermost file has no edge, but those below it do.
  | entering r => exact mem_awaitsFrom_none hmem
  | importing r delay => exact hphase ▸ hmem
  | queued r => exact hphase ▸ hmem
  | compiling file => exact hphase.2 ▸ hmem
  | returning answer => exact mem_awaitsFrom_none hmem

/-- Where there is no circle, a request is refused only for the limit. The two other
reasons, a file of the chain itself and a circle of waiting files, would make a circle
of references. -/
theorem Stack.tooDeep_of_refused {library : Library} {cause : Cause}
    (h : Stack config first waiting request)
    (hacyclic : ∀ file, ReflTransGen config.RefersTo first.target file →
      ¬ TransGen config.RefersTo file file)
    (hawaits : ∀ file next, library.Awaits file next → config.RefersTo file next)
    (hrefused : request.Refused config library waiting cause) :
    cause = .tooDeep config.maxDepth := by
  have hcircle := hacyclic request.target h.reach
  cases hrefused with
  | inChain hin => exact absurd (h.reach_of_mem_chain hin) hcircle
  | tooDeep hnew hdeep => rfl
  -- Files that wait refer to what they wait for, so the walk back is one along references.
  | circle walk hnew hdepth hunknown hwalk =>
    obtain ⟨file, hfile, hreach⟩ := Library.reach_of_circle hwalk
    have hback : TransGen config.RefersTo request.target file := hreach.lift id hawaits
    exact absurd (hback.trans (h.reach_of_mem_chain hfile)) hcircle

/-- A request on behalf of a loadable file is not refused, not even if many others are
under way. -/
theorem Stack.not_refused {library : Library} {cause : Cause}
    (h : Stack config first waiting request) (hloadable : config.Loadable first.target)
    (hawaits : ∀ file next, library.Awaits file next → config.RefersTo file next) :
    ¬ request.Refused config library waiting cause := by
  intro hrefused
  cases h.tooDeep_of_refused hloadable.acyclic hawaits hrefused
  cases hrefused with
  | tooDeep hnew hdeep =>
    obtain ⟨rest, hrest, hchain⟩ := h.chain
    have hshort := hloadable.depth rest hchain
    rw [← hrest, List.length_append, List.length_singleton] at hshort
    omega

end Task

/-! ### Agreement -/

namespace Session

variable {config : Config} {number : String → Nat} {session session' : Session}

/-- Files only wait for files that they refer to. The library keeps what they wait
for, and by the invariant this is what the tasks say. -/
theorem refersTo_of_awaits (horderly : session.Orderly) (hsettled : session.Settled config)
    {file next : String} (h : session.library.Awaits file next) : config.RefersTo file next := by
  obtain ⟨i, task, htask, hmem⟩ := (horderly.awaiting.awaits_iff file next).1 h
  rw [tasks, List.getElem?_map] at htask
  obtain ⟨⟨reference, task⟩, hrequest, rfl⟩ := Option.map_eq_some_iff.1 htask
  exact (hsettled.origins i reference task hrequest).refersTo_of_mem_awaits hmem

/-- Registered blocks are what their files mean, and so are the answers that loadable files
have got; and errors that go back to a loadable file are what the request means that they
come from. -/
structure Agreeing (config : Config) (number : String → Nat) (session : Session) : Prop where
  blocks : ∀ block ∈ session.library.blocks, ∀ location,
    config.Means number ⟨block.identifier, location⟩ (.ok (block.relabel number))
  errors : ∀ (i : TaskId) (reference : String) (task : Task),
    session.requests[i]? = some (reference, task) →
      config.Loadable (config.request reference).target →
        ∀ error, task.phase = .returning (.error error) →
          ∃ request, Task.Stack config (config.request reference) task.waiting request
            ∧ config.Means number request (.error error)
  answered : ∀ (reference : String) (answer : Except Error Block),
    (reference, answer) ∈ session.answered → config.Loadable (config.request reference).target →
      config.Means number (config.request reference) (answer.map (Block.relabel number))

namespace Agreeing

/-- The references of open files mean what they have been answered by. They have been
answered by registered blocks, and registered blocks mean what their files say. -/
theorem grounded (h : session.Agreeing config number) (hsettled : session.Settled config)
    {me : TaskId} {task : Task} (hme : session.tasks[me]? = some task) {file : OpenFile}
    (hfile : file ∈ task.files) : file.Grounded config number :=
  fun reference hreference =>
    h.blocks _ (hsettled.arena.referred me task hme file hfile reference hreference)

/-- Answers to loadable files are what these mean. A block has been registered by
then, and an error goes back to the request itself. -/
theorem of_mem_answers (h : session.Agreeing config number) (hsettled : session.Settled config)
    {reference : String} {answer : Except Error Block}
    (hanswer : (reference, answer) ∈ session.answers)
    (hloadable : config.Loadable (config.request reference).target) :
    config.Means number (config.request reference) (answer.map (Block.relabel number)) := by
  have hmem := hanswer
  obtain ⟨⟨reference', task⟩, hrequest, heq⟩ := List.mem_filterMap.1 hanswer
  obtain ⟨answer', htask, hpair⟩ := Option.map_eq_some_iff.1 heq
  cases hpair
  cases Task.answer?_eq_some.1 htask
  cases answer with
  | ok block =>
    obtain ⟨hblock, hidentifier⟩ := hsettled.mem_answers hmem
    have hmeans := h.blocks block hblock (config.request reference).location
    rwa [hidentifier] at hmeans
  | error error =>
    obtain ⟨i, hi⟩ := List.mem_iff_getElem?.1 hrequest
    -- No file is left waiting, so the error comes from the first request itself.
    obtain ⟨request, hstack, hmeans⟩ := h.errors i reference _ hi hloadable error rfl
    cases hstack
    exact hmeans

end Agreeing

/-- The ids of registered blocks tell them apart as their identifiers do. So a
numbering of identifiers can stand for ids that depend on the course of events. -/
theorem Settled.bare_grounded (h : session.Settled config) (hnumber : Function.Injective number)
    {me : TaskId} {task : Task} (hme : session.tasks[me]? = some task) {file : OpenFile}
    (hfile : file ∈ task.files) :
    (Block.bare file.id file.name file.identifier file.references).Grounded number where
  tells := by
    intro reference hreference reference' hreference'
    have hin := h.arena.referred me task hme file hfile reference hreference
    have hin' := h.arena.referred me task hme file hfile reference' hreference'
    constructor
    · intro hid
      rw [Arena.eq_of_id hin hin' hid]
    · intro hidentifier
      rw [h.arena.eq_of_identifier hin hin' (hnumber hidentifier)]
  base := fun base hbase => by cases hbase

namespace Agreeing

/-- A step that goes wrong goes wrong in a way that the request means. Errors begin in
three ways, of which one does not occur for a loadable file, and then they go down the
stack. -/
theorem errors_of_move (h : session.Agreeing config number) (horderly : session.Orderly)
    (hsettled : session.Settled config) (hnumber : Function.Injective number) {me : TaskId}
    {reference : String} {task task' : Task} {library' : Library}
    (hme : session.requests[me]? = some (reference, task))
    (hloadable : config.Loadable (config.request reference).target)
    (hmove : Task.Move config me session.library task library' task') {error : Error}
    (herror : task'.phase = .returning (.error error)) :
    ∃ request, Task.Stack config (config.request reference) task'.waiting request
      ∧ config.Means number request (.error error) := by
  have htask := getElem?_tasks hme
  obtain ⟨request, hstack, hphase⟩ := hsettled.origins me reference task hme
  cases hmove with
  | refused waiting r cause hrefused =>
    cases hphase
    exact absurd hrefused (hstack.not_refused hloadable fun _ _ =>
      refersTo_of_awaits horderly hsettled)
  | unreadable waiting r error' hunreadable =>
    cases hphase
    cases herror
    exact ⟨request, hstack, Config.means_of_unreadable hunreadable⟩
  | faulty waiting file error' hfaulty =>
    cases herror
    obtain ⟨hreads, hfile⟩ := hphase
    have hin : file ∈ Task.files ⟨waiting, .compiling file⟩ := List.mem_cons_self
    have hmeans := hreads.means_of_faulty (h.grounded hsettled htask hin)
      (hsettled.bare_grounded hnumber htask hin) hfaulty request.location
    rw [hfile] at hmeans
    exact ⟨request, hstack, hmeans⟩
  | lost waiting below error' =>
    cases herror
    -- The error of the request above becomes that of the file which has made this request.
    obtain ⟨above, habove, hmeans⟩ := h.errors me reference _ hme hloadable error rfl
    obtain _ | ⟨_, lower, _, file, after, localName, hbelow, hreads, hfile, hrefers⟩ := habove
    have hreferences : after.references = file.references := by
      cases hrefers
      rfl
    have hgrounded : file.Grounded config number := by
      have hafter : after.Grounded config number := h.grounded hsettled htask List.mem_cons_self
      rwa [OpenFile.Grounded, hreferences] at hafter
    have hlower := hrefers.means_of_error hreads hgrounded hmeans lower.location
    rw [hfile] at hlower
    exact ⟨lower, hbelow, hlower⟩
  | _ => cases herror

/-- A block that a step registers is what its file means. Its references do by
hypothesis, and building commutes with numbering. -/
theorem blocks_of_move (h : session.Agreeing config number) (hsettled : session.Settled config)
    (hnumber : Function.Injective number) {me : TaskId} {reference : String} {task task' : Task}
    {library' : Library} (hme : session.requests[me]? = some (reference, task))
    (hmove : Task.Move config me session.library task library' task') {block : Block}
    (hblock : block ∈ library'.blocks) (location : Location) :
    config.Means number ⟨block.identifier, location⟩ (.ok (block.relabel number)) := by
  have htask := getElem?_tasks hme
  obtain ⟨request, hstack, hphase⟩ := hsettled.origins me reference task hme
  rcases hmove.blocks with hsame | ⟨waiting, file, new, rfl, hpending, hbuilt, hblocks⟩
  · exact h.blocks block (hsame ▸ hblock) location
  · have hin : file ∈ Task.files ⟨waiting, .compiling file⟩ := List.mem_cons_self
    have hkeeps := Block.ofRules_keeps hbuilt
    -- The block that has just been built has the id of its file, which no other block has.
    rw [hblocks, hsettled.arena.mem_blocks_register htask hin hkeeps.id] at hblock
    rcases hblock with rfl | hblock
    · have hmeans := hphase.1.means_of_built (h.grounded hsettled htask hin)
        (hsettled.bare_grounded hnumber htask hin) hpending hbuilt location
      rwa [hkeeps.identifier]
    · exact h.blocks block hblock location

/-- Every step of a session keeps the agreement. Only the work of a task can break it;
asking, waiting and settling carry it along. -/
theorem step (h : session.Agreeing config number) (horderly : session.Orderly)
    (hsettled : session.Settled config) (hnumber : Function.Injective number)
    (hstep : Step config session session') : session'.Agreeing config number := by
  cases hstep with
  | ask reference =>
    refine ⟨h.blocks, fun i r task hi hloadable error herror => ?_, h.answered⟩
    rcases of_getElem?_append hi with hi | ⟨rfl, rfl⟩
    · exact h.errors i r task hi hloadable error herror
    · cases herror
  | work me reference library task task' hme hstep =>
    have hmove := Task.move_of_step? hstep
    refine ⟨fun block hblock => ?_, fun i r t hi hloadable error herror => ?_, h.answered⟩
    · exact h.blocks_of_move hsettled hnumber hme hmove hblock
    · rw [getElem?_requests_update hme] at hi
      split at hi
      · cases hi
        exact h.errors_of_move horderly hsettled hnumber hme hloadable hmove herror
      · exact h.errors i r t hi hloadable error herror
  | tick me reference task hme =>
    -- A task that returns an error is not delayed, so it has returned the error before.
    refine ⟨h.blocks, fun i r t hi hloadable error herror => ?_, h.answered⟩
    rw [getElem?_requests_update hme] at hi
    split at hi
    · cases hi
      rw [Task.waiting_tick]
      refine h.errors me reference task hme hloadable error ?_
      rw [Task.tick] at herror
      split at herror
      · cases herror
      · exact herror
    · exact h.errors i r t hi hloadable error herror
  | settle hanswered =>
    refine ⟨h.blocks, by simp, fun reference answer hanswer hloadable => ?_⟩
    rcases List.mem_append.1 hanswer with hanswer | hanswer
    · exact h.answered reference answer hanswer hloadable
    · exact h.of_mem_answers hsettled hanswer hloadable

end Agreeing

/-- Every reachable session agrees with what files mean. The other invariants are
known of the state before each step, so they can be used there. -/
theorem agreeing_of_reachable (hnumber : Function.Injective number)
    (h : Reachable config session) : session.Agreeing config number := by
  refine h.invariant ⟨nofun, nofun, nofun⟩ fun s s' hreach hagreeing hstep => ?_
  exact hagreeing.step (orderly_of_reachable hreach) (settled_of_reachable hreach) hnumber hstep

/-- The identifiers can be numbered. Which numbering it is does not matter, so it need
not be computed. -/
theorem exists_number : ∃ number : String → Nat, Function.Injective number := by
  have : Countable Char := Function.Injective.countable fun _ _ h => Char.toNat_inj.1 h
  have : Countable String := Function.Injective.countable fun _ _ h => String.toList_inj.1 h
  exact exists_injective_nat String

/-! ### Answers -/

/-- What a loadable file is answered by, at any time, is what it means, whether the
answer has just come or has been collected before. -/
theorem means_of_answer (hnumber : Function.Injective number) (h : Reachable config session)
    {reference : String} {answer : Except Error Block}
    (hanswer : (reference, answer) ∈ session.answered ++ session.answers)
    (hloadable : config.Loadable (config.request reference).target) :
    config.Means number (config.request reference) (answer.map (Block.relabel number)) := by
  have hagreeing := agreeing_of_reachable hnumber h
  exact (List.mem_append.1 hanswer).elim
    (fun hanswer => hagreeing.answered reference answer hanswer hloadable)
    fun hanswer => hagreeing.of_mem_answers (settled_of_reachable h) hanswer hloadable

/-- The answers of a run are those of its session. By this what is proved about
sessions speaks of the function that loads several references. -/
theorem mem_answers_of_getAll {library : Library} (answered : List (String × Except Error Block))
    {references : List String} {i : Nat} {reference : String} {answer : Except Error Block}
    (hreference : references[i]? = some reference)
    (hanswer : (library.getAll config references).2[i]? = some (some answer)) :
    (reference, answer) ∈ answers
      ⟨(Library.run config library (references.map (.get config))).1,
        references.zip (Library.run config library (references.map (.get config))).2,
        answered⟩ := by
  rw [Library.getAll, List.getElem?_map] at hanswer
  obtain ⟨task, htask, hanswer⟩ := Option.map_eq_some_iff.1 hanswer
  refine List.mem_filterMap.2 ⟨(reference, task), List.mem_of_getElem? (i := i) ?_, ?_⟩
  · rw [List.getElem?_zip_eq_some]
    exact ⟨hreference, htask⟩
  · exact congrArg (Option.map (reference, ·)) hanswer

/-- Every request is answered when references are loaded together. It may be an error,
but it is there. -/
theorem exists_answer {library : Library} {answered : List (String × Except Error Block)}
    (h : Reachable config ⟨library, [], answered⟩) {references : List String} {i : Nat}
    {reference : String} (hreference : references[i]? = some reference) :
    ∃ answer, (library.getAll config references).2[i]? = some (some answer) := by
  obtain ⟨hlength, hall⟩ := getAll_answers h references
  have hlt : i < (library.getAll config references).2.length :=
    hlength ▸ (List.getElem?_eq_some_iff.1 hreference).1
  obtain ⟨answer, hanswer⟩ := Option.isSome_iff_exists.1 (hall _ (List.getElem_mem hlt))
  exact ⟨answer, by rw [List.getElem?_eq_getElem hlt, hanswer]⟩

/-- A loadable file on its own is answered by what it means. This is one side of the
comparison with a busy session; the other is `means_of_answer` for any session. -/
theorem get_means (hnumber : Function.Injective number) {reference : String}
    (hloadable : config.Loadable (config.request reference).target) :
    ∃ alone, (Library.get config .empty reference).2 = some alone
      ∧ config.Means number (config.request reference) (alone.map (Block.relabel number)) := by
  -- To be alone is to be the only reference that is loaded in a fresh session.
  have hstart : Reachable config ⟨.empty, [], []⟩ := .refl
  have hreference : [reference][0]? = some reference := rfl
  obtain ⟨alone, halone⟩ := exists_answer hstart hreference
  refine ⟨alone, ?_, ?_⟩
  · rw [Library.get_eq_getAll, List.head?_eq_getElem?, halone]
    rfl
  · have hanswer := mem_answers_of_getAll [] hreference halone
    exact means_of_answer hnumber (reachable_getAll hstart [reference])
      (List.mem_append_right _ hanswer) hloadable

/-- Two outcomes that a request means are the same without their ids, since there is
one meaning. -/
theorem withoutIds_eq_of_means {request : Request} {answer answer' : Except Error Block}
    (h : config.Means number request (answer.map (Block.relabel number)))
    (h' : config.Means number request (answer'.map (Block.relabel number))) :
    answer.map Block.withoutIds = answer'.map Block.withoutIds := by
  have hcompose : ∀ a : Except Error Block,
      (a.map (Block.relabel number)).map Block.withoutIds = a.map Block.withoutIds := by
    intro a
    cases a with
    | error error => rfl
    | ok block => exact congrArg Except.ok (Block.withoutIds_relabel number block)
  rw [← hcompose answer, h.unique h', hcompose]

/-- Other requests do not change what a loadable file is answered by. In every reachable
session, whatever other requests have come before or are under way:

- an answer to a loadable file, now or before, is what the file is answered by on its own in an
  empty library: the same error, or the same block but for ids;
- if no request is under way, each loadable file among references that are then loaded together
  is answered, and in this way. -/
theorem agrees_with_alone (h : Reachable config session) :
    (∀ reference answer, (reference, answer) ∈ session.answered ++ session.answers →
        config.Loadable (Path.resolve none reference config.root) →
          ∃ alone, (Library.get config .empty reference).2 = some alone
            ∧ answer.map Block.withoutIds = alone.map Block.withoutIds)
      ∧ (session.requests = [] → ∀ (references : List String) (i : Nat) (reference : String),
        references[i]? = some reference →
          config.Loadable (Path.resolve none reference config.root) →
            ∃ answer alone, (session.library.getAll config references).2[i]? = some (some answer)
              ∧ (Library.get config .empty reference).2 = some alone
              ∧ answer.map Block.withoutIds = alone.map Block.withoutIds) := by
  -- Both outcomes mean the same when the ids are those of one numbering; any will do.
  obtain ⟨number, hnumber⟩ := exists_number
  refine ⟨fun reference answer hanswer hloadable => ?_,
    fun hidle references i reference hreference hloadable => ?_⟩
  · obtain ⟨alone, halone, hmeans⟩ := get_means hnumber hloadable
    have hanswered := means_of_answer hnumber h hanswer hloadable
    exact ⟨alone, halone, withoutIds_eq_of_means hanswered hmeans⟩
  · obtain ⟨library, requests, answered⟩ := session
    cases hidle
    obtain ⟨answer, hanswer⟩ := exists_answer h hreference
    obtain ⟨alone, halone, hmeans⟩ := get_means hnumber hloadable
    refine ⟨answer, alone, hanswer, halone, withoutIds_eq_of_means ?_ hmeans⟩
    have hrun := mem_answers_of_getAll answered hreference hanswer
    exact means_of_answer hnumber (reachable_getAll h references)
      (List.mem_append_right _ hrun) hloadable

/-- A file that refers to another one, which is asked for first and takes a while. The
block of the other file is taken over, and the answer is still the one that the file
gets on its own. -/
theorem agrees_with_alone_shared :
    ∃ config : Config, config.referencesOf "/r/a.css" = [("b", "/r/b.css")]
      ∧ config.Loadable "/r/a.css" ∧ ∃ answer alone,
        (Library.getAll config .empty ["b.css", "a.css"]).2[1]? = some (some answer)
          ∧ (Library.get config .empty "a.css").2 = some alone
          ∧ answer.map Block.withoutIds = alone.map Block.withoutIds := by
  let written := "@block-reference b from \"./b.css\";"
  let config : Config :=
    { files := [("/r/a.css", written), ("/r/b.css", "")]
      root := "/r"
      maxDepth := 2
      delays := [("/r/b.css", 3)] }
  have hread : Stylesheet.ofSource written
      = .ok ⟨[⟨"block-reference", "b from \"./b.css\"", ⟨1, 1⟩⟩], []⟩ := by
    have htext : Text.blankComments written.toList = written.toList := by decide +kernel
    have hstart : Text.trimStart written.toList
        = '@' :: "block-reference b from \"./b.css\";".toList := by decide +kernel
    have hatRule : AtRule.read written.toList
        ('@' :: "block-reference b from \"./b.css\";".toList)
        "block-reference b from \"./b.css\";".toList
          = .ok (⟨"block-reference", "b from \"./b.css\"", ⟨1, 1⟩⟩, []) := by decide +kernel
    rw [Stylesheet.ofSource, htext, Stylesheet.readStatements_atRule hstart hatRule,
      Stylesheet.readStatements_end rfl]
    rfl
  have ha : config.referencesOf "/r/a.css" = [("b", "/r/b.css")] := by
    have hsource : config.source? "/r/a.css" = some written := by simp [config, Config.source?]
    rw [Config.referencesOf, hsource]
    dsimp only
    rw [hread]
    decide +kernel
  have hb : config.referencesOf "/r/b.css" = [] := by
    have hsource : config.source? "/r/b.css" = some "" := by
      simp [config, Config.source?, List.lookup_cons]
    rw [Config.referencesOf, hsource]
    dsimp only
    rw [Stylesheet.ofSource_empty]
    rfl
  -- The second file refers to nothing, so the first one is loadable.
  have hloadable : config.Loadable "/r/a.css" := by
    refine Config.loadable_of_leaves (fun file hfile => ?_) (Nat.le_refl 2)
    obtain ⟨name, hname⟩ := hfile
    rw [ha] at hname
    cases List.mem_singleton.1 hname
    exact hb
  have htarget : Path.resolve none "a.css" config.root = "/r/a.css" := by decide +kernel
  have hstart : Reachable config start := .refl
  obtain ⟨-, hall⟩ := agrees_with_alone hstart
  exact ⟨config, ha, hloadable, hall rfl ["b.css", "a.css"] 1 "a.css" rfl (htarget ▸ hloadable)⟩

end Session

end BlockStyles
