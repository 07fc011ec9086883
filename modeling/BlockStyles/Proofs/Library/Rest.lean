import BlockStyles.Proofs.Library.Origins
import BlockStyles.Proofs.Library.Progress
import BlockStyles.Proofs.Library.Workshop
import Mathlib.Data.List.Chain

/-!
# `BlockStyles.Proofs.Library.Rest`: nothing is left behind

A stylesheet can be handed in under the identifier of a file that is being loaded. Then two tasks
are at work under this identifier, each may put down in its slot what it waits for, and each may
put it out again. So in a workshop the slots say less than in a session. Still, what a slot says
that its file waits for, some task waits for; and who is in the line of a slot is after the file
itself.

Such marks go with the tasks that have made them, provided that the tasks come to their ends. A
library is *at rest* when all tasks have got their answers before they were left.

* `Task.slotted`: a task without the files that fill no slot. With it the lemmas about lines, which
  are made for sessions, can be used here.
* `Waits.step`: what a file waits for, it waits for on behalf of a task.
* `Workshop.Manned.step`: as long as tasks are attended to, somebody stands behind every mark.
* `Workshop.Manned.slot_at_rest`: at rest there are no marks.
-/

set_option autoImplicit false

namespace BlockStyles

open Relation (ReflTransGen)

namespace Task

/-! ### Files above others -/

/-- Whatever stands on another file is to fill its slot. Only at the bottom of a task there may be
a stylesheet that is none of the files. -/
def Founded (task : Task) : Prop :=
  task.files.IsChain fun above _ => above.fillsSlot

variable {config : Config} {me : TaskId} {library library' : Library} {task task' : Task}
  {waiting : List WaitingFile} {file : OpenFile}

/-- A round of a delay opens and closes no file. So the files that lie on each other
are the same as before. -/
theorem Founded.tick (h : task.Founded) : task.tick.Founded := by
  rwa [Founded, files_tick]

/-- Other files can be added to those below, as long as they fill their slots if they
have to. -/
theorem Founded.of_file {after : OpenFile} {files : List OpenFile}
    (h : (file :: files).IsChain fun above _ => above.fillsSlot)
    (hafter : after.fillsSlot = file.fillsSlot) :
    (after :: files).IsChain fun above _ => above.fillsSlot := by
  rw [List.isChain_cons] at h ⊢
  rwa [hafter]

/-- A step keeps the files on a foundation. Only files that have been imported are
opened above others, and these fill their slots. -/
theorem Founded.step (h : task.Founded) (hmove : Move config me library task library' task') :
    task'.Founded := by
  cases hmove with
  | opened waiting request source sheet => exact List.isChain_cons.2 ⟨fun _ _ => rfl, h⟩
  | skipped waiting file atRule pending => exact Founded.of_file h rfl
  | refers waiting file after localName request hrefers =>
    cases hrefers
    exact Founded.of_file h rfl
  | gained waiting below block => exact Founded.of_file h rfl
  | faulty waiting file error => exact List.IsChain.tail h
  | built waiting file block => exact List.IsChain.tail h
  | lost waiting below error => exact List.IsChain.tail h
  | _ => exact h

/-- A file that fills no slot stands on nothing. So nobody waits for it, and closing
it need not release anything. -/
theorem Founded.fillsSlot_or {files : List OpenFile}
    (h : (file :: files).IsChain fun above _ => above.fillsSlot) :
    file.fillsSlot ∨ files = [] := by
  cases files with
  | nil => exact .inr rfl
  | cons below files => exact .inl (List.isChain_cons_cons.1 h).1

end Task

/-! ### What is waited for -/

/-- What a file waits for, it waits for on behalf of a task. In a session the converse
holds as well; here two tasks may work under one identifier, and one of them may have
taken the mark back. -/
def Waits (library : Library) (tasks : List Task) : Prop :=
  ∀ file next, library.Awaits file next →
    ∃ (i : TaskId) (task : Task), tasks[i]? = some task ∧ (file, next) ∈ task.awaits

namespace Waits

variable {config : Config} {me : TaskId} {library library' : Library} {tasks : List Task}
  {task task' : Task} {waiting : List WaitingFile} {above : String}

/-- What a file waits for, it waits for on behalf of the task that has changed, or it
has done so before. In the second case the task must not have given up the mark. -/
theorem of_change (h : Waits library tasks) (hme : tasks[me]? = some task)
    (hawaits : ∀ file next, library'.Awaits file next → (file, next) ∈ task'.awaits
      ∨ library.Awaits file next ∧ ((file, next) ∈ task.awaits → (file, next) ∈ task'.awaits)) :
    Waits library' (tasks.set me task') := by
  have hset := Task.getElem?_set_self task' hme
  have hself : (tasks.set me task')[me]? = some task' := by rw [hset, if_pos rfl]
  intro file next hawait
  rcases hawaits file next hawait with hnow | ⟨hbefore, hkeeps⟩
  · exact ⟨me, task', hself, hnow⟩
  · obtain ⟨i, other, hother, hin⟩ := h file next hbefore
    by_cases hi : i = me
    · subst hi
      rw [hme] at hother
      cases hother
      exact ⟨i, task', hself, hkeeps hin⟩
    · exact ⟨i, other, by rwa [hset, if_neg hi], hin⟩

/-- Nothing changes where there are no new marks and the task makes files wait as
before. -/
theorem of_awaits (h : Waits library tasks) (hme : tasks[me]? = some task)
    (hsame : ∀ file next, library'.Awaits file next → library.Awaits file next)
    (hawaits : task'.awaits = task.awaits) : Waits library' (tasks.set me task') :=
  h.of_change hme fun file next hawait => .inr ⟨hsame file next hawait, hawaits ▸ id⟩

/-- The innermost file begins to wait. Its mark is that of the task, whoever has put
one there before. -/
theorem begin (h : Waits library tasks) (hme : tasks[me]? = some task) {target : String}
    (hsame : ∀ file next, library'.Awaits file next →
      (library.waitFor waiting target).Awaits file next)
    (hawaits : task.awaits = awaitsFrom none waiting)
    (hawaits' : task'.awaits = awaitsFrom (some target) waiting) :
    Waits library' (tasks.set me task') := by
  refine h.of_change hme fun file next hawait => ?_
  rw [hawaits, hawaits', awaitsFrom_some, List.mem_append]
  have hwait := hsame file next hawait
  rcases library.slot_waitFor_cases waiting target file with heq | ⟨hinner, heq⟩
  · rw [Library.Awaits, heq] at hwait
    exact .inr ⟨hwait, .inr⟩
  · rw [Library.Awaits, heq] at hwait
    cases hwait
    exact .inl (.inl (by simp [hinner]))

/-- The innermost file waits no longer. Its mark is gone, even if another task has put
it there too. -/
theorem finish (h : Waits library tasks) (hme : tasks[me]? = some task)
    (hless : ∀ file next, library'.Awaits file next →
      Library.innermost? waiting ≠ some file ∧ library.Awaits file next)
    (hawaits : task.awaits = awaitsFrom (some above) waiting)
    (hawaits' : task'.awaits = awaitsFrom none waiting) :
    Waits library' (tasks.set me task') := by
  refine h.of_change hme fun file next hawait => ?_
  obtain ⟨hother, hbefore⟩ := hless file next hawait
  -- The one mark that the task takes back is that of its innermost file.
  rw [hawaits, hawaits', awaitsFrom_some, List.mem_append]
  refine .inr ⟨hbefore, fun hin => hin.resolve_left fun hinner => hother ?_⟩
  obtain ⟨inner, hinner, heq⟩ := List.mem_map.1 hinner
  rw [← (Prod.mk.inj heq).1]
  exact Option.mem_toList.1 hinner

end Waits

namespace Library

variable {library : Library} {waiting : List WaitingFile} {file : OpenFile}
  {answer : Except Error Block} {f g : String}

/-- After a release only others wait. The innermost file is the one whose mark is
taken away. -/
theorem Awaits.of_release (h : (library.release waiting).Awaits f g) :
    innermost? waiting ≠ some f ∧ library.Awaits f g := by
  rw [Awaits, slot_release] at h
  split at h
  · cases h
  · exact ⟨‹_›, h⟩

/-- A slot that is handed over keeps what its file waits for. Only the line of the
slot changes, and not the mark in it. -/
theorem Awaits.of_handOver {target : String} (h : (library.handOver target).Awaits f g) :
    library.Awaits f g := by
  rw [Awaits, slot_handOver] at h
  split at h
  · rename_i hf
    subst hf
    exact h
  · exact h

/-- The end of the work on a file is a release, unless no file waits for it anyway.
The block that may have come into the slot is no matter of waiting. -/
theorem Awaits.of_close (hfills : file.fillsSlot ∨ waiting = [])
    (h : (library.close waiting file answer).Awaits f g) :
    innermost? waiting ≠ some f ∧ library.Awaits f g := by
  unfold close at h
  split at h
  · obtain ⟨hinner, hwait⟩ := h.of_release
    refine ⟨hinner, ?_⟩
    cases answer with
    | ok block =>
      rw [Awaits, slot_fill] at hwait
      split at hwait
      · rename_i hf
        subst hf
        exact hwait
      · exact hwait
    -- For an error the slot is handed over to the next in line.
    | error error => exact hwait.of_handOver
  · rename_i hno
    obtain rfl := hfills.resolve_left hno
    exact ⟨by simp [innermost?], h⟩

end Library

/-- A step of a task leaves no mark without a task behind it. That files above others
fill their slots is needed where a file is closed, so that the file below is released. -/
theorem Waits.step {config : Config} {me : TaskId} {library library' : Library}
    {tasks : List Task} {task task' : Task} (h : Waits library tasks)
    (hme : tasks[me]? = some task) (hfounded : task.Founded)
    (hmove : Task.Move config me library task library' task') :
    Waits library' (tasks.set me task') := by
  have hsets : ∀ {l : Library} {target : String} {slot : Slot},
      slot.awaiting = (l.slot target).awaiting → ∀ f g,
        (l.setSlot target slot).Awaits f g → l.Awaits f g := by
    intro l target slot hslot f g hawait
    rw [Library.Awaits, Library.slot_setSlot] at hawait
    split at hawait
    · rename_i hf
      rw [hslot] at hawait
      exact hf ▸ hawait
    · exact hawait
  cases hmove with
  | found waiting request block =>
    refine h.of_awaits hme (fun f g hawait => ?_) rfl
    -- What the innermost file has begun to wait for is put out again.
    obtain ⟨hother, hwait⟩ := hawait.of_release
    rcases library.slot_waitFor_cases waiting request.target f with heq | ⟨hinner, -⟩
    · rwa [Library.Awaits, heq] at hwait
    · exact absurd hinner hother
  | takes waiting request => exact h.begin hme (hsets rfl) rfl rfl
  | queues waiting request => exact h.begin hme (hsets rfl) rfl rfl
  | served waiting request =>
    exact h.finish hme (fun f g hawait => hawait.of_release) rfl rfl
  | unreadable waiting request =>
    exact h.finish hme (fun f g hawait => hawait.of_release.imp_right fun h => h.of_handOver)
      rfl rfl
  | refers waiting file after localName request hrefers =>
    cases hrefers
    exact h.of_awaits hme (fun _ _ => id) rfl
  | faulty waiting file error =>
    have hfills := (Task.Founded.fillsSlot_or hfounded).imp_right List.map_eq_nil_iff.1
    exact h.finish hme (fun f g hawait => hawait.of_close hfills) rfl rfl
  | built waiting file block =>
    have hfills := (Task.Founded.fillsSlot_or hfounded).imp_right List.map_eq_nil_iff.1
    have hless : ∀ f g, ((library.register block).close waiting file (.ok block)).Awaits f g →
        Library.innermost? waiting ≠ some f ∧ (library.register block).Awaits f g :=
      fun f g hawait => hawait.of_close hfills
    exact h.finish hme hless rfl rfl
  | lost waiting below error =>
    have hfills := (Task.Founded.fillsSlot_or hfounded).imp_right List.map_eq_nil_iff.1
    exact h.finish hme (fun f g hawait => hawait.of_close hfills) rfl rfl
  | _ => exact h.of_awaits hme (fun _ _ => id) rfl

/-! ### Who is after files -/

/-- The slot that a file fills, if it does. -/
def OpenFile.slots (file : OpenFile) : List String :=
  if file.fillsSlot then [file.identifier] else []

/-- What a phase has to do with slots: a stylesheet that fills none counts as not looked up. -/
def Phase.slotted : Phase → Phase
  | compiling file =>
    if file.fillsSlot then compiling file else entering ⟨file.identifier, .ofFile file.identifier⟩
  | phase => phase

namespace Task

/-- What a task has to do with slots: files that fill none are left out. With this the
lemmas about lines, which ask for every open file to fill its slot, can be used in a
workshop as well. -/
def slotted (task : Task) : Task :=
  ⟨task.waiting.filter (·.file.fillsSlot), task.phase.slotted⟩

variable {task : Task} {waiting : List WaitingFile} {file : OpenFile} {below : WaitingFile}

/-- What is left after that are files that fill their slots. -/
theorem fillsSlot_of_slotted (hfile : file ∈ task.slotted.files) : file.fillsSlot := by
  obtain ⟨waiting, phase⟩ := task
  rcases List.mem_append.1 hfile with hopen | hwaits
  · cases phase with
    | compiling f =>
      dsimp only [slotted, Phase.slotted] at hopen
      split at hopen
      · cases List.mem_singleton.1 hopen
        assumption
      · cases hopen
    | _ => cases hopen
  · obtain ⟨w, hw, rfl⟩ := List.mem_map.1 hwaits
    exact (List.mem_filter.1 hw).2

/-- A file that is compiled holds its slot, if it fills one. Below it are the files
that wait, those of them that fill slots. -/
theorem held_slotted_compiling (waiting : List WaitingFile) (file : OpenFile) :
    (slotted ⟨waiting, .compiling file⟩).held
      = file.slots ++ (waiting.filter (·.file.fillsSlot)).map (·.file.identifier) := by
  unfold OpenFile.slots
  split <;> rename_i hfills <;> simp [slotted, Phase.slotted, held, Phase.held?, hfills]

/-- A file that waits holds its slot in the same way, below what is held at the
moment. -/
theorem held_slotted_cons (waiting : List WaitingFile) (below : WaitingFile) {phase : Phase}
    (hphase : phase.slotted.held? = none) :
    (slotted ⟨below :: waiting, phase⟩).held
      = below.file.slots ++ (waiting.filter (·.file.fillsSlot)).map (·.file.identifier) := by
  unfold OpenFile.slots
  split <;> rename_i hfills <;> simp [slotted, held, hphase, hfills]

/-- Leaving files out takes nobody from a queue. Only phases with a file open are
changed by that. -/
@[simp]
theorem queuedFor?_slotted (phase : Phase) : phase.slotted.queuedFor? = phase.queuedFor? := by
  cases phase with
  | compiling file =>
    dsimp only [Phase.slotted]
    split <;> rfl
  | _ => rfl

/-- A round of a delay may be taken before or after files are left out. -/
@[simp]
theorem slotted_tick (task : Task) : task.tick.slotted = task.slotted.tick := by
  obtain ⟨waiting, phase⟩ := task
  cases phase with
  | importing request delay => cases delay <;> rfl
  | compiling file =>
    by_cases hfills : file.fillsSlot <;> simp [tick, slotted, Phase.slotted, hfills]
  | _ => rfl

end Task

/-- The end of the work on a file, for an error, gives up its slot if it fills one.
Otherwise the lines are not touched. -/
theorem Lines.close_slots {library : Library} {tasks : List Task} {me : TaskId}
    {task task' : Task} {file : OpenFile} {error : Error} (h : Lines library tasks)
    (hme : tasks[me]? = some task) (hidle : task.phase.queuedFor? = none)
    (hidle' : task'.phase.queuedFor? = none) (hheld : task.held = file.slots ++ task'.held)
    (hfills : ∀ file ∈ task'.files, file.fillsSlot) (waiting : List WaitingFile) :
    Lines (library.close waiting file (.error error)) (tasks.set me task') := by
  unfold OpenFile.slots at hheld
  unfold Library.close
  split
  · rename_i hslot
    rw [if_pos hslot] at hheld
    have hgiven : Lines (library.handOver file.identifier) (tasks.set me task') :=
      h.giveUp hme (Library.slot_handOver library file.identifier) hidle hidle' hheld hfills
    exact hgiven.release waiting
  · rename_i hslot
    -- A file that fills no slot is in no line.
    rw [if_neg hslot] at hheld
    exact h.of_held hme hheld.symm (hidle'.trans hidle.symm) hfills

/-- Who is in line is after the file itself, whether or not stylesheets are handed in.
Each move of a task is one of the changes to lines that there are lemmas for, once
files that fill no slot have been left out. -/
theorem Lines.step_slotted {config : Config} {me : TaskId} {library library' : Library}
    {tasks : List Task} {task task' : Task} (h : Lines library (tasks.map Task.slotted))
    (hme : tasks[me]? = some task) (hmove : Task.Move config me library task library' task') :
    Lines library' ((tasks.set me task').map Task.slotted) := by
  have hslotted : (tasks.map Task.slotted)[me]? = some task.slotted := by
    rw [List.getElem?_map, hme]
    rfl
  have hfills : ∀ file ∈ task'.slotted.files, file.fillsSlot :=
    fun file => Task.fillsSlot_of_slotted
  rw [List.map_set]
  cases hmove with
  | refused waiting request cause => exact h.of_held hslotted rfl rfl hfills
  | known waiting request block => exact h.of_held hslotted rfl rfl hfills
  | found waiting request block =>
    exact ((h.waitFor waiting request.target).release waiting).of_held hslotted rfl rfl hfills
  | takes waiting request hclaims hblock hfiller =>
    exact (h.waitFor waiting request.target).take hslotted hblock hfiller
      (Library.slot_setSlot _ _ _) rfl rfl rfl hfills
  | queues waiting request other hclaims hblock hfiller =>
    -- What the task holds is in its chain, where the target is not.
    have hnew : request.target ∉ Task.held (Task.slotted ⟨waiting, .entering request⟩) :=
      fun hin => hclaims.new (Task.mem_chain.2 (((List.filter_sublist).map _).subset hin))
    exact (h.waitFor waiting request.target).join hslotted hblock hfiller
      (Library.slot_setSlot _ _ _) hnew rfl rfl rfl hfills
  | served waiting request block hblock =>
    have hserved : Lines library ((tasks.map Task.slotted).set me
        (Task.slotted ⟨waiting, .returning (.ok block)⟩)) :=
      h.serve hslotted rfl (by simp [hblock]) rfl rfl hfills
    exact hserved.release waiting
  | called waiting request hblock hfiller => exact h.call hslotted hfiller rfl rfl rfl hfills
  | unreadable waiting request error =>
    have hgiven : Lines (library.handOver request.target) ((tasks.map Task.slotted).set me
        (Task.slotted ⟨waiting, .returning (.error error)⟩)) :=
      h.giveUp hslotted (Library.slot_handOver library request.target) rfl rfl rfl hfills
    exact hgiven.release waiting
  | opened waiting request source sheet =>
    have hnext : Lines { library with nextId := library.nextId + 1 } (tasks.map Task.slotted) :=
      h.of_slots fun f => ⟨rfl, rfl, rfl⟩
    exact hnext.of_held hslotted rfl rfl hfills
  | skipped waiting file atRule pending =>
    have hheld := Task.held_slotted_compiling waiting { file with pending }
    have hidle := Task.queuedFor?_slotted (.compiling { file with pending })
    exact h.of_held hslotted (hheld.trans (Task.held_slotted_compiling waiting file).symm)
      (hidle.trans (Task.queuedFor?_slotted (.compiling file)).symm) hfills
  | refers waiting file after localName request hrefers =>
    have hslots : after.slots = file.slots := by
      cases hrefers
      rfl
    refine h.of_held hslotted ?_ (Task.queuedFor?_slotted (.compiling file)).symm hfills
    rw [Task.held_slotted_cons waiting _ rfl, hslots, Task.held_slotted_compiling]
  | faulty waiting file error =>
    exact h.close_slots hslotted (Task.queuedFor?_slotted (.compiling file)) rfl
      (Task.held_slotted_compiling waiting file) hfills waiting
  -- Registering a block is no matter of lines.
  | built waiting file block =>
    have hidle := Task.queuedFor?_slotted (.compiling file)
    have hheld := Task.held_slotted_compiling waiting file
    have hregistered : Lines (library.register block) (tasks.map Task.slotted) :=
      h.of_slots fun f => ⟨rfl, rfl, rfl⟩
    unfold OpenFile.slots at hheld
    unfold Library.close
    split
    · rename_i hslot
      rw [if_pos hslot] at hheld
      have hfilled : Lines ((library.register block).fill file.identifier block)
          ((tasks.map Task.slotted).set me (Task.slotted ⟨waiting, .returning (.ok block)⟩)) :=
        hregistered.fill hslotted (Library.slot_fill _ file.identifier block) hidle rfl hheld
          hfills
      exact hfilled.release waiting
    · rename_i hslot
      rw [if_neg hslot] at hheld
      exact hregistered.of_held hslotted hheld.symm hidle.symm hfills
  | gained waiting below block =>
    refine h.of_held hslotted ?_ (Task.queuedFor?_slotted (.compiling _)) hfills
    rw [Task.held_slotted_compiling, Task.held_slotted_cons waiting below rfl]
    rfl
  | lost waiting below error =>
    exact h.close_slots hslotted rfl rfl (Task.held_slotted_cons waiting below rfl) hfills waiting

/-! ### Attended workshops -/

namespace Workshop

variable {config : Config} {workshop workshop' : Workshop}

/-- The marks that a workshop has are those of the tasks in it. This is what is left
of `Orderly` when stylesheets can be handed in under any identifier. -/
structure Manned (workshop : Workshop) : Prop where
  founded : ∀ task ∈ workshop.tasks, task.Founded
  waits : Waits workshop.library workshop.tasks
  lines : Lines workshop.library (workshop.tasks.map Task.slotted)
  /-- The block in a slot is one of the slot's file. -/
  named : ∀ f block, (workshop.library.slot f).block = some block → block.identifier = f

/-- A step by which no task is left without an answer. Otherwise its marks would stay,
and nobody would take them back. -/
def Attends (config : Config) (workshop workshop' : Workshop) : Prop :=
  Step config workshop workshop'
    ∧ (workshop'.tasks = [] → ∀ task ∈ workshop.tasks, task.answer?.isSome)

/-- A workshop that can come about when all tasks are attended to until they have their
answers. -/
def Attended (config : Config) (workshop : Workshop) : Prop :=
  ReflTransGen (Attends config) start workshop

/-- A workshop whose tasks are attended to is reachable. What has been shown for all
workshops can therefore be used. -/
theorem Attended.reachable (h : Attended config workshop) : Reachable config workshop :=
  ReflTransGen.mono (fun _ _ hstep => hstep.1) _ _ h

/-- At the start there are neither marks nor tasks. The library that a workshop begins
with is empty. -/
theorem manned_start : start.Manned where
  founded := nofun
  waits f g h := by cases h
  lines := Session.orderly_start.lines
  named f block h := by cases h

/-- The block that a slot has got is one of the slot's file. It has been built of the
file, and has the identifier of it. -/
theorem named_of_move {me : TaskId} {library library' : Library} {task task' : Task}
    (h : ∀ f block, (library.slot f).block = some block → block.identifier = f)
    (hmove : Task.Move config me library task library' task') (f : String) (block : Block)
    (hslot : (library'.slot f).block = some block) : block.identifier = f := by
  rcases hmove.same_or_built with
    ⟨-, hsame⟩ | ⟨waiting, file, new, -, -, -, hbuilt, rfl⟩
  · exact h f block (hsame f ▸ hslot)
  -- Only a file that fills a slot puts its block there.
  · by_cases hfills : file.fillsSlot
    · rw [((library.register new).sameBlocks_close_ok waiting hfills new).slot,
        Library.slot_fill] at hslot
      split at hslot
      · rename_i hf
        cases hslot
        exact (Block.ofRules_keeps hbuilt).identifier.trans hf.symm
      · exact h f block hslot
    · rw [Library.close, if_neg hfills] at hslot
      exact h f block hslot

/-- A task that has made no marks. It stands behind nothing, so it may come and go. -/
structure Unmarked (task : Task) : Prop where
  founded : task.Founded
  awaits : task.awaits = []
  slotted : task.slotted.Idle

/-- A task that has just been made for a reference has made no marks. So a request can
be made at any time without a mark that nobody stands behind. -/
theorem unmarked_get (config : Config) (reference : String) :
    Unmarked (.get config reference) :=
  ⟨.nil, rfl, ⟨rfl, rfl, rfl⟩⟩

/-- A task that has just been made for a stylesheet has made no marks, either. It
fills no slot. -/
theorem unmarked_sheet (id : Nat) (sheet : Stylesheet) (identifier name : String) :
    Unmarked ⟨[], .compiling (.ofSheet id sheet identifier name)⟩ :=
  ⟨.singleton _, rfl, ⟨rfl, rfl, rfl⟩⟩

/-- A task with an answer has taken all its marks back. It has no file open and stands
in no line. -/
theorem unmarked_of_answer {task : Task} (h : task.answer?.isSome) : Unmarked task := by
  obtain ⟨answer, hanswer⟩ := Option.isSome_iff_exists.1 h
  cases Task.answer?_eq_some.1 hanswer
  exact ⟨.nil, rfl, ⟨rfl, rfl, rfl⟩⟩

namespace Manned

/-- Tasks that have made no marks may come and go. A request that is made is such a
task, and so is one that has its answer. -/
theorem of_tasks {tasks : List Task} (h : workshop.Manned)
    (hsame : ∀ (i : TaskId) (task : Task), ¬ Unmarked task →
      (tasks[i]? = some task ↔ workshop.tasks[i]? = some task)) :
    Manned { workshop with tasks } where
  founded task htask := by
    by_cases hunmarked : Unmarked task
    · exact hunmarked.founded
    · obtain ⟨i, hi⟩ := List.mem_iff_getElem?.1 htask
      exact h.founded task (List.mem_of_getElem? ((hsame i task hunmarked).1 hi))
  waits f g hawait := by
    obtain ⟨i, task, htask, hin⟩ := h.waits f g hawait
    refine ⟨i, task, (hsame i task fun hunmarked => ?_).2 htask, hin⟩
    rw [hunmarked.awaits] at hin
    cases hin
  lines := by
    -- A task that has a place in a line has made a mark, so it is one of those that stay.
    refine h.lines.of_idle fun i task hbusy => ?_
    simp only [List.getElem?_map, Option.map_eq_some_iff]
    refine exists_congr fun task' => and_congr_left ?_
    rintro rfl
    exact hsame i task' fun hunmarked => hbusy hunmarked.slotted
  named := h.named

/-- A step by which no task is left without an answer keeps somebody behind every
mark. -/
theorem step (h : workshop.Manned) (hstep : Attends config workshop workshop') :
    workshop'.Manned := by
  obtain ⟨hstep, hanswered⟩ := hstep
  cases hstep with
  | ask reference =>
    refine h.of_tasks fun i task hmarked => Task.getElem?_append_iff ?_ workshop.tasks i
    rintro rfl
    exact hmarked (unmarked_get config reference)
  | submit sheet identifier name =>
    have hmanned : Manned { workshop with tasks := workshop.tasks ++ [⟨[], .compiling
        (.ofSheet workshop.library.nextId sheet identifier name)⟩] } := by
      refine h.of_tasks fun i task hmarked => Task.getElem?_append_iff ?_ workshop.tasks i
      rintro rfl
      exact hmarked (unmarked_sheet _ sheet identifier name)
    -- The next id is no matter of slots.
    exact ⟨hmanned.founded, hmanned.waits, hmanned.lines.of_slots fun f => ⟨rfl, rfl, rfl⟩,
      hmanned.named⟩
  | work me library task task' hme hstep =>
    have hmove := Task.move_of_step? hstep
    have hfounded := h.founded task (List.mem_of_getElem? hme)
    constructor
    case founded =>
      intro other hother
      rcases List.mem_or_eq_of_mem_set hother with hother | rfl
      · exact h.founded other hother
      · exact hfounded.step hmove
    case waits => exact h.waits.step hme hfounded hmove
    -- Lines are kept for files that fill slots, and the others are left out.
    case lines => exact h.lines.step_slotted hme hmove
    case named => exact named_of_move h.named hmove
  | tick me task hme =>
    have hawaits : task.tick.awaits = task.awaits := by simp [Task.awaits, Phase.awaited?]
    constructor
    case founded =>
      intro other hother
      rcases List.mem_or_eq_of_mem_set hother with hother | rfl
      · exact h.founded other hother
      · exact (h.founded task (List.mem_of_getElem? hme)).tick
    case waits => exact h.waits.of_awaits hme (fun _ _ => id) hawaits
    case lines =>
      have hslotted : (workshop.tasks.map Task.slotted)[me]? = some task.slotted := by
        rw [List.getElem?_map, hme]
        rfl
      rw [List.map_set, Task.slotted_tick]
      exact h.lines.of_held hslotted (by simp [Task.held]) (by simp)
        (task.slotted.files_tick ▸ h.lines.fills me _ hslotted)
    case named => exact h.named
  | leave =>
    refine h.of_tasks fun i task hmarked => iff_of_false (by simp) fun htask => hmarked ?_
    exact unmarked_of_answer (hanswered rfl task (List.mem_of_getElem? htask))

/-- Where no task is left, no file waits and nobody is in line. Every mark is owed to
a task, so without tasks there are none. -/
theorem slot_at_rest {library : Library} {registered : List Block}
    (h : Manned ⟨library, [], registered⟩) (f : String) :
    (library.slot f).awaiting = none ∧ (library.slot f).line = [] := by
  constructor
  · refine Option.eq_none_iff_forall_ne_some.2 fun g hawait => ?_
    obtain ⟨i, task, htask, -⟩ := h.waits f g hawait
    cases htask
  · refine List.eq_nil_iff_forall_not_mem.2 fun i hi => ?_
    obtain ⟨task, htask, -⟩ := (h.lines.mem_line f i).1 hi
    cases htask

end Manned

/-- In every workshop whose tasks have been attended to, waiting files have somebody
who fills their slots. -/
theorem manned_of_attended (h : Attended config workshop) : workshop.Manned := by
  induction h with
  | refl => exact manned_start
  | tail _ hstep ih => exact ih.step hstep

/-- What is found under an identifier has this identifier. For the table of
identifiers this is known from the log. -/
theorem named_of_attended (h : Attended config workshop) : workshop.library.Named where
  bound f block hblock := by
    rw [(kept_of_reachable h.reachable).bound] at hblock
    exact (mem_of_lastOf? hblock).2
  slot := (manned_of_attended h).named

end Workshop

/-- All that has been under way in the library has come to its end. Nothing is said
about how it has ended. -/
def Library.Rested (config : Config) (library : Library) : Prop :=
  ∃ registered, Workshop.Attended config ⟨library, [], registered⟩

end BlockStyles
