import BlockStyles.Proofs.Library.Awaits
import BlockStyles.Proofs.Library.Session
import Mathlib.Data.Fintype.EquivFin
import Mathlib.Order.WellFounded

/-!
# `BlockStyles.Proofs.Library.Progress`: requests never block each other for ever

`Session.Orderly` collects what holds of the slots in every reachable session: the
lines are made up of the tasks that they concern (`Lines`), and no files wait for
each other in a circle (`Awaiting`).

A task that has no answer and cannot move stands in the queue of a slot. Say that
it is the slot of file `f`, and that the task that fills this slot stands in a
queue too, of the slot of `g`. Then this other task holds `f`, and on its stack
`f` waits for `g`, if by way of other files. So a circle of tasks would be a
circle of files. There is none; and as the tasks are finitely many, one of them
waits for nobody.

* `Session.orderly_of_reachable`: every reachable session is orderly.
* `Session.Orderly.awaits_of_waits`: a task that waits for another one makes a file wait for a file.
* `Session.Orderly.exists_moves`: among tasks without an answer there is one that can move.
* `Session.run_answers`: when tasks run for as long as any of them moves, all get answers.
* `Session.never_deadlocks`: no circles of files or tasks, some task can always
  move, and every request is answered.
-/

set_option autoImplicit false

namespace BlockStyles

open Relation (TransGen ReflTransGen)

/-! ### Idle tasks -/

namespace Task

/-- A task that holds no file and stands in no queue. It plays no part in what the
slots say. -/
structure Idle (task : Task) : Prop where
  waiting : task.waiting = []
  held : task.phase.held? = none
  queued : task.phase.queuedFor? = none

/-- A task that has just been made is idle. It has not looked its file up yet. So
asking for a file changes nothing about who waits for whom. -/
theorem idle_get (config : Config) (reference : String) : (get config reference).Idle :=
  ⟨rfl, rfl, rfl⟩

/-- A task has an answer when it brings one and nothing waits for it any more. An
answer that a file still waits for is handed down to it first. -/
theorem answer?_eq_some {task : Task} {answer : Except Error Block} :
    task.answer? = some answer ↔ task = ⟨[], .returning answer⟩ := by
  obtain ⟨waiting, phase⟩ := task
  constructor
  · intro h
    unfold answer? at h
    split at h
    · rename_i hwaiting hphase
      cases h
      simp_all
    · cases h
  · rintro ⟨⟩
    rfl

/-- A task that has its answer is idle again. It waits for nothing, holds nothing and
is in no queue. -/
theorem idle_of_answer {task : Task} (h : task.answer?.isSome) : task.Idle := by
  obtain ⟨answer, hanswer⟩ := Option.isSome_iff_exists.1 h
  rw [answer?_eq_some.1 hanswer]
  exact ⟨rfl, rfl, rfl⟩

namespace Idle

variable {task : Task}

/-- An idle task holds nothing, neither on top nor below. So there is no slot that it
fills. -/
theorem held_eq_nil (h : task.Idle) : task.held = [] := by
  rw [Task.held, h.waiting, h.held]
  rfl

/-- An idle task has no file open. A file that is compiled would be held. -/
theorem files_eq_nil (h : task.Idle) : task.files = [] := by
  have hopen : task.phase.open? = none := by
    have hheld := h.held
    cases hphase : task.phase <;> simp_all [Phase.held?, Phase.open?]
  rw [Task.files, h.waiting, hopen]
  rfl

/-- An idle task makes no file wait, as it has none on its stack. -/
theorem awaits_eq_nil (h : task.Idle) : task.awaits = [] := by
  rw [Task.awaits, h.waiting]
  rfl

/-- No slot is the concern of an idle task. So it stands in no line. -/
theorem not_concernedWith (h : task.Idle) (file : String) (slot : Slot) :
    ¬ task.ConcernedWith file slot := by
  rintro (hheld | ⟨hqueued, -⟩)
  · rw [h.held_eq_nil] at hheld
    cases hheld
  · rw [h.queued] at hqueued
    cases hqueued

end Idle

/-! ### Rounds of a delay -/

/-- A round of a delay changes no stack. What the task makes other files wait for is
therefore the same. -/
@[simp]
theorem waiting_tick (task : Task) : task.tick.waiting = task.waiting := by
  unfold tick
  split <;> rfl

/-- During a delay the task goes on holding the file that it imports. So it remains
the filler of the slot in the meantime. -/
@[simp]
theorem held?_phase_tick (task : Task) : task.tick.phase.held? = task.phase.held? := by
  unfold tick
  split
  · rename_i hphase
    rw [hphase]
    rfl
  · rfl

/-- A round of a delay takes no task from a queue and puts none into one. -/
@[simp]
theorem queuedFor?_phase_tick (task : Task) :
    task.tick.phase.queuedFor? = task.phase.queuedFor? := by
  unfold tick
  split
  · rename_i hphase
    rw [hphase]
    rfl
  · rfl

/-- A round of a delay opens no file. -/
@[simp]
theorem open?_phase_tick (task : Task) : task.tick.phase.open? = task.phase.open? := by
  unfold tick
  split
  · rename_i hphase
    rw [hphase]
    rfl
  · rfl

end Task

/-- The files of a task are the same after a round of a delay. This is used for all
invariants that speak of open files. -/
@[simp]
theorem Task.files_tick (task : Task) : task.tick.files = task.files := by
  simp [Task.files]

/-- When another task comes, all others keep their places. This holds for all tasks
that are not the new one; that one is idle. -/
theorem Task.getElem?_append_iff {task other : Task} (h : other ≠ task) (tasks : List Task)
    (i : TaskId) : (tasks ++ [task])[i]? = some other ↔ tasks[i]? = some other := by
  rcases Nat.lt_or_ge i tasks.length with hi | hi
  · rw [List.getElem?_append_left hi]
  · rw [List.getElem?_append_right hi, List.getElem?_eq_none hi]
    exact iff_of_false (fun hother => h (List.mem_singleton.1 (List.mem_of_getElem? hother)))
      (by simp)

/-- Lines do not depend on tasks that are idle. Such tasks may come and go, in
whatever places. -/
theorem Lines.of_idle {library : Library} {tasks tasks' : List Task} (h : Lines library tasks)
    (hsame : ∀ (i : TaskId) (task : Task), ¬ task.Idle →
      (tasks'[i]? = some task ↔ tasks[i]? = some task)) : Lines library tasks' where
  done := h.done
  led := h.led
  nodup := h.nodup
  mem_line f i := by
    rw [h.mem_line]
    refine exists_congr fun task => and_congr_left fun hconcerned => (hsame i task ?_).symm
    -- A task that stands in a line is not idle, so it is the same task before and after.
    exact fun hidle => hidle.not_concernedWith _ _ hconcerned
  holder f i task htask hf := by
    refine h.holder f i task ((hsame i task fun hidle => ?_).1 htask) hf
    rw [hidle.held_eq_nil] at hf
    cases hf
  once i task htask := by
    by_cases hidle : task.Idle
    · rw [hidle.held_eq_nil]
      exact ⟨.nil, fun f _ hf => by cases hf⟩
    · exact h.once i task ((hsame i task hidle).1 htask)
  fills i task htask := by
    by_cases hidle : task.Idle
    · intro file hfile
      rw [hidle.files_eq_nil] at hfile
      cases hfile
    · exact h.fills i task ((hsame i task hidle).1 htask)

/-- Idle tasks make no file wait, so what files wait for does not depend on them
either. -/
theorem Awaiting.of_idle {library : Library} {tasks tasks' : List Task} (h : Awaiting library tasks)
    (hsame : ∀ (i : TaskId) (task : Task), ¬ task.Idle →
      (tasks'[i]? = some task ↔ tasks[i]? = some task)) : Awaiting library tasks' where
  awaits_iff f g := by
    rw [h.awaits_iff]
    refine exists_congr fun i => exists_congr fun task =>
      and_congr_left fun hfg => (hsame i task fun hidle => ?_).symm
    rw [hidle.awaits_eq_nil] at hfg
    cases hfg
  acyclic := h.acyclic

/-! ### Reachable sessions -/

namespace Session

variable {config : Config} {session : Session}

/-- What holds at the start and is kept by the steps holds of every reachable session.
The session from which a step is taken is reachable, so that invariants which are
known already can be used. -/
theorem Reachable.invariant {P : Session → Prop} (hstart : P start)
    (hstep : ∀ s s', Reachable config s → P s → Step config s s' → P s')
    (h : Reachable config session) : P session := by
  induction h with
  | refl => exact hstart
  | tail hreach hlast ih => exact hstep _ _ hreach ih hlast

/-- What holds of a task when it starts, and is kept by its moves, holds of all tasks.
A property of single tasks needs nothing else, since no step changes two of them. -/
theorem tasks_keep {P : Task → Prop} (hstart : ∀ reference, P (.get config reference))
    (hmove : ∀ (me : TaskId) (library library' : Library) (task task' : Task), P task →
      Task.Move config me library task library' task' → P task')
    (htick : ∀ task : Task, P task → P task.tick) (h : Reachable config session) (i : TaskId)
    (reference : String) (task : Task) (hi : session.requests[i]? = some (reference, task)) :
    P task := by
  refine h.invariant (P := fun s => ∀ (i : TaskId) (reference : String) (task : Task),
    s.requests[i]? = some (reference, task) → P task) nofun ?_ i reference task hi
  intro s s' _ hall hstep i reference task hi
  cases hstep with
  | ask =>
    rcases of_getElem?_append hi with hi | ⟨rfl, rfl⟩
    · exact hall i reference task hi
    · exact hstart _
  | work me reference' library before after hme hstep =>
    -- Either this is the task that moved, or it is as before.
    rw [getElem?_requests_update hme] at hi
    split at hi
    · cases hi
      exact hmove me _ _ before _ (hall me _ before hme) (Task.move_of_step? hstep)
    · exact hall i reference task hi
  | tick me reference' before hme =>
    rw [getElem?_requests_update hme] at hi
    split at hi
    · cases hi
      exact htick before (hall me _ before hme)
    · exact hall i reference task hi
  | settle => cases hi

/-- The slots of a session are in order. -/
structure Orderly (session : Session) : Prop where
  lines : Lines session.library session.tasks
  awaiting : Awaiting session.library session.tasks

/-- At the start there are no tasks and no slots are in use. All parts of the
invariant speak of tasks, of slots in use or of both. -/
theorem orderly_start : start.Orderly where
  lines :=
    { done := fun f h => by cases h
      led := fun f h => rfl
      nodup := fun f => .nil
      mem_line := fun f i => by simp [start, tasks, Slot.line, Slot.unused]
      holder := fun f i task htask => by cases htask
      once := fun i task htask => by cases htask
      fills := fun i task htask => by cases htask }
  awaiting := by
    have hnone : ∀ f g, ¬ Library.Awaits start.library f g := fun f g h => by cases h
    refine ⟨fun f g => iff_of_false (hnone f g) ?_, fun f hf => ?_⟩
    · rintro ⟨i, task, htask, -⟩
      cases htask
    · obtain ⟨_, hfirst, -⟩ := TransGen.head'_iff.1 hf
      exact hnone _ _ hfirst

/-- Every step keeps the slots in order. Work is a step of one task, a round of a
delay changes nothing that slots speak of, and the tasks that come and go are idle. -/
theorem Orderly.step {session' : Session} (h : session.Orderly)
    (hstep : Step config session session') : session'.Orderly := by
  obtain ⟨hlines, hawaiting⟩ := h
  cases hstep with
  | ask reference =>
    have hsame : ∀ (i : TaskId) (task : Task), ¬ task.Idle →
        ((session.tasks ++ [.get config reference])[i]? = some task ↔
          session.tasks[i]? = some task) := by
      intro i task hbusy
      refine Task.getElem?_append_iff ?_ session.tasks i
      rintro rfl
      exact hbusy (Task.idle_get config reference)
    have htasks : tasks { session with
        requests := session.requests ++ [(reference, .get config reference)] }
          = session.tasks ++ [.get config reference] := List.map_append
    exact ⟨htasks ▸ hlines.of_idle hsame, htasks ▸ hawaiting.of_idle hsame⟩
  | work me reference library task task' hme hstep =>
    have hmove := Task.move_of_step? hstep
    have htask := getElem?_tasks hme
    refine ⟨?_, ?_⟩
    · rw [tasks_update]
      exact hlines.step htask hmove
    · rw [tasks_update]
      exact hawaiting.step hlines htask hmove
  | tick me reference task hme =>
    -- A round of a delay passes no slot on: files held and files awaited stay the same.
    have htask := getElem?_tasks hme
    refine ⟨?_, ?_⟩
    · rw [tasks_update]
      exact hlines.of_held htask (by simp [Task.held]) (by simp)
        (task.files_tick ▸ hlines.fills me task htask)
    · rw [tasks_update]
      exact hawaiting.of_awaits htask (fun f => rfl) (by simp [Task.awaits, Phase.awaited?])
  | settle hanswered =>
    -- The tasks that leave have answers, so that all of them are idle.
    have hsame : ∀ (i : TaskId) (task : Task), ¬ task.Idle →
        (([] : List Task)[i]? = some task ↔ session.tasks[i]? = some task) := by
      intro i task hbusy
      refine iff_of_false (by simp) fun htask => hbusy (Task.idle_of_answer ?_)
      exact hanswered task (List.mem_of_getElem? htask)
    exact ⟨hlines.of_idle hsame, hawaiting.of_idle hsame⟩

/-- The slots are in order in every reachable session. At the start there are no
tasks, and each step is one of those that keep lines and waiting files in order. -/
theorem orderly_of_reachable (h : Reachable config session) : session.Orderly :=
  h.invariant orderly_start fun _ _ _ horderly hstep => horderly.step hstep

/-! ### Who waits for whom -/

/-- A task stands in the queue of a slot that another one fills. This is said without
a look at the stacks; that it agrees with what files wait for is what has to be shown. -/
def WaitsOn (session : Session) (me other : TaskId) : Prop :=
  ∃ file, me ∈ (session.library.slot file).queue
    ∧ (session.library.slot file).filler = some other

namespace Orderly

variable {me other : TaskId} {task : Task} {file : String}

/-- A task in the queue of a slot is queued for the file, and it is somebody else's
turn. It does not hold the file, since it would be the filler then, and nobody is in a
line twice. -/
theorem queued_of_mem_queue (h : session.Orderly) (hme : me ∈ (session.library.slot file).queue) :
    (session.library.slot file).filler ≠ some me ∧ (session.library.slot file).block = none
      ∧ ∃ task, session.tasks[me]? = some task ∧ task.phase.queuedFor? = some file := by
  have hline : me ∈ (session.library.slot file).line := List.mem_append_right _ hme
  have hother : (session.library.slot file).filler ≠ some me := by
    intro hfiller
    have hnodup := h.lines.nodup file
    rw [Slot.line, hfiller] at hnodup
    exact (List.nodup_cons.1 hnodup).1 hme
  obtain ⟨task, htask, hheld | ⟨hqueued, hblock⟩⟩ := (h.lines.mem_line file me).1 hline
  · exact absurd (h.lines.holder file me task htask hheld) hother
  · exact ⟨hother, hblock, task, htask, hqueued⟩

/-- A task that is queued for a file which has no block stands in the queue, or it has
been called. -/
theorem mem_queue_of_queued (h : session.Orderly) (htask : session.tasks[me]? = some task)
    (hqueued : task.phase.queuedFor? = some file)
    (hblock : (session.library.slot file).block = none)
    (hother : (session.library.slot file).filler ≠ some me) :
    me ∈ (session.library.slot file).queue
      ∧ ∃ other, (session.library.slot file).filler = some other := by
  have hline : me ∈ (session.library.slot file).line :=
    (h.lines.mem_line file me).2 ⟨task, htask, .inr ⟨hqueued, hblock⟩⟩
  have hqueue : me ∈ (session.library.slot file).queue := by
    rcases List.mem_append.1 hline with hfiller | hqueue
    · exact absurd (Option.mem_toList.1 hfiller) hother
    · exact hqueue
  refine ⟨hqueue, Option.ne_none_iff_exists'.1 fun hnone => ?_⟩
  rw [h.lines.led file hnone] at hqueue
  cases hqueue

/-- A filler is a task without an answer, as one with an answer is idle. This is where
the search for a task that can move goes from a slot to the task that fills it. -/
theorem exists_filler (h : session.Orderly)
    (hfiller : (session.library.slot file).filler = some other) :
    ∃ task, session.tasks[other]? = some task ∧ task.answer? = none := by
  have hline : other ∈ (session.library.slot file).line :=
    List.mem_append_left _ (Option.mem_toList.2 hfiller)
  obtain ⟨task, htask, hconcerned⟩ := (h.lines.mem_line file other).1 hline
  refine ⟨task, htask, Option.eq_none_iff_forall_ne_some.2 fun answer hanswer => ?_⟩
  have hidle := Task.idle_of_answer (Option.isSome_iff_exists.2 ⟨answer, hanswer⟩)
  exact hidle.not_concernedWith _ _ hconcerned

end Orderly

/-- In a stack, every file leads to what the innermost one waits for. The induction
goes down the stack, one edge at a time. -/
theorem reach_above {r : String → String → Prop} {above : String} {waiting : List WaitingFile}
    (hedges : ∀ f g, (f, g) ∈ awaitsFrom (some above) waiting → r f g) {file : String}
    (hfile : file ∈ waiting.map (·.file.identifier)) : TransGen r file above := by
  induction waiting generalizing above with
  | nil => cases hfile
  | cons below waiting ih =>
    have hbelow : r below.file.identifier above := hedges _ _ List.mem_cons_self
    rcases List.mem_cons.1 hfile with rfl | hfile
    · exact .single hbelow
    · exact (ih (fun f g h => hedges f g (List.mem_cons_of_mem _ h)) hfile).tail hbelow

namespace Orderly

variable {i j k : TaskId} {f g : String}

/-- The file whose slot a task fills leads to the file that it is queued for. This is
the step from tasks to files. -/
theorem awaits_of_waits (h : session.Orderly) (hfiller : (session.library.slot f).filler = some j)
    (hqueue : j ∈ (session.library.slot g).queue) : TransGen session.library.Awaits f g := by
  obtain ⟨hother, -, task, htask, hqueued⟩ := h.queued_of_mem_queue hqueue
  have hline : j ∈ (session.library.slot f).line :=
    List.mem_append_left _ (Option.mem_toList.2 hfiller)
  obtain ⟨task', htask', hconcerned⟩ := (h.lines.mem_line f j).1 hline
  rw [htask] at htask'
  cases htask'
  have hheld : f ∈ task.held := by
    rcases hconcerned with hheld | ⟨hqueued', -⟩
    · exact hheld
    -- It is not called to the slot in whose queue it stands.
    · rw [hqueued] at hqueued'
      cases hqueued'
      exact absurd hfiller hother
  -- A queued task has opened no file above its stack: `f` is one of those that it left waiting.
  have hphase : task.phase.held? = none ∧ task.phase.awaited? = some g := by
    cases hphase : task.phase <;> rw [hphase] at hqueued <;> cases hqueued
    exact ⟨rfl, rfl⟩
  rw [Task.held, hphase.1] at hheld
  refine reach_above (fun a b hab => (h.awaiting.awaits_iff a b).2 ⟨j, task, htask, ?_⟩) hheld
  rwa [Task.awaits, hphase.2]

/-- Tasks that wait for each other make files wait for each other. One edge between
tasks is a file; each further one adds a way between files. -/
theorem awaits_of_transGen (h : session.Orderly) (hij : TransGen session.WaitsOn i j) :
    ∃ f g, i ∈ (session.library.slot f).queue ∧ (session.library.slot g).filler = some j
      ∧ ReflTransGen session.library.Awaits f g := by
  induction hij with
  | single hij =>
    obtain ⟨f, hqueue, hfiller⟩ := hij
    exact ⟨f, f, hqueue, hfiller, .refl⟩
  | tail _ hjk ih =>
    obtain ⟨f, g, hqueue, hfiller, hfg⟩ := ih
    obtain ⟨k, hqueue', hfiller'⟩ := hjk
    exact ⟨f, k, hqueue, hfiller', hfg.trans (h.awaits_of_waits hfiller hqueue').to_reflTransGen⟩

/-- No tasks wait for each other in a circle, since files would do so then. A task
that waits for another has a file that waits for one that the other is at work on. -/
theorem not_waitsOn_self (h : session.Orderly) (i : TaskId) : ¬ TransGen session.WaitsOn i i := by
  intro hii
  obtain ⟨f, g, hqueue, hfiller, hfg⟩ := h.awaits_of_transGen hii
  exact h.awaiting.acyclic f (.trans_right hfg (h.awaits_of_waits hfiller hqueue))

/-! ### Blocked tasks -/

/-- To be without an answer and unable to move is to stand in a queue. All other
phases have a step to take, whatever the library says. -/
theorem waitsOn_iff (h : session.Orderly) {me : TaskId} {task : Task}
    (htask : session.tasks[me]? = some task) :
    (∃ other, session.WaitsOn me other) ↔
      task.answer? = none ∧ task.moves config me session.library = false := by
  constructor
  · rintro ⟨other, file, hqueue, -⟩
    obtain ⟨hother, hblock, task', htask', hqueued⟩ := h.queued_of_mem_queue hqueue
    rw [htask] at htask'
    cases htask'
    obtain ⟨waiting, phase⟩ := task
    cases phase <;> cases hqueued
    refine ⟨?_, ?_⟩
    · cases waiting <;> rfl
    · simp [Task.moves, Task.isDelayed, Task.step?, hblock, hother]
  · rintro ⟨hanswer, hmoves⟩
    obtain ⟨hdelayed, hstep⟩ := Bool.or_eq_false_iff.1 hmoves
    obtain ⟨waiting, phase⟩ := task
    -- In every phase but one there is a step to take; only a queue can hold a task up.
    cases phase with
    | entering request => simp [Task.step?] at hstep
    | importing request delay =>
      cases delay with
      | zero => simp [Task.step?] at hstep
      | succ delay => simp [Task.isDelayed] at hdelayed
    | queued request =>
      have hblock : (session.library.slot request.target).block = none := by
        cases hblock : (session.library.slot request.target).block with
        | none => rfl
        | some block => simp [Task.step?, hblock] at hstep
      have hother : (session.library.slot request.target).filler ≠ some me := by
        intro hfiller
        simp [Task.step?, hblock, hfiller] at hstep
      obtain ⟨hqueue, other, hfiller⟩ := h.mem_queue_of_queued htask rfl hblock hother
      exact ⟨other, request.target, hqueue, hfiller⟩
    | compiling file => simp [Task.step?] at hstep
    | returning answer =>
      cases waiting with
      | nil => cases hanswer
      | cons below waiting => simp [Task.step?] at hstep

/-- Among tasks without an answer there is one that can move. The tasks are finitely
many and wait for each other in no circle, so some task waits for none of the others. -/
theorem exists_moves (h : session.Orderly) {me : TaskId} {task : Task}
    (htask : session.tasks[me]? = some task) (hanswer : task.answer? = none) :
    ∃ (i : TaskId) (t : Task), session.tasks[i]? = some t ∧ t.answer? = none
      ∧ t.moves config i session.library = true := by
  let r : Fin session.tasks.length → Fin session.tasks.length → Prop :=
    fun a b => TransGen session.WaitsOn b a
  have : IsTrans _ r := ⟨fun a b c hab hbc => hbc.trans hab⟩
  have : Std.Irrefl r := ⟨fun a haa => h.not_waitsOn_self a haa⟩
  obtain ⟨hlt, rfl⟩ := List.getElem?_eq_some_iff.1 htask
  -- One of the tasks without an answer waits for no other one of them.
  obtain ⟨i, hi, hfirst⟩ := (Finite.wellFounded_of_trans_of_irrefl r).has_min
    {i | session.tasks[i].answer? = none} ⟨⟨me, hlt⟩, hanswer⟩
  have hget : session.tasks[i.1]? = some session.tasks[i] := List.getElem?_eq_getElem i.2
  refine ⟨i, session.tasks[i], hget, hi, ?_⟩
  by_contra hstill
  -- If it stood still it would wait for a filler, which has no answer either.
  obtain ⟨other, hwaits⟩ := (h.waitsOn_iff hget).2 ⟨hi, Bool.eq_false_iff.2 hstill⟩
  have ⟨file, _, hfiller⟩ := hwaits
  obtain ⟨t, ht, hopen⟩ := h.exists_filler hfiller
  obtain ⟨hother, rfl⟩ := List.getElem?_eq_some_iff.1 ht
  exact hfirst ⟨other, hother⟩ hopen (.single hwaits)

end Orderly

/-! ### Answers -/

/-- When the tasks of a session run for as long as any of them moves, all are
answered. A run is itself a history of a session, so where it ends is reachable. -/
theorem run_answers (h : Reachable config session) :
    ∀ task ∈ (Library.run config session.library session.tasks).2, task.answer?.isSome := by
  obtain ⟨library, requests, answered⟩ := session
  have hreach : Reachable config _ := h.trans (steps_run library requests answered)
  have horderly := orderly_of_reachable hreach
  have htasks : tasks ⟨(Library.run config library (requests.map Prod.snd)).1,
      (requests.map Prod.fst).zip (Library.run config library (requests.map Prod.snd)).2,
      answered⟩ = (Library.run config library (requests.map Prod.snd)).2 :=
    List.map_snd_zip (by simp)
  intro task htask
  rw [Option.isSome_iff_ne_none]
  intro hanswer
  -- Where the run ends nothing moves, and so nothing can be left without an answer.
  obtain ⟨me, hme⟩ := List.mem_iff_getElem?.1 htask
  obtain ⟨i, t, ht, -, hmoves⟩ := horderly.exists_moves (htasks.symm ▸ hme) hanswer
  rw [htasks] at ht
  have hstill := Library.run_still config library (requests.map Prod.snd) ht
  exact Bool.false_ne_true (hstill.symm.trans hmoves)

/-- References that are loaded together, after anything that has happened before, all
get an answer. Asking for them first and running then are both steps of a session. -/
theorem getAll_answers {library : Library} {answered : List (String × Except Error Block)}
    (h : Reachable config ⟨library, [], answered⟩) (references : List String) :
    (library.getAll config references).2.length = references.length
      ∧ ∀ answer ∈ (library.getAll config references).2, answer.isSome := by
  refine ⟨by simp [Library.getAll], fun answer hanswer => ?_⟩
  obtain ⟨task, htask, rfl⟩ := List.mem_map.1 hanswer
  have hask : Reachable config _ := h.trans (steps_ask library [] answered references)
  have htasks : tasks ⟨library, [] ++ references.map fun reference => (reference,
      Task.get config reference), answered⟩ = references.map (.get config) := by
    simp [tasks, Function.comp_def]
  exact run_answers hask task (htasks.symm ▸ htask)

/-- Requests never block each other for ever. In every reachable session:

- no files wait for each other in a circle;
- no tasks wait for each other in a circle, and so none waits for itself;
- the tasks that wait for one another are those that have no answer and cannot move;
- if a task has no answer, then one that has none can move;
- if the tasks run on, all of them get an answer;
- if no request is under way, all references that are then loaded together get one. -/
theorem never_deadlocks (h : Reachable config session) :
    (∀ file, ¬ TransGen session.library.Awaits file file)
      ∧ (∀ me, ¬ TransGen session.WaitsOn me me)
      ∧ (∀ (me : TaskId) (task : Task), session.tasks[me]? = some task →
        ((∃ other, session.WaitsOn me other) ↔
          task.answer? = none ∧ task.moves config me session.library = false))
      ∧ (∀ (me : TaskId) (task : Task), session.tasks[me]? = some task → task.answer? = none →
        ∃ (i : TaskId) (t : Task), session.tasks[i]? = some t ∧ t.answer? = none
          ∧ t.moves config i session.library = true)
      ∧ (∀ task ∈ (Library.run config session.library session.tasks).2, task.answer?.isSome)
      ∧ (session.requests = [] → ∀ references : List String,
        (session.library.getAll config references).2.length = references.length
          ∧ ∀ answer ∈ (session.library.getAll config references).2, answer.isSome) := by
  have horderly := orderly_of_reachable h
  refine ⟨horderly.awaiting.acyclic, horderly.not_waitsOn_self, fun me task htask => ?_,
    fun me task htask hanswer => ?_, run_answers h, fun hidle references => ?_⟩
  · exact horderly.waitsOn_iff htask
  · exact horderly.exists_moves htask hanswer
  -- Without requests there are no tasks but the new ones.
  · obtain ⟨library, requests, answered⟩ := session
    cases hidle
    exact getAll_answers h references

/-- Two requests for files that refer to each other, by two tasks. Each needs the file
that the other one has, and still both are answered. The answers are errors, as the
references go round in a circle; that there are answers is what counts here. -/
theorem never_deadlocks_crossed :
    ∃ config session, Reachable config session ∧ session.tasks.length = 2
      ∧ config.source? "/r/a.css" = some "@block-reference b from \"./b.css\";"
      ∧ config.source? "/r/b.css" = some "@block-reference a from \"./a.css\";"
      ∧ ∀ task ∈ (Library.run config session.library session.tasks).2, task.answer?.isSome := by
  let config : Config :=
    { files := [("/r/a.css", "@block-reference b from \"./b.css\";"),
        ("/r/b.css", "@block-reference a from \"./a.css\";")]
      root := "/r"
      maxDepth := 32
      delays := [("/r/b.css", 1)] }
  have hreach : Reachable config ⟨.empty, ["a.css", "b.css"].map fun reference =>
      (reference, .get config reference), []⟩ := steps_ask .empty [] [] ["a.css", "b.css"]
  obtain ⟨-, -, -, -, hrun, -⟩ := never_deadlocks hreach
  refine ⟨config, _, hreach, rfl, ?_, ?_, hrun⟩
  · simp [config, Config.source?]
  · simp [config, Config.source?, List.lookup_cons]

end Session

end BlockStyles
