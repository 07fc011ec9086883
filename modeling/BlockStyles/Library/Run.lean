import BlockStyles.Library.Weight

/-!
# `BlockStyles.Library.Run`: running tasks together

Tasks run in rounds. In each round every task is resumed once, in order, and goes
on until it is blocked or done. Rounds follow each other for as long as any task
moves. A single request is a run of one task.

* `Task.weight_resume_lt`: a task that moves when it is resumed gets lighter.
* `Library.totalWeight_round`: so do the tasks together in a round in which any of them moves.
-/

set_option autoImplicit false

namespace BlockStyles

namespace Task

/-- Lets a task go on until it is blocked or done. -/
def advance (config : Config) (me : TaskId) (library : Library) (task : Task) : Library × Task :=
  match h : task.step? config me library with
  | none => (library, task)
  | some (library', task') =>
    have : task'.weight config < task.weight config := weight_step h
    advance config me library' task'
termination_by task.weight config

/-- Resumes a task: a round of its delay is over, and it goes on if it can. -/
def resume (config : Config) (me : TaskId) (library : Library) (task : Task) : Library × Task :=
  task.tick.advance config me library

/-- Whether a task moves when it is resumed. -/
def moves (config : Config) (me : TaskId) (library : Library) (task : Task) : Bool :=
  task.isDelayed || (task.step? config me library).isSome

/-- Going on makes no task heavier: it takes any number of steps, and each of
them makes the task lighter. Taking no step at all is possible, so this is
not strict. -/
theorem weight_advance_le (config : Config) (me : TaskId) (library : Library) (task : Task) :
    (task.advance config me library).2.weight config ≤ task.weight config := by
  fun_induction task.advance config me library with
  | case1 => exact Nat.le_refl _
  | case2 library task library' task' h hlt ih => exact Nat.le_of_lt (Nat.lt_of_le_of_lt ih hlt)

/-- Resuming makes no task heavier, neither by the round that is over nor by
the steps after it. This is the half of a round that holds for tasks that do
not move. -/
theorem weight_resume_le (config : Config) (me : TaskId) (library : Library) (task : Task) :
    (task.resume config me library).2.weight config ≤ task.weight config :=
  Nat.le_trans (weight_advance_le config me library task.tick) (weight_tick_le task)

/-- A task that moves when it is resumed gets lighter. Either a delay is one
round shorter, or the task takes at least one step; both make it lighter by
themselves. -/
theorem weight_resume_lt {config : Config} {me : TaskId} {library : Library} {task : Task}
    (h : task.moves config me library) :
    (task.resume config me library).2.weight config < task.weight config := by
  unfold moves at h
  by_cases hd : task.isDelayed
  -- The round takes a round off the delay, and what follows makes nothing heavier.
  · exact Nat.lt_of_le_of_lt (weight_advance_le config me library task.tick) (weight_tick_lt hd)
  -- Without a delay the task takes at least one step.
  · simp only [hd, Bool.false_or] at h
    obtain ⟨result, hresult⟩ := Option.isSome_iff_exists.1 h
    have htick : task.tick = task := by
      unfold isDelayed at hd
      unfold tick
      split
      · rename_i hphase
        simp [hphase] at hd
      · rfl
    have hlt := weight_step hresult
    unfold resume advance
    rw [htick]
    split
    · rename_i hnone
      rw [hresult] at hnone
      cases hnone
    · rename_i library' task' hsome
      rw [hresult] at hsome
      cases hsome
      exact Nat.lt_of_le_of_lt (weight_advance_le config me _ _) hlt

end Task

namespace Library

/-- What tasks weigh together. -/
def totalWeight (config : Config) (tasks : List Task) : Nat :=
  sumOf (·.weight config) tasks

/-- One round: every task is resumed once. The first of them is called `me`, the
next one `me + 1`, and so on. Also says whether any task has moved. -/
def round (config : Config) (me : TaskId) (library : Library) :
    List Task → Library × List Task × Bool
  | [] => (library, [], false)
  | task :: tasks =>
    let moves := task.moves config me library
    let (library, task) := task.resume config me library
    let (library, tasks, moved) := round config (me + 1) library tasks
    (library, task :: tasks, moves || moved)

/-- In a round no task gets heavier, and if any of them moves, all of them
together get lighter. The second part is why `run` ends: it starts another
round only if something has moved. -/
theorem totalWeight_round (config : Config) (me : TaskId) (library : Library) (tasks : List Task) :
    totalWeight config (round config me library tasks).2.1 ≤ totalWeight config tasks
      ∧ ((round config me library tasks).2.2 = true →
        totalWeight config (round config me library tasks).2.1 < totalWeight config tasks) := by
  induction tasks generalizing me library with
  | nil => simp [round]
  | cons task tasks ih =>
    obtain ⟨hle, hlt⟩ := ih (me + 1) (task.resume config me library).1
    have htask := Task.weight_resume_le config me library task
    simp only [round]
    -- What the later tasks do is only known through the two bounds on them.
    generalize round config (me + 1) (task.resume config me library).1 tasks = rest at hle hlt ⊢
    obtain ⟨library', tasks', moved⟩ := rest
    simp only [totalWeight, sumOf] at hle hlt ⊢
    refine ⟨by omega, fun h => ?_⟩
    rcases Bool.or_eq_true_iff.1 h with h | h
    · have := Task.weight_resume_lt h
      omega
    · have := hlt h
      omega

/-- Lets tasks run together until none of them moves any more. -/
def run (config : Config) (library : Library) (tasks : List Task) : Library × List Task :=
  match h : round config 0 library tasks with
  | (library', tasks', moved) =>
    if hmoved : moved then
      have : totalWeight config tasks' < totalWeight config tasks := by
        have := (totalWeight_round config 0 library tasks).2
        rw [h] at this
        exact this hmoved
      run config library' tasks'
    else
      (library', tasks')
termination_by totalWeight config tasks

/-! ### Requests -/

/-- Lets a single task run to its end. -/
def complete (config : Config) (library : Library) (task : Task) :
    Library × Option (Except Error Block) :=
  let (library, tasks) := run config library [task]
  (library, tasks.head?.bind Task.answer?)

/-- The block that a reference means, loaded if it is not there yet. -/
def get (config : Config) (library : Library) (reference : String) :
    Library × Option (Except Error Block) :=
  library.complete config (.get config reference)

/-- The blocks that references mean, loaded together. -/
def getAll (config : Config) (library : Library) (references : List String) :
    Library × List (Option (Except Error Block)) :=
  let (library, tasks) := run config library (references.map (Task.get config))
  (library, tasks.map Task.answer?)

/-- The block of a stylesheet that is not one of the files. -/
def addSheet (config : Config) (library : Library) (sheet : Stylesheet)
    (identifier name : String) : Library × Option (Except Error Block) :=
  let file : OpenFile :=
    { id := library.nextId
      identifier
      name
      rules := sheet.rules
      pending := sheet.atRules
      references := []
      fillsSlot := false }
  complete config { library with nextId := library.nextId + 1 } ⟨[], .compiling file⟩

/-- The block of a source that is not one of the files. -/
def addSource (config : Config) (library : Library) (source identifier name : String) :
    Library × Option (Except Error Block) :=
  match Stylesheet.ofSource source with
  | .ok sheet => library.addSheet config sheet identifier name
  | .error fault =>
    (library, some (.error (.located ⟨identifier, fault.position⟩ (.unreadable fault))))

end Library

end BlockStyles
