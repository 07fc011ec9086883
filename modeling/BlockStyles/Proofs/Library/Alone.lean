import BlockStyles.Proofs.Library.Moves
import BlockStyles.Proofs.Library.Session

/-!
# `BlockStyles.Proofs.Library.Alone`: a stylesheet that is added on its own

A stylesheet that is none of the files is compiled by a single task, which fills no slot.
Its at-rules are passed one after the other, and nothing looks ahead: what comes of the first of
them is the same whatever at-rules and rules stand behind them. Only when all references are loaded
the rules decide.

* `Library.complete_of_step`, `Library.complete_tick`, `Library.complete_of_still`:
  a single task is completed step by step.
* `Library.complete_keeps`: what its steps keep holds in the end.
* `Task.step?_withRest`: a step does not look at the at-rules and rules that are still to come.
* `Library.exists_addSheet_append_eq`: adding a sheet is passing its first at-rules and then going
  on with the rest of it.
* `Library.exists_addSheet_eq`: so it is loading its references and then building the block from its
  rules.
-/

set_option autoImplicit false

namespace BlockStyles

/-! ### Single tasks -/

namespace Task

variable {config : Config} {me : TaskId} {library library' : Library} {task task' : Task}

/-- A task that has no step to take is left as it is, and so is the library. Such a
task has its answer, waits in a queue, or waits for its delay to go by. -/
theorem advance_of_none (h : task.step? config me library = none) :
    task.advance config me library = (library, task) := by
  unfold advance
  split
  · rfl
  · rename_i hsome
    rw [h] at hsome
    cases hsome

/-- A task that is advanced takes its next step, and is then advanced from where that
leads. -/
theorem advance_of_some (h : task.step? config me library = some (library', task')) :
    task.advance config me library = task'.advance config me library' := by
  rw [advance]
  split
  · rename_i hnone
    rw [h] at hnone
    cases hnone
  · rename_i hsome
    rw [h] at hsome
    cases hsome
    rfl

/-- The end of a round is nothing to a task that does not wait for a delay to pass. -/
theorem tick_of_not_isDelayed (h : ¬ task.isDelayed) : task.tick = task := by
  unfold tick
  split
  · rename_i hphase
    simp [isDelayed, hphase] at h
  · rfl

/-- During the delay of an import a task takes no step. So a round either moves a task
on or takes one from its delay, and never both. -/
theorem step?_of_isDelayed (h : task.isDelayed) : task.step? config me library = none := by
  unfold isDelayed at h
  split at h
  · rename_i hphase
    rw [step?, hphase]
  · cases h

end Task

namespace Library

variable {config : Config} {library library' : Library} {task task' : Task}

/-- A round of a single task resumes this task and does nothing else. There is no
other one whose steps could come in between. -/
theorem round_singleton (config : Config) (library : Library) (task : Task) :
    round config 0 library [task]
      = ((task.resume config 0 library).1, [(task.resume config 0 library).2],
        task.moves config 0 library) := by
  simp [round]

/-- The run of a single task begins with what it does when it is resumed. If that is
nothing, the task has been left as it was, and the equation says nothing. -/
theorem run_resume (config : Config) (library : Library) (task : Task) :
    run config (task.resume config 0 library).1 [(task.resume config 0 library).2]
      = run config library [task] := by
  cases hmoves : task.moves config 0 library with
  -- A round in which something moves is followed by another one.
  | true => exact (run_of_moved _ _ _ (hmoves ▸ round_singleton config library task)).symm
  | false => rw [Task.resume_of_not_moves hmoves]

/-- The run of a single task begins with the steps that it takes at once. A task that
is delayed takes none. -/
theorem run_advance (config : Config) (library : Library) (task : Task) :
    run config (task.advance config 0 library).1 [(task.advance config 0 library).2]
      = run config library [task] := by
  by_cases hdelayed : task.isDelayed
  · rw [Task.advance_of_none (Task.step?_of_isDelayed hdelayed)]
  · have hresume := run_resume config library task
    rwa [Task.resume, Task.tick_of_not_isDelayed hdelayed] at hresume

/-- What comes of a single task is what comes of it after its first step. With this
the task can be followed step by step, without a look at rounds. -/
theorem complete_of_step (h : task.step? config 0 library = some (library', task')) :
    complete config library task = complete config library' task' := by
  unfold complete
  rw [← run_advance config library task, Task.advance_of_some h, run_advance]

/-- What comes of a single task does not depend on how much of a delay has passed. A
single task has nobody to wait for, so that a delay only puts off what it does. -/
theorem complete_tick :
    complete config library task = complete config library task.tick := by
  unfold complete
  rw [← run_resume config library task, Task.resume, run_advance]

/-- A single task that does not move is done. Its answer is what it brings, if it
brings anything. -/
theorem complete_of_still (h : task.moves config 0 library = false) :
    complete config library task = (library, task.answer?) := by
  have hstill : (round config 0 library [task]).2.2 = false := by rw [round_singleton, h]
  rw [complete, run_of_still config library [task] hstill]
  rfl

/-- What every step of a task keeps, and every round of a delay, holds when a single
task has been completed. Then it does not move any more. The task is followed by its
weight, which both kinds of moves bring down. -/
theorem complete_keeps {P : Library → Task → Prop}
    (hstep : ∀ library task library' task', P library task →
      task.step? config 0 library = some (library', task') → P library' task')
    (htick : ∀ library task, P library task → P library task.tick) (h : P library task) :
    ∃ library' task', complete config library task = (library', task'.answer?) ∧ P library' task'
      ∧ task'.moves config 0 library' = false := by
  induction hweight : task.weight config using Nat.strong_induction_on
    generalizing library task with
  | _ weight ih =>
  subst hweight
  -- A task moves by a step or by its delay, or it is at its end.
  cases hnext : task.step? config 0 library with
  | some result =>
    obtain ⟨library', task'⟩ := result
    rw [complete_of_step hnext]
    exact ih _ (Task.weight_step hnext) (hstep _ _ _ _ h hnext) rfl
  | none =>
    by_cases hdelayed : task.isDelayed
    · rw [complete_tick]
      exact ih _ (Task.weight_tick_lt hdelayed) (htick _ _ h) rfl
    · have hstill : task.moves config 0 library = false := by simp [Task.moves, hdelayed, hnext]
      exact ⟨library, task, complete_of_still hstill, h, hstill⟩

end Library

/-! ### Another rest -/

/-- The file with more at-rules behind its own and with other rules, unless its slot
waits for its block. Only the sheet that is added fills no slot, so it is the one
whose rest is exchanged. -/
def OpenFile.withRest (more : List AtRule) (rules : List Rule) (file : OpenFile) : OpenFile :=
  if file.fillsSlot then file else { file with pending := file.pending ++ more, rules }

namespace OpenFile

variable (more : List AtRule) (rules : List Rule) (file : OpenFile)

/-- A file that fills a slot keeps its rest. Only the sheet that is handed in gets
another rest, and it fills no slot. -/
theorem withRest_of_fillsSlot (h : file.fillsSlot) : file.withRest more rules = file := if_pos h

/-- Another rest does not change which file it is. -/
@[simp]
theorem identifier_withRest : (file.withRest more rules).identifier = file.identifier := by
  unfold withRest
  split <;> rfl

/-- Another rest does not change the references that have been answered. -/
@[simp]
theorem references_withRest : (file.withRest more rules).references = file.references := by
  unfold withRest
  split <;> rfl

/-- Another rest does not change whether the file fills a slot. -/
@[simp]
theorem fillsSlot_withRest : (file.withRest more rules).fillsSlot = file.fillsSlot := by
  unfold withRest
  split <;> rfl

/-- With another rest the at-rules of the file go on with those of the rest, if it
takes them. -/
theorem pending_withRest :
    (file.withRest more rules).pending
      = file.pending ++ if file.fillsSlot then [] else more := by
  unfold withRest
  split <;> simp

end OpenFile

/-- The waiting file with another rest, unless its slot waits for its block. -/
def WaitingFile.withRest (more : List AtRule) (rules : List Rule) (below : WaitingFile) :
    WaitingFile :=
  { below with file := below.file.withRest more rules }

/-- What is done, with another rest for a file that fills no slot. -/
def Phase.withRest (more : List AtRule) (rules : List Rule) : Phase → Phase
  | .compiling file => .compiling (file.withRest more rules)
  | phase => phase

namespace Task

/-- The task with another rest for the files that fill no slot. -/
def withRest (more : List AtRule) (rules : List Rule) (task : Task) : Task :=
  ⟨task.waiting.map (.withRest more rules), task.phase.withRest more rules⟩

variable {config : Config} {me : TaskId} {library library' : Library} {task task' : Task}
variable (more : List AtRule) (rules : List Rule)

/-- The chain of files that lead to a request is the same with another rest. Only
identifiers are in it, so checks for circles and for the limit come out the same. -/
@[simp]
theorem chain_withRest (waiting : List WaitingFile) :
    chain (waiting.map (.withRest more rules)) = chain waiting := by
  simp [chain, WaitingFile.withRest, Function.comp_def]

/-- A delay has nothing to do with the rest of a file. It is a matter of the phase,
and a file that is still to be imported has no rest yet. -/
@[simp]
theorem isDelayed_withRest (task : Task) :
    (task.withRest more rules).isDelayed = task.isDelayed := by
  obtain ⟨waiting, phase⟩ := task
  cases phase <;> rfl

/-- A delay passes in the same way with another rest. -/
@[simp]
theorem tick_withRest (task : Task) :
    (task.withRest more rules).tick = task.tick.withRest more rules := by
  obtain ⟨waiting, phase⟩ := task
  cases phase with
  | importing request delay => cases delay <;> rfl
  | _ => rfl

/-- Giving up the wait of the innermost file looks at its identifier only. -/
@[simp]
theorem release_withRest (library : Library) (waiting : List WaitingFile) :
    library.release (waiting.map (.withRest more rules)) = library.release waiting := by
  cases waiting with
  | nil => rfl
  | cons below waiting => simp [Library.release, WaitingFile.withRest]

/-- Beginning to wait looks at the identifier of the innermost file only. The rest of
a file is no part of that. -/
@[simp]
theorem waitFor_withRest (library : Library) (waiting : List WaitingFile) (target : String) :
    library.waitFor (waiting.map (.withRest more rules)) target
      = library.waitFor waiting target := by
  cases waiting with
  | nil => rfl
  | cons below waiting => simp [Library.waitFor, WaitingFile.withRest]

/-- The end of the work on a file looks at identifiers, and at whether the file fills
a slot. -/
@[simp]
theorem close_withRest (library : Library) (waiting : List WaitingFile) (file : OpenFile)
    (answer : Except Error Block) :
    library.close (waiting.map (.withRest more rules)) (file.withRest more rules) answer
      = library.close waiting file answer := by
  simp [Library.close]

/-- What comes of a step, with another rest for the files that fill no slot. -/
def resultWithRest (result : Library × Task) : Library × Task :=
  (result.1, result.2.withRest more rules)

/-- A file is entered in the same way with another rest. What decides is the chain of
the request, the slots of the library and the limit. -/
theorem enter_withRest (waiting : List WaitingFile) (request : Request) :
    enter config me library (waiting.map (.withRest more rules)) request
      = resultWithRest more rules (enter config me library waiting request) := by
  unfold enter takeSlot
  simp only [chain_withRest, waitFor_withRest, release_withRest]
  split
  · rfl
  · split
    · rfl
    · split
      · rfl
      · split
        · rfl
        · split <;> rfl

/-- A file is imported in the same way with another rest. The file that is opened
fills its slot, so it has no part in the exchange. -/
theorem importFile_withRest (waiting : List WaitingFile) (request : Request) :
    importFile config library (waiting.map (.withRest more rules)) request
      = resultWithRest more rules (importFile config library waiting request) := by
  unfold importFile
  simp only [release_withRest]
  split
  · rfl
  · split <;> rfl

/-- An answer is handed down in the same way with another rest. A block becomes a
reference of the file below, whose own rest is not touched. -/
theorem deliver_withRest (below : WaitingFile) (waiting : List WaitingFile)
    (answer : Except Error Block) :
    deliver library (below.withRest more rules) (waiting.map (.withRest more rules)) answer
      = resultWithRest more rules (deliver library below waiting answer) := by
  cases answer with
  | error error =>
    simp [deliver, resultWithRest, withRest, WaitingFile.withRest, Phase.withRest]
  | ok block =>
    simp only [deliver, resultWithRest, withRest, Phase.withRest, WaitingFile.withRest,
      OpenFile.withRest]
    split <;> rfl

/-- As long as a file has at-rules left, nothing looks at what comes behind them. A
file that has none left must be one that fills a slot, since otherwise its rules would
be looked at now. -/
theorem compile_withRest (waiting : List WaitingFile) (file : OpenFile)
    (h : file.pending = [] → file.fillsSlot) :
    compile config library (waiting.map (.withRest more rules)) (file.withRest more rules)
      = resultWithRest more rules (compile config library waiting file) := by
  cases hpending : file.pending with
  | nil =>
    have hfile := file.withRest_of_fillsSlot more rules (h hpending)
    -- `close_withRest` speaks of the file with the rest, which is the file itself here.
    have hclose : ∀ (library : Library) (answer : Except Error Block),
        library.close (waiting.map (.withRest more rules)) file answer
          = library.close waiting file answer := by
      intro library answer
      rw [← close_withRest more rules library waiting file answer, hfile]
    unfold compile
    rw [hfile, hpending]
    simp only [hclose]
    split <;> rfl
  -- The first at-rule decides what is done, and the rest only makes the list behind it
  -- longer.
  | cons atRule pending =>
    unfold compile
    simp only [OpenFile.pending_withRest, OpenFile.references_withRest,
      OpenFile.identifier_withRest, close_withRest, hpending, List.cons_append]
    split
    · simp only [resultWithRest, withRest, Phase.withRest, OpenFile.withRest]
      split <;> simp
    · split
      · rfl
      · split
        · rfl
        · simp only [resultWithRest, withRest, List.map_cons, WaitingFile.withRest,
            Phase.withRest, OpenFile.withRest]
          split <;> simp

/-- A step does not look at the rest of a file that fills no slot, unless it is all
that is left of the file. There is one case for each phase, and the lemmas above are
about what is done in each. -/
theorem step?_withRest
    (h : ∀ file, task.phase = .compiling file → file.pending = [] → file.fillsSlot) :
    (task.withRest more rules).step? config me library
      = (task.step? config me library).map (resultWithRest more rules) := by
  obtain ⟨waiting, phase⟩ := task
  cases phase with
  | entering request => exact congrArg some (enter_withRest more rules waiting request)
  | importing request delay =>
    cases delay with
    | zero => exact congrArg some (importFile_withRest more rules waiting request)
    | succ delay => rfl
  | queued request =>
    simp only [withRest, Phase.withRest, step?, release_withRest]
    split
    · rfl
    · split <;> rfl
  | compiling file => exact congrArg some (compile_withRest more rules waiting file (h file rfl))
  | returning answer =>
    cases waiting with
    | nil => rfl
    | cons below waiting => exact congrArg some (deliver_withRest more rules below waiting answer)

end Task

/-! ### Sheets -/

/-- What comes of a sheet once its references are there, or cannot be had: the rules
are made into a block, which is registered. Without an outcome the sheet waits
forever, and after an error its rules do not matter. -/
def Library.conclude (library : Library) (id : Nat) (name identifier : String)
    (outcome : Option (Except Error (List (String × Block)))) (rules : List Rule) :
    Library × Option (Except Error Block) :=
  match outcome with
  | none => (library, none)
  | some (.error error) => (library, some (.error error))
  | some (.ok references) =>
    match Block.ofRules id name identifier references rules with
    | .error error => (library, some (.error error))
    | .ok block => (library.register block, some (.ok block))

/-- What comes of a sheet once the first of its at-rules have been passed, or have
failed: the sheet goes on with more of them and with its rules. -/
def Library.proceed (config : Config) (library : Library) (id : Nat) (name identifier : String)
    (outcome : Option (Except Error (List (String × Block)))) (more : List AtRule)
    (rules : List Rule) : Library × Option (Except Error Block) :=
  match outcome with
  | none => (library, none)
  | some (.error error) => (library, some (.error error))
  | some (.ok references) =>
    complete config library
      ⟨[], .compiling ⟨id, identifier, name, rules, more, references, false⟩⟩

/-- In a file of the identifier the at-rule refers to another file, which has a block. -/
structure Library.BindsReference (config : Config) (library : Library) (identifier : String)
    (atRule : AtRule) (reference : BlockReference) (block : Block) : Prop where
  name : atRule.name = BlockReference.atRuleName
  prelude : BlockReference.ofPrelude? atRule.prelude = some reference
  other : Path.resolve (some identifier) reference.path config.root ≠ identifier
  bound : library.blockFor? (Path.resolve (some identifier) reference.path config.root) = some block

/-- The file is a sheet that fills no slot. -/
structure OpenFile.IsSheet (id : Nat) (name identifier : String) (file : OpenFile) : Prop where
  id : file.id = id
  name : file.name = name
  identifier : file.identifier = identifier
  slot : file.fillsSlot = false

namespace Task

/-- The task is on its way to the block of a sheet. The sheet is the outermost of its files, and
the only one that fills no slot. -/
inductive IsOnSheet (id : Nat) (name identifier : String) : Task → Prop where
  | compiling (file : OpenFile) (h : file.IsSheet id name identifier) :
      IsOnSheet id name identifier ⟨[], .compiling file⟩
  | loading (waiting above : List WaitingFile) (below : WaitingFile) (phase : Phase)
      (hwaiting : waiting = above ++ [below]) (h : below.file.IsSheet id name identifier)
      (habove : ∀ w ∈ above, w.file.fillsSlot)
      (hphase : ∀ file, phase = .compiling file → file.fillsSlot) :
      IsOnSheet id name identifier ⟨waiting, phase⟩
  | failed (error : Error) : IsOnSheet id name identifier ⟨[], .returning (.error error)⟩

variable {config : Config} {me : TaskId} {library library' : Library} {task task' : Task}
  {id : Nat} {name identifier : String}

/-- The task builds the block of a file that fills no slot. This is the one step in
which the rules of a sheet have a part. -/
def Concludes (task : Task) : Prop :=
  ∃ file, task.phase = .compiling file ∧ file.pending = [] ∧ file.fillsSlot = false

/-- While a delay goes by the task stays on the sheet. Only an import is delayed, and
then the sheet is among the files that wait. -/
theorem IsOnSheet.tick (h : task.IsOnSheet id name identifier) :
    task.tick.IsOnSheet id name identifier := by
  cases h with
  | compiling file h => exact .compiling file h
  | loading waiting above below phase hwaiting h habove hphase =>
    have htick : (Task.mk waiting phase).tick = ⟨waiting, (Task.mk waiting phase).tick.phase⟩ := by
      cases phase with
      | importing request delay => cases delay <;> rfl
      | _ => rfl
    rw [htick]
    refine .loading waiting above below _ hwaiting h habove fun file hfile => hphase file ?_
    cases phase with
    | importing request delay => cases delay <;> cases hfile
    | _ => exact hfile
  | failed error => exact .failed error

/-- Until the block of the sheet is built, every step keeps the task on the sheet.
Files that are opened on the way fill slots and come above it, and the sheet waits
until they have been closed. -/
theorem IsOnSheet.step (h : task.IsOnSheet id name identifier)
    (hmove : Move config me library task library' task') (hnot : ¬ task.Concludes) :
    task'.IsOnSheet id name identifier := by
  cases hmove with
  | skipped waiting file atRule pending hpending hname =>
    cases h with
    | compiling _ h => exact .compiling _ ⟨h.id, h.name, h.identifier, h.slot⟩
    | loading _ above below _ hwaiting h habove hphase =>
      refine .loading _ above below _ hwaiting h habove fun after hafter => ?_
      cases hafter
      exact hphase file rfl
  -- A reference of the sheet itself makes it the outermost file that waits.
  | refers waiting file after localName request hrefers =>
    cases hrefers with
    | intro atRule pending reference hpending hname hreference hnew =>
      cases h with
      | compiling _ h =>
        exact .loading _ [] _ _ rfl ⟨h.id, h.name, h.identifier, h.slot⟩ nofun nofun
      | loading _ above below _ hwaiting h habove hphase =>
        refine .loading _ (_ :: above) below _ (congrArg _ hwaiting) h ?_ nofun
        exact List.forall_mem_cons.2 ⟨hphase file rfl, habove⟩
  | faulty waiting file error hfaulty =>
    cases h with
    | compiling _ h => exact .failed error
    | loading _ above below _ hwaiting h habove hphase =>
      exact .loading _ above below _ hwaiting h habove nofun
  -- The block of the sheet itself is excluded here, so it is a file above whose block is
  -- built.
  | built waiting file block hpending hbuilt =>
    cases h with
    | compiling _ h => exact absurd ⟨file, rfl, hpending, h.slot⟩ hnot
    | loading _ above below _ hwaiting h habove hphase =>
      exact .loading _ above below _ hwaiting h habove nofun
  | gained waiting below block =>
    cases h with
    | loading _ above _ _ hwaiting h habove hphase =>
      cases above with
      -- The file below is the sheet.
      | nil =>
        cases hwaiting
        exact .compiling _ ⟨h.id, h.name, h.identifier, h.slot⟩
      | cons first above =>
        cases hwaiting
        obtain ⟨hfirst, habove⟩ := List.forall_mem_cons.1 habove
        refine .loading _ above _ _ rfl h habove fun file hfile => ?_
        cases hfile
        exact hfirst
  -- An error of a file above goes down to the sheet, and from there it is the answer.
  | lost waiting below error =>
    cases h with
    | loading _ above _ _ hwaiting h habove hphase =>
      cases above with
      | nil =>
        cases hwaiting
        exact .failed error
      | cons first above =>
        cases hwaiting
        obtain ⟨-, habove⟩ := List.forall_mem_cons.1 habove
        exact .loading _ above _ _ rfl h habove nofun
  | opened waiting request source sheet hsource hsheet =>
    cases h with
    | loading _ above below _ hwaiting h habove hphase =>
      refine .loading _ above below _ hwaiting h habove fun file hfile => ?_
      cases hfile
      rfl
  | _ =>
    cases h with
    | loading _ above below _ hwaiting h habove hphase =>
      exact .loading _ above below _ hwaiting h habove nofun

end Task

namespace Library

variable {config : Config} {library : Library} {task : Task} {id : Nat} {name identifier : String}

/-- A sheet whose at-rules have all been passed becomes a block, or fails. It takes
one step, which is building the block, and then the task is at its end. -/
theorem complete_compiling {file : OpenFile} (h : file.IsSheet id name identifier)
    (hpending : file.pending = []) :
    complete config library ⟨[], .compiling file⟩
      = conclude library id name identifier (some (.ok file.references)) file.rules := by
  have hstill : ∀ (library : Library) (answer : Except Error Block),
      complete config library ⟨[], .returning answer⟩ = (library, some answer) :=
    fun library answer => complete_of_still rfl
  -- The sheet fills no slot, so closing it touches nothing.
  have hclose : ∀ (library : Library) (answer : Except Error Block),
      library.close [] file answer = library :=
    fun library answer => if_neg (by simp [h.slot])
  have hstep : Task.step? config 0 library ⟨[], .compiling file⟩
      = some (Task.compile config library [] file) := rfl
  rw [conclude, ← h.id, ← h.name, ← h.identifier]
  cases hbuilt : Block.ofRules file.id file.name file.identifier file.references file.rules with
  | error error =>
    have hcompile : Task.compile config library [] file = (library, ⟨[], .returning (.error error)⟩)
      := by simp [Task.compile, hpending, hbuilt, hclose]
    rw [complete_of_step (hstep.trans (congrArg some hcompile)), hstill]
  | ok block =>
    have hcompile : Task.compile config library [] file
        = (library.register block, ⟨[], .returning (.ok block)⟩) := by
      simp [Task.compile, hpending, hbuilt, hclose]
    rw [complete_of_step (hstep.trans (congrArg some hcompile)), hstill]

/-- A reference to a block that is bound is had at once. The at-rule is passed in
three steps: the request is made, it is found to be known, and the block is handed
down. -/
theorem complete_compiling_of_binds {file : OpenFile} {atRule : AtRule} {pending : List AtRule}
    {reference : BlockReference} {block : Block} (hpending : file.pending = atRule :: pending)
    (h : library.BindsReference config file.identifier atRule reference block)
    (hnew : file.references.lookup reference.localName = none) (hdepth : 1 < config.maxDepth) :
    complete config library ⟨[], .compiling file⟩
      = complete config library ⟨[], .compiling { file with
          pending, references := file.references ++ [(reference.localName, block)] }⟩ := by
  let request : Request := ⟨Path.resolve (some file.identifier) reference.path config.root,
    ⟨file.identifier, atRule.position⟩⟩
  let waiting : List WaitingFile := [⟨{ file with pending }, reference.localName⟩]
  have hcompile : Task.step? config 0 library ⟨[], .compiling file⟩
      = some (library, ⟨waiting, .entering request⟩) := by
    simp [Task.step?, Task.compile, hpending, h.name, h.prelude, hnew, waiting, request]
  have henter : Task.step? config 0 library ⟨waiting, .entering request⟩
      = some (library, ⟨waiting, .returning (.ok block)⟩) := by
    simp [Task.step?, Task.enter, Task.chain, h.other, h.bound, hdepth, waiting, request]
  -- The third step hands the block down, and evaluates.
  rw [complete_of_step hcompile, complete_of_step henter, complete_of_step rfl]

/-- When all at-rules have been passed, the sheet goes on with its rules. An outcome
that is no list of references is the same for both. -/
theorem proceed_nil {outcome : Option (Except Error (List (String × Block)))} {rules : List Rule} :
    proceed config library id name identifier outcome [] rules
      = conclude library id name identifier outcome rules := by
  rcases outcome with _ | _ | references
  · rfl
  · rfl
  · exact complete_compiling ⟨rfl, rfl, rfl, rfl⟩ rfl

/-- A sheet that has come to its rules goes on with whatever rest it is given. Only
the sheet can be there, as all files above it fill slots. -/
theorem exists_complete_eq_of_concludes (h : task.IsOnSheet id name identifier)
    (hconcludes : task.Concludes) :
    ∃ library' outcome, ∀ more rules, complete config library (task.withRest more rules)
      = proceed config library' id name identifier outcome more rules := by
  obtain ⟨file, hphase, hpending, hslot⟩ := hconcludes
  cases h with
  | compiling _ h =>
    cases hphase
    refine ⟨library, some (.ok file.references), fun more rules => ?_⟩
    have hfile : file.withRest more rules
        = ⟨id, identifier, name, rules, more, file.references, false⟩ := by
      simp [OpenFile.withRest, hslot, hpending, h.id, h.name, h.identifier]
    have htask : Task.withRest more rules ⟨[], .compiling file⟩
        = ⟨[], .compiling (file.withRest more rules)⟩ := rfl
    rw [htask, hfile]
    rfl
  -- A file above the sheet fills a slot, and the file that concludes does not.
  | loading waiting above below phase hwaiting h habove hfills =>
    have hfilled := hfills file hphase
    rw [hslot] at hfilled
    cases hfilled
  | failed error => cases hphase

/-- A sheet that waits for a file that nobody will finish gets no answer, and one that
has failed keeps its error. Neither depends on the rest of the sheet. -/
theorem exists_complete_eq_of_still (h : task.IsOnSheet id name identifier)
    (hnone : task.step? config 0 library = none)
    (hstill : ∀ more rules, (task.withRest more rules).moves config 0 library = false) :
    ∃ library' outcome, ∀ more rules, complete config library (task.withRest more rules)
      = proceed config library' id name identifier outcome more rules := by
  cases h with
  | compiling file h => cases hnone
  | loading waiting above below phase hwaiting h habove hphase =>
    refine ⟨library, none, fun more rules => (complete_of_still (hstill more rules)).trans ?_⟩
    subst hwaiting
    have hanswer : (Task.withRest more rules ⟨above ++ [below], phase⟩).answer? = none := by
      cases above <;> rfl
    rw [hanswer]
    rfl
  | failed error =>
    exact ⟨library, some (.error error), fun more rules => complete_of_still (hstill more rules)⟩

/-- What comes of the at-rules of a sheet does not depend on what is behind them. The
task is followed by its weight up to where the sheet has come to its rest, has failed,
or is stuck; so far every step is the same for all rests. -/
theorem exists_complete_eq (h : task.IsOnSheet id name identifier) :
    ∃ library' outcome, ∀ more rules, complete config library (task.withRest more rules)
      = proceed config library' id name identifier outcome more rules := by
  induction hweight : task.weight config using Nat.strong_induction_on
    generalizing library task with
  | _ weight ih =>
  subst hweight
  by_cases hconcludes : task.Concludes
  · exact exists_complete_eq_of_concludes h hconcludes
  -- Before the sheet is at its end, no step looks at its rest.
  · have hsame : ∀ more rules, (task.withRest more rules).step? config 0 library
        = (task.step? config 0 library).map (Task.resultWithRest more rules) := by
      intro more rules
      refine Task.step?_withRest more rules fun file hphase hpending => ?_
      by_contra hslot
      exact hconcludes ⟨file, hphase, hpending, by simpa using hslot⟩
    cases hstep : task.step? config 0 library with
    | some result =>
      obtain ⟨library', task'⟩ := result
      -- The library and the outcome are those of the run from the next state, for all rests
      -- at once.
      obtain ⟨last, outcome, hlast⟩ := ih _ (Task.weight_step hstep)
        (h.step (Task.move_of_step? hstep) hconcludes) rfl
      refine ⟨last, outcome, fun more rules => ?_⟩
      rw [← hlast, complete_of_step ((hsame more rules).trans (congrArg _ hstep))]
    | none =>
      by_cases hdelayed : task.isDelayed
      · obtain ⟨last, outcome, hlast⟩ := ih _ (Task.weight_tick_lt hdelayed) h.tick rfl
        refine ⟨last, outcome, fun more rules => ?_⟩
        rw [← hlast, complete_tick, Task.tick_withRest]
      · refine exists_complete_eq_of_still h hstep fun more rules => ?_
        rw [Task.moves, Task.isDelayed_withRest, hsame, hstep]
        simpa using hdelayed

/-- The first at-rules of a sheet are passed without a look at the others or at the
rules. The library and the outcome come before the rest in the statement, so they are
the same for all rests. -/
theorem exists_addSheet_append_eq (config : Config) (library : Library) (atRules : List AtRule)
    (identifier name : String) :
    ∃ library' outcome, ∀ more rules,
      library.addSheet config ⟨atRules ++ more, rules⟩ identifier name
        = proceed config library' library.nextId name identifier outcome more rules :=
  exists_complete_eq (.compiling
    ⟨library.nextId, identifier, name, [], atRules, [], false⟩ ⟨rfl, rfl, rfl, rfl⟩)

/-- A sheet is added by loading its references, in which its rules have no part, and
then building the block that they describe. This is the form in which adding a sheet
is used later on. -/
theorem exists_addSheet_eq (config : Config) (library : Library) (atRules : List AtRule)
    (identifier name : String) :
    ∃ library' outcome, ∀ rules, library.addSheet config ⟨atRules, rules⟩ identifier name
      = conclude library' library.nextId name identifier outcome rules := by
  obtain ⟨library', outcome, hproceed⟩ :=
    exists_addSheet_append_eq config library atRules identifier name
  refine ⟨library', outcome, fun rules => ?_⟩
  have hnil := hproceed [] rules
  rwa [List.append_nil, proceed_nil] at hnil

end Library

end BlockStyles
