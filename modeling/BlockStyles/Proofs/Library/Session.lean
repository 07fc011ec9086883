import BlockStyles.Library.Run
import Mathlib.Data.List.Zip
import Mathlib.Logic.Relation

/-!
# `BlockStyles.Proofs.Library.Session`: all orders in which requests can be worked on

A session is a library with the requests that are under way in it. At any time
a reference can be asked for, any task can take a step or have a round of its
delay go by, and once all requests have been answered their places become free
for others. Nothing says in which order this happens.

What `Library.getAll` does with a list of references is one such order, and so
is any history of such calls. What holds in every reachable session holds
whatever way requests have been made and whatever way they are interleaved.

* `Session.steps_resume`, `Session.steps_round`, `Session.steps_run`: one turn of a task, one
  round of all tasks, and rounds for as long as any task moves, each as steps of a session.
* `Session.reachable_getAll`: loading references together is a run of a session.
* `Library.run_still`: when tasks stop running, none of them can move.
-/

set_option autoImplicit false

namespace BlockStyles

open Relation (ReflTransGen)

/-- A library, and the requests to it. -/
structure Session where
  library : Library
  /-- The references that are being asked for, each with its task. -/
  requests : List (String × Task)
  /-- The references that have been asked for before, each with its answer. -/
  answered : List (String × Except Error Block)

namespace Session

/-- No request yet. -/
def start : Session := ⟨.empty, [], []⟩

/-- The tasks under way. Each is named by its place. -/
def tasks (session : Session) : List Task :=
  session.requests.map Prod.snd

/-- The session after a task has changed it. -/
def update (session : Session) (me : TaskId) (reference : String) (library : Library)
    (task : Task) : Session :=
  { session with library, requests := session.requests.set me (reference, task) }

/-- The answers of the requests under way, as far as they are there. -/
def answers (session : Session) : List (String × Except Error Block) :=
  session.requests.filterMap fun (reference, task) => task.answer?.map (reference, ·)

/-- What can happen in a session. -/
inductive Step (config : Config) : Session → Session → Prop where
  /-- Another reference is asked for. -/
  | ask (session : Session) (reference : String) :
      Step config session
        { session with requests := session.requests ++ [(reference, .get config reference)] }
  /-- A task takes a step. -/
  | work (session : Session) (me : TaskId) (reference : String) (library : Library)
      (task task' : Task) (hme : session.requests[me]? = some (reference, task))
      (h : task.step? config me session.library = some (library, task')) :
      Step config session (session.update me reference library task')
  /-- A round goes by for a task. -/
  | tick (session : Session) (me : TaskId) (reference : String) (task : Task)
      (hme : session.requests[me]? = some (reference, task)) :
      Step config session (session.update me reference session.library task.tick)
  /-- All requests have been answered and are over. -/
  | settle (session : Session) (h : ∀ task ∈ session.tasks, task.answer?.isSome) :
      Step config session ⟨session.library, [], session.answered ++ session.answers⟩

/-- A session that can come about, by any steps in any order. -/
def Reachable (config : Config) (session : Session) : Prop :=
  ReflTransGen (Step config) start session

/-- The places of the requests and of the tasks are the same. So a task can be named
by the place of its request. -/
theorem getElem?_tasks {session : Session} {me : TaskId} {reference : String} {task : Task}
    (hme : session.requests[me]? = some (reference, task)) : session.tasks[me]? = some task := by
  rw [tasks, List.getElem?_map, hme]
  rfl

/-- Changing a request changes its task and no other. -/
@[simp]
theorem tasks_update (session : Session) (me : TaskId) (reference : String) (library : Library)
    (task : Task) :
    (session.update me reference library task).tasks = session.tasks.set me task :=
  List.map_set

/-- The requests after another one has been made: it is one of the old ones, or the
new one. -/
theorem of_getElem?_append {requests : List (String × Task)} {reference reference' : String}
    {task task' : Task} {i : TaskId}
    (h : (requests ++ [(reference, task)])[i]? = some (reference', task')) :
    requests[i]? = some (reference', task') ∨ reference' = reference ∧ task' = task := by
  rcases Nat.lt_or_ge i requests.length with hlt | hge
  · rw [List.getElem?_append_left hlt] at h
    exact .inl h
  · rw [List.getElem?_append_right hge] at h
    cases List.mem_singleton.1 (List.mem_of_getElem? h)
    exact .inr ⟨rfl, rfl⟩

/-- The request that has changed, and the others. A task keeps its reference for good. -/
theorem getElem?_requests_update {session : Session} {me : TaskId} {reference : String}
    {task : Task} (hme : session.requests[me]? = some (reference, task)) (library : Library)
    (task' : Task) (i : TaskId) :
    (session.update me reference library task').requests[i]?
      = if i = me then some (reference, task') else session.requests[i]? := by
  obtain ⟨hlt, -⟩ := List.getElem?_eq_some_iff.1 hme
  rw [update, List.getElem?_set]
  by_cases hi : me = i
  · simp [hi, hi ▸ hlt]
  · simp [hi, Ne.symm hi]

end Session

/-! ### Rounds as runs of a session -/

namespace Task

variable {config : Config} {me : TaskId} {library : Library} {task : Task}

/-- A task that does not move stays as it is when it is resumed. Neither its delay nor
a step could change anything. -/
theorem resume_of_not_moves (h : task.moves config me library = false) :
    task.resume config me library = (library, task) := by
  obtain ⟨hdelayed, hstep⟩ := Bool.or_eq_false_iff.1 h
  have htick : task.tick = task := by
    unfold tick
    split
    · rename_i hphase
      simp [isDelayed, hphase] at hdelayed
    · rfl
  have hnone : task.step? config me library = none := by simpa using hstep
  rw [resume, htick, advance]
  split
  · rfl
  · rename_i hsome
    rw [hnone] at hsome
    cases hsome

end Task

namespace Library

variable (config : Config) (me : TaskId) (library : Library) (tasks : List Task)

/-- A round takes no task away. -/
@[simp]
theorem length_round : (round config me library tasks).2.1.length = tasks.length := by
  induction tasks generalizing me library with
  | nil => rfl
  | cons task tasks ih => simp [round, ih]

/-- A round in which no task moves changes nothing. So each task has found the library
as it is, and stands still with it. -/
theorem round_still (h : (round config me library tasks).2.2 = false) :
    (round config me library tasks).1 = library ∧ (round config me library tasks).2.1 = tasks
      ∧ ∀ (i : TaskId) (task : Task), tasks[i]? = some task →
        task.moves config (me + i) library = false := by
  induction tasks generalizing me library with
  | nil => exact ⟨rfl, rfl, fun i task htask => by simp at htask⟩
  | cons task tasks ih =>
    simp only [round] at h ⊢
    -- The first task stands still, so the others find the library as it was.
    obtain ⟨hstill, hrest⟩ := Bool.or_eq_false_iff.1 h
    rw [Task.resume_of_not_moves hstill] at hrest ⊢
    obtain ⟨hlibrary, htasks, hothers⟩ := ih (me + 1) library hrest
    refine ⟨hlibrary, by rw [htasks], fun i t ht => ?_⟩
    cases i with
    | zero =>
      cases ht
      exact hstill
    | succ i =>
      have := hothers i t ht
      rwa [Nat.add_assoc, Nat.add_comm 1 i] at this

/-- A run begins with a round, and goes on as long as something moves. As an equation
it lets a run be followed round by round. -/
theorem run_of_moved {library' : Library} {tasks' : List Task}
    (h : round config 0 library tasks = (library', tasks', true)) :
    run config library tasks = run config library' tasks' := by
  rw [run]
  split
  rename_i hround
  rw [h] at hround
  cases hround
  rfl

/-- A run ends when nothing moves. The last round has changed nothing then. A round in
which no task moves is the same as no round. -/
theorem run_of_still (h : (round config 0 library tasks).2.2 = false) :
    run config library tasks = (library, tasks) := by
  obtain ⟨hlibrary, htasks, -⟩ := round_still config 0 library tasks h
  rw [run]
  split
  rename_i hround
  rw [hround] at h hlibrary htasks
  cases h
  exact Prod.ext hlibrary htasks

/-- A run takes no task away. Nor does it add any, so answers can be told by their
places. -/
@[simp]
theorem length_run : (run config library tasks).2.length = tasks.length := by
  induction library, tasks using run.induct config with
  | case1 library tasks library' tasks' hround _ ih =>
    rw [run_of_moved config library tasks hround, ih, ← length_round config 0 library tasks, hround]
  | case2 library tasks library' tasks' moved hround hmoved =>
    rw [run_of_still config library tasks (by simp [hround, hmoved])]

/-- When tasks have stopped running, none of them can move. The induction follows the
rounds of the run, of which the last one decides. -/
theorem run_still {i : TaskId} {task : Task} (h : (run config library tasks).2[i]? = some task) :
    task.moves config i (run config library tasks).1 = false := by
  induction library, tasks using run.induct config with
  | case1 library tasks library' tasks' hround _ ih =>
    rw [run_of_moved config library tasks hround] at h ⊢
    exact ih h
  | case2 library tasks library' tasks' moved hround hmoved =>
    have hstill : (round config 0 library tasks).2.2 = false := by simp [hround, hmoved]
    rw [run_of_still config library tasks hstill] at h ⊢
    exact Nat.zero_add i ▸ (round_still config 0 library tasks hstill).2.2 i task h

/-- A single request is a run of one task. What is shown for references that are
loaded together holds for one by this. -/
theorem get_eq_getAll (reference : String) :
    library.get config reference
      = ((library.getAll config [reference]).1,
        (library.getAll config [reference]).2.head?.join) := by
  simp only [get, complete, getAll, List.map_cons, List.map_nil, List.head?_map]
  cases (run config library [Task.get config reference]).2.head? <;> rfl

end Library

namespace Session

variable {config : Config}

/-- What a task does when it is advanced is a run of a session. The induction follows
the steps that it takes at once. -/
theorem steps_advance (session : Session) (me : TaskId) (reference : String) (task : Task)
    (hme : session.requests[me]? = some (reference, task)) :
    ReflTransGen (Step config) session
      (session.update me reference (task.advance config me session.library).1
        (task.advance config me session.library).2) := by
  obtain ⟨library, requests, answered⟩ := session
  have hlt : me < requests.length := (List.getElem?_eq_some_iff.1 hme).1
  dsimp only at hme ⊢
  fun_induction task.advance config me library generalizing requests with
  | case1 library task hnone =>
    have hsame : requests.set me (reference, task) = requests := by
      obtain ⟨_, hget⟩ := List.getElem?_eq_some_iff.1 hme
      rw [← hget, List.set_getElem_self]
    simp only [update, hsame]
    exact .refl
  | case2 library task library' task' hstep _ ih =>
    have hfirst :=
      Step.work ⟨library, requests, answered⟩ me reference library' task task' hme hstep
    have hrest := ih (requests.set me (reference, task')) (by simp [hlt])
      (by simpa using hlt)
    -- Two changes at one place come to the last one.
    simp only [update, List.set_set] at hfirst hrest ⊢
    exact .head hfirst hrest

/-- Resuming a task is a round of its delay and then a run of its steps. The task does
not come to rest in between, so this is one turn of the scheduler. -/
theorem steps_resume (session : Session) (me : TaskId) (reference : String) (task : Task)
    (hme : session.requests[me]? = some (reference, task)) :
    ReflTransGen (Step config) session
      (session.update me reference (task.resume config me session.library).1
        (task.resume config me session.library).2) := by
  have hlt : me < session.requests.length := (List.getElem?_eq_some_iff.1 hme).1
  have htick : Step config session _ := Step.tick session me reference task hme
  have hadvance : ReflTransGen (Step config) _ _ :=
    steps_advance (session.update me reference session.library task.tick) me reference task.tick
      (by simp [update, hlt])
  simp only [update, List.set_set] at htick hadvance ⊢
  exact .head htick hadvance

/-- A round is a run of a session. The requests in front of those that are resumed
stay as they are. They are a variable of the induction, since each request moves to
the front when its turn is over. -/
theorem steps_round (library : Library) (front requests : List (String × Task))
    (answered : List (String × Except Error Block)) :
    ReflTransGen (Step config) ⟨library, front ++ requests, answered⟩
      ⟨(Library.round config front.length library (requests.map Prod.snd)).1,
        front ++ (requests.map Prod.fst).zip
          (Library.round config front.length library (requests.map Prod.snd)).2.1,
        answered⟩ := by
  induction requests generalizing library front with
  | nil => exact .refl
  | cons request requests ih =>
    obtain ⟨reference, task⟩ := request
    -- Once it has been resumed, the first request is one of those in front.
    have hfirst : ReflTransGen (Step config) _ _ :=
      steps_resume ⟨library, front ++ (reference, task) :: requests, answered⟩ front.length
        reference task (by simp)
    have hrest := ih (task.resume config front.length library).1
      (front ++ [(reference, (task.resume config front.length library).2)])
    simp only [update, List.set_append_right _ _ (Nat.le_refl _), Nat.sub_self,
      List.set_cons_zero] at hfirst
    simp only [List.append_assoc, List.singleton_append, List.length_append, List.length_singleton]
      at hrest
    exact hfirst.trans hrest

/-- Running tasks for as long as any of them moves is a run of a session. The
induction follows the rounds. -/
theorem steps_run (library : Library) (requests : List (String × Task))
    (answered : List (String × Except Error Block)) :
    ReflTransGen (Step config) ⟨library, requests, answered⟩
      ⟨(Library.run config library (requests.map Prod.snd)).1,
        (requests.map Prod.fst).zip (Library.run config library (requests.map Prod.snd)).2,
        answered⟩ := by
  generalize htasks : requests.map Prod.snd = tasks
  induction library, tasks using Library.run.induct config generalizing requests with
  | case1 library tasks library' tasks' hround _ ih =>
    subst htasks
    have hfirst : ReflTransGen (Step config) _ _ := steps_round library [] requests answered
    have hlength := Library.length_round config 0 library (requests.map Prod.snd)
    simp only [List.nil_append, List.length_nil, hround, List.length_map] at hfirst hlength
    -- A round takes no request away and changes no reference.
    have hfst : ((requests.map Prod.fst).zip tasks').map Prod.fst = requests.map Prod.fst :=
      List.map_fst_zip (by simp [hlength])
    have hrest := ih ((requests.map Prod.fst).zip tasks') (List.map_snd_zip (by simp [hlength]))
    rw [hfst] at hrest
    rw [Library.run_of_moved config library _ hround]
    exact hfirst.trans hrest
  | case2 library tasks library' tasks' moved hround hmoved =>
    subst htasks
    rw [Library.run_of_still config library _ (by simp [hround, hmoved]), List.zip_map']
    simp only [List.map_id']
    exact .refl

/-- Asking for references one after the other is a run of a session. The tasks are
there together from then on, and none of them has moved yet. -/
theorem steps_ask (library : Library) (requests : List (String × Task))
    (answered : List (String × Except Error Block)) (references : List String) :
    ReflTransGen (Step config) ⟨library, requests, answered⟩
      ⟨library, requests ++ references.map fun reference => (reference, .get config reference),
        answered⟩ := by
  induction references generalizing requests with
  | nil => rw [List.map_nil, List.append_nil]
  | cons reference references ih =>
    have hfirst : Step config _ _ := Step.ask ⟨library, requests, answered⟩ reference
    have hrest := ih (requests ++ [(reference, .get config reference)])
    rw [List.append_assoc, List.singleton_append] at hrest
    exact .head hfirst hrest

/-- Loading references together, after anything that has happened before, is a run of
a session. So what holds in all reachable sessions holds when it is over. -/
theorem reachable_getAll {library : Library} {answered : List (String × Except Error Block)}
    (h : Reachable config ⟨library, [], answered⟩) (references : List String) :
    Reachable config
      ⟨(Library.run config library (references.map (.get config))).1,
        references.zip (Library.run config library (references.map (.get config))).2,
        answered⟩ := by
  have hask : ReflTransGen (Step config) _ _ := steps_ask library [] answered references
  have hrun : ReflTransGen (Step config) _ _ := steps_run library
    (references.map fun reference => (reference, Task.get config reference)) answered
  simp only [List.map_map, Function.comp_def, List.map_id'] at hrun
  exact (h.trans hask).trans hrun

end Session

end BlockStyles
