import BlockStyles.Proofs.Block.Faults
import BlockStyles.Proofs.Library.Progress

/-!
# `BlockStyles.Proofs.Library.Errors`: where errors begin

An error begins at a request that is refused, at a file that cannot be imported, or at one that
does not become a block. From there on it is only passed down, through the files that wait and on
to whoever has asked. So what is so of errors where they begin is so of all answers.

* `Task.Move.error`: an error that is brought has been brought before, or it begins.
* `Session.errors_keep`: what holds of every error that begins holds of every error there is.
-/

set_option autoImplicit false

namespace BlockStyles

/-- What speaks against looking a file up at all. Nothing is read of the file before
this is known. -/
inductive Cause.OfChain : Cause → Prop where
  | cyclicReference (walk : List String) : OfChain (.cyclicReference walk)
  | tooDeep (limit : Nat) : OfChain (.tooDeep limit)

namespace Task

/-- An error begins. The three places are a request that is refused, an import that
fails, and a file that does not become a block. -/
inductive Raises (config : Config) (library : Library) : Task → Error → Prop where
  | refused (waiting : List WaitingFile) (request : Request) (cause : Cause)
      (h : request.Refused config library waiting cause) :
      Raises config library ⟨waiting, .entering request⟩ (.located request.location cause)
  | unreadable (waiting : List WaitingFile) (request : Request) (error : Error)
      (h : request.Unreadable config error) :
      Raises config library ⟨waiting, .importing request 0⟩ error
  | faulty (waiting : List WaitingFile) (file : OpenFile) (error : Error) (h : file.Faulty error) :
      Raises config library ⟨waiting, .compiling file⟩ error

variable {config : Config} {me : TaskId} {library library' : Library} {task task' : Task}

/-- An error that a task brings has been brought before, or it begins with this step.
It has been brought before when it is handed down to the file that waits. -/
theorem Move.error (hmove : Move config me library task library' task') {error : Error}
    (herror : task'.phase = .returning (.error error)) :
    task.phase = .returning (.error error) ∨ Raises config library task error := by
  cases hmove with
  | refused waiting request cause h =>
    cases herror
    exact .inr (.refused waiting request cause h)
  | unreadable waiting request error' h =>
    cases herror
    exact .inr (.unreadable waiting request _ h)
  | faulty waiting file error' h =>
    cases herror
    exact .inr (.faulty waiting file _ h)
  -- Handing an error down does not change it.
  | lost waiting below error' =>
    cases herror
    exact .inl rfl
  | _ => cases herror

/-- An error about the chain of a request begins where a file is refused. What is
wrong with an import or with the rules of a file has other causes. -/
theorem Raises.refused_of_cause {error : Error} (h : task.Raises config library error)
    (hcause : error.cause.OfChain) : ∃ waiting request, task = ⟨waiting, .entering request⟩
      ∧ request.Refused config library waiting error.cause := by
  cases h with
  | refused waiting request cause hrefused => exact ⟨waiting, request, rfl, hrefused⟩
  | unreadable waiting request error hunreadable => cases hunreadable <;> cases hcause
  | faulty waiting file error hfaulty =>
    cases hfaulty with
    | malformed | repeated => cases hcause
    | unbuilt _ hpending hunbuilt =>
      obtain ⟨_, _, cause, _, _, hrules⟩ := Block.inRules_of_ofRules hunbuilt
      cases hrules <;> cases hcause

/-- No answer comes in while a delay goes by. So a round of delays cannot begin an
error, and an invariant of errors is kept by it. -/
theorem phase_of_tick {answer : Except Error Block} (h : task.tick.phase = .returning answer) :
    task.phase = .returning answer := by
  unfold tick at h
  split at h
  · cases h
  · exact h

end Task

namespace Session

variable {config : Config} {session session' : Session} {P : String → Error → Prop}

/-- The errors that tasks bring, and those that have been answers, are of a kind,
which can depend on what has been asked for. -/
structure ErrorsKeep (P : String → Error → Prop) (session : Session) : Prop where
  brought : ∀ (i : TaskId) (reference : String) (task : Task),
    session.requests[i]? = some (reference, task) →
      ∀ error, task.phase = .returning (.error error) → P reference error
  answered : ∀ reference error, (reference, .error error) ∈ session.answered → P reference error

/-- The answers to the requests under way are what their tasks bring, so they are of
this kind. -/
theorem ErrorsKeep.of_mem_answers (h : session.ErrorsKeep P) {reference : String} {error : Error}
    (hanswer : (reference, .error error) ∈ session.answers) : P reference error := by
  obtain ⟨⟨reference', task⟩, hrequest, heq⟩ := List.mem_filterMap.1 hanswer
  obtain ⟨answer, htask, hpair⟩ := Option.map_eq_some_iff.1 heq
  cases hpair
  cases Task.answer?_eq_some.1 htask
  obtain ⟨i, hi⟩ := List.mem_iff_getElem?.1 hrequest
  exact h.brought i reference _ hi error rfl

/-- If errors are of a kind where they begin, a step keeps all of them of that kind.
Only work can bring a new error; the other steps move errors from one place to
another. -/
theorem ErrorsKeep.step (h : session.ErrorsKeep P)
    (hraised : ∀ (i : TaskId) (reference : String) (task : Task) (error : Error),
      session.requests[i]? = some (reference, task) → task.Raises config session.library error →
        P reference error)
    (hstep : Step config session session') : session'.ErrorsKeep P := by
  cases hstep with
  | ask reference =>
    refine ⟨fun i r task hi error herror => ?_, h.answered⟩
    rcases of_getElem?_append hi with hi | ⟨rfl, rfl⟩
    · exact h.brought i r task hi error herror
    · cases herror
  | work me reference library task task' hme hstep =>
    refine ⟨fun i r t hi error herror => ?_, h.answered⟩
    rw [getElem?_requests_update hme] at hi
    split at hi
    · cases hi
      -- The error has been brought before, or it begins here.
      rcases (Task.move_of_step? hstep).error herror with herror | hraises
      · exact h.brought me reference task hme error herror
      · exact hraised me reference task error hme hraises
    · exact h.brought i r t hi error herror
  | tick me reference task hme =>
    refine ⟨fun i r t hi error herror => ?_, h.answered⟩
    rw [getElem?_requests_update hme] at hi
    split at hi
    · cases hi
      exact h.brought me reference task hme error (Task.phase_of_tick herror)
    · exact h.brought i r t hi error herror
  | settle hanswered =>
    refine ⟨nofun, fun reference error hanswer => ?_⟩
    exact (List.mem_append.1 hanswer).elim (h.answered reference error) h.of_mem_answers

/-- What holds of every error that begins, whatever has been asked for, holds of all
answers. The errors that begin do so in a reachable session, which may be used to show
that it holds of them. -/
theorem errors_keep (h : Reachable config session)
    (hraised : ∀ (s : Session) (i : TaskId) (reference : String) (task : Task) (error : Error),
      Reachable config s → s.requests[i]? = some (reference, task) →
        task.Raises config s.library error → P reference error) :
    session.ErrorsKeep P :=
  h.invariant ⟨nofun, nofun⟩ fun s _ hreach hkeep hstep =>
    hkeep.step (fun i reference task error => hraised s i reference task error hreach) hstep

/-- What is kept by all errors holds of every answer, to requests under way and to
earlier ones. -/
theorem ErrorsKeep.of_mem (h : session.ErrorsKeep P) {reference : String} {error : Error}
    (hanswer : (reference, .error error) ∈ session.answered ++ session.answers) :
    P reference error :=
  (List.mem_append.1 hanswer).elim (h.answered reference error) h.of_mem_answers

end Session

end BlockStyles
