import BlockStyles.Library.Task

/-!
# `BlockStyles.Library.Weight`: why tasks come to an end

Each task has a weight, and each of its steps makes it lighter. A file weighs by
the at-rules it still has to look at. Looking at one may start a load with its
own files, but only below the depth limit, so what it can cost is bounded by the
depth that is left, by the largest number of at-rules in a file and by the
delays.

* `Task.weight_step`: a step makes a task lighter.
* `Task.weight_tick_le`, `Task.weight_tick_lt`: a round of waiting does not make a
  task heavier, and one of a delay makes it lighter.
-/

set_option autoImplicit false

namespace BlockStyles

/-! ### Sums -/

/-- What the elements of a list amount to together. -/
def sumOf {α : Type} (f : α → Nat) : List α → Nat
  | [] => 0
  | a :: l => f a + sumOf f l

/-- No element amounts to more than all of them together. Bounds by a sum are
used in place of bounds by a maximum, as the sum of an empty list needs no
special case. -/
theorem le_sumOf {α : Type} (f : α → Nat) {l : List α} {a : α} (h : a ∈ l) : f a ≤ sumOf f l := by
  induction l with
  | nil => cases h
  | cons b l ih =>
    rcases List.mem_cons.1 h with rfl | h
    · exact Nat.le_add_right _ _
    · exact Nat.le_trans (ih h) (Nat.le_add_left _ _)

/-! ### Bounds -/

namespace Config

/-- How many at-rules a file has; none if it cannot be read. -/
def atRuleCount (config : Config) (identifier : String) : Nat :=
  match config.source? identifier with
  | none => 0
  | some source =>
    match Stylesheet.ofSource source with
    | .error _ => 0
    | .ok sheet => sheet.atRules.length

/-- No file has more at-rules than this. -/
def breadth (config : Config) : Nat :=
  sumOf (fun file => config.atRuleCount file.1) config.files

/-- No delay is longer than this. -/
def patience (config : Config) : Nat :=
  sumOf Prod.snd config.delays

/-- A value that is found under a key stands in the list with that key. The
bounds above are sums over the lists of a configuration, so they hold for
whatever is found. -/
private theorem mem_of_lookup {β : Type} {l : List (String × β)} {key : String} {value : β}
    (h : l.lookup key = some value) : (key, value) ∈ l := by
  induction l with
  | nil => cases h
  | cons entry l ih =>
    obtain ⟨k, v⟩ := entry
    by_cases hk : key = k
    · subst hk
      simp only [List.lookup_cons, beq_self_eq_true] at h
      cases h
      exact List.mem_cons_self
    · have hb : (key == k) = false := by simp [hk]
      simp only [List.lookup_cons, hb] at h
      exact List.mem_cons_of_mem _ (ih h)

/-- A file that can be read has no more at-rules than `breadth` says. The
bound adds up the at-rules of all files, so it is far from tight, but it does
not depend on the file. -/
theorem atRules_le_breadth {config : Config} {identifier source : String} {sheet : Stylesheet}
    (hsource : config.source? identifier = some source)
    (hsheet : Stylesheet.ofSource source = .ok sheet) :
    sheet.atRules.length ≤ config.breadth := by
  have hcount : config.atRuleCount identifier = sheet.atRules.length := by
    simp [atRuleCount, hsource, hsheet]
  exact hcount ▸ le_sumOf (fun file => config.atRuleCount file.1) (mem_of_lookup hsource)

/-- No file is waited for longer than `patience` says. A file without a delay
is not waited for at all. -/
theorem delay_le_patience (config : Config) (identifier : String) :
    config.delay identifier ≤ config.patience := by
  unfold delay
  cases h : config.delays.lookup identifier with
  | none => exact Nat.zero_le _
  | some n => exact le_sumOf Prod.snd (mem_of_lookup h)

/-- What a load weighs when the chain may still grow by `depth` files. -/
def loadWeight (config : Config) : Nat → Nat
  | 0 => 2
  | depth + 1 => config.patience + 5 + config.breadth * (loadWeight config depth + 2)

/-- What an at-rule weighs in a file that stands on `below` others. -/
def atRuleWeight (config : Config) (below : Nat) : Nat :=
  config.loadWeight (config.maxDepth - (below + 1)) + 2

/-- Even a load at the depth limit weighs something: it has still to be
refused, and its error to be handed down. -/
theorem two_le_loadWeight (config : Config) (depth : Nat) : 2 ≤ config.loadWeight depth := by
  cases depth <;> simp only [loadWeight] <;> omega

/-- What a load weighs below the depth limit: its delay, a few steps of its
own, and as much as all of its at-rules may cost. It is put here in terms of
the number of files below, which is what steps know, and not of the depth
that is left. -/
theorem loadWeight_of_lt {config : Config} {below : Nat} (h : below < config.maxDepth) :
    config.loadWeight (config.maxDepth - below)
      = config.patience + 5 + config.breadth * config.atRuleWeight below := by
  have : config.maxDepth - below = config.maxDepth - (below + 1) + 1 := by omega
  rw [this]
  rfl

end Config

/-! ### Weights -/

/-- What a phase weighs above a number of waiting files. -/
def Phase.weight (config : Config) (below : Nat) : Phase → Nat
  | entering _ => config.loadWeight (config.maxDepth - below)
  | importing _ delay => delay + 3 + config.breadth * config.atRuleWeight below
  | queued _ => config.patience + 4 + config.breadth * config.atRuleWeight below
  | compiling file => 2 + file.pending.length * config.atRuleWeight below
  | returning _ => 1

/-- What waiting files weigh. -/
def waitingWeight (config : Config) : List WaitingFile → Nat
  | [] => 0
  | top :: below =>
    3 + top.file.pending.length * config.atRuleWeight below.length + waitingWeight config below

namespace Task

/-- What a task weighs. -/
def weight (config : Config) (task : Task) : Nat :=
  task.phase.weight config task.waiting.length + waitingWeight config task.waiting

/-! ### Steps -/

variable {config : Config} {me : TaskId} {library : Library} {waiting : List WaitingFile}

/-- A task with an answer weighs one step more than the files that wait for
it. -/
private theorem weight_returning {answer : Except Error Block} :
    weight config ⟨waiting, .returning answer⟩ = 1 + waitingWeight config waiting := rfl

/-- A task that asks for a file weighs by the depth that is left above the
files that wait. -/
private theorem weight_entering {request : Request} :
    weight config ⟨waiting, .entering request⟩
      = config.loadWeight (config.maxDepth - waiting.length) + waitingWeight config waiting := rfl

/-- Taking a slot makes a task lighter, whether it gets the slot or is queued
for it. The weight of a load pays for both, for its delay too. -/
private theorem weight_takeSlot {request : Request} (h : waiting.length < config.maxDepth) :
    (takeSlot config me library waiting request).2.weight config
      < weight config ⟨waiting, .entering request⟩ := by
  have hdelay := config.delay_le_patience request.target
  rw [weight_entering, Config.loadWeight_of_lt h]
  unfold takeSlot
  dsimp only
  split <;> simp only [weight, Phase.weight] <;> omega

/-- Asking for a file makes a task lighter, in all five cases: the file
closes a circle, it is too deep, its block is there, waiting for it would
close a circle, or its slot decides. Only in the last case does the task go
on below the depth limit, which is then known to be not reached. -/
theorem weight_enter {request : Request} :
    (enter config me library waiting request).2.weight config
      < weight config ⟨waiting, .entering request⟩ := by
  have htwo := config.two_le_loadWeight (config.maxDepth - waiting.length)
  have hlength : (chain waiting).length = waiting.length := by simp [chain]
  unfold enter
  dsimp only
  split
  · simp only [weight_returning, weight_entering]
    omega
  · split
    · simp only [weight_returning, weight_entering]
      omega
    · split
      · simp only [weight_returning, weight_entering]
        omega
      · split
        · simp only [weight_returning, weight_entering]
          omega
        -- The check of the depth limit came before this case.
        · exact weight_takeSlot (by omega)

/-- Importing a file makes a task lighter. The at-rules that it finds are
paid for by the weight of the import, which reckons with as many of them as
any file has. -/
theorem weight_importFile {request : Request} :
    (importFile config library waiting request).2.weight config
      < weight config ⟨waiting, .importing request 0⟩ := by
  unfold importFile
  dsimp only
  split
  -- The file cannot be imported. An answer weighs less than any import.
  · simp only [weight, Phase.weight]
    omega
  · rename_i source hsource
    split
    · simp only [weight, Phase.weight]
      omega
    · rename_i sheet hsheet
      -- Only this case opens a file, so only here at-rules are added to the weight.
      have := Nat.mul_le_mul_right (config.atRuleWeight waiting.length)
        (Config.atRules_le_breadth hsource hsheet)
      simp only [weight, Phase.weight]
      omega

/-- Looking at an at-rule makes a task lighter, and so does being done with
them. An at-rule that starts a load hands its weight on to the load, one file
deeper. -/
theorem weight_compile {file : OpenFile} :
    (compile config library waiting file).2.weight config
      < weight config ⟨waiting, .compiling file⟩ := by
  unfold compile
  dsimp only
  split
  · split <;> simp only [weight, Phase.weight] <;> omega
  · rename_i atRule pending hpending
    have hmul : (pending.length + 1) * config.atRuleWeight waiting.length
        = pending.length * config.atRuleWeight waiting.length
          + config.atRuleWeight waiting.length := Nat.succ_mul _ _
    -- The weight of an at-rule is that of a load above it and two steps more.
    have hweight : config.atRuleWeight waiting.length
        = config.loadWeight (config.maxDepth - (waiting.length + 1)) + 2 := rfl
    split
    · simp only [weight, Phase.weight, hpending, List.length_cons]
      omega
    · split
      · simp only [weight, Phase.weight, hpending, List.length_cons]
        omega
      · split
        · simp only [weight, Phase.weight, hpending, List.length_cons]
          omega
        -- The at-rule gives its weight to the load that it starts.
        · simp only [weight, Phase.weight, waitingWeight, hpending, List.length_cons]
          omega

/-- Handing an answer down to a file that waits for it makes a task lighter:
the file was counted with three steps more while it waited. -/
theorem weight_deliver {below : WaitingFile} {answer : Except Error Block} :
    (deliver library below waiting answer).2.weight config
      < weight config ⟨below :: waiting, .returning answer⟩ := by
  unfold deliver
  split <;> simp only [weight, Phase.weight, waitingWeight] <;> omega

/-- A step makes a task lighter. There is one case for each phase, and in
each the lemma about what that phase does; a phase that cannot go on takes no
step. -/
theorem weight_step {task : Task} {result : Library × Task}
    (h : task.step? config me library = some result) :
    result.2.weight config < task.weight config := by
  obtain ⟨waiting, phase⟩ := task
  cases phase with
  | entering request =>
    cases Option.some.inj h
    exact weight_enter
  | importing request delay =>
    cases delay with
    | zero =>
      cases Option.some.inj h
      exact weight_importFile
    | succ delay => cases h
  | queued request =>
    -- A task in a queue may become the one that imports, and then it has the whole delay
    -- before it.
    have hdelay := config.delay_le_patience request.target
    simp only [step?] at h
    split at h
    · cases Option.some.inj h
      simp only [weight, Phase.weight]
      omega
    · split at h
      · cases Option.some.inj h
        simp only [weight, Phase.weight]
        omega
      · cases h
  | compiling file =>
    cases Option.some.inj h
    exact weight_compile
  | returning answer =>
    cases waiting with
    | nil => cases h
    | cons below waiting =>
      cases Option.some.inj h
      exact weight_deliver

/-! ### Delays -/

/-- Whether the task waits before it imports a file. -/
def isDelayed (task : Task) : Bool :=
  match task.phase with
  | .importing _ (_ + 1) => true
  | _ => false

/-- The task after one more round of its delay. -/
def tick (task : Task) : Task :=
  match task.phase with
  | .importing request (delay + 1) => { task with phase := .importing request delay }
  | _ => task

/-- A round of waiting makes no task heavier. Outside of a delay it changes
nothing. -/
theorem weight_tick_le (task : Task) : task.tick.weight config ≤ task.weight config := by
  unfold tick
  split
  · rename_i h
    simp only [weight, h, Phase.weight]
    omega
  · exact Nat.le_refl _

/-- A round of a delay makes a task lighter: the delay is counted in its
weight, round by round. -/
theorem weight_tick_lt {task : Task} (h : task.isDelayed) :
    task.tick.weight config < task.weight config := by
  unfold isDelayed at h
  split at h
  · rename_i hphase
    simp only [tick, weight, hphase, Phase.weight]
    omega
  · cases h

end Task

end BlockStyles
