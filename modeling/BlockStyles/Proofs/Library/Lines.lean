import BlockStyles.Proofs.Library.Moves
import BlockStyles.Proofs.Library.Slots

/-!
# `BlockStyles.Proofs.Library.Lines`: whose turn it is with a file

A task *holds* the files that it is importing, compiling or keeping open below
another one. `Lines` ties the slots to what the tasks hold: the line of a slot,
that is its filler and the queue behind it, has every task once that holds the
file or is queued for it, and whoever holds the file is the filler.

* `Lines.of_change`: one task changes, and with it the slot of one file.
* `Lines.take`, `Lines.join`, `Lines.call`, `Lines.giveUp`, `Lines.fill`, `Lines.serve`:
  the ways in which this happens. A task takes a slot or goes to the end of its queue, its
  turn comes, it gives the file up or finishes it, or it gets a block that somebody else
  has finished.
* `Lines.step`: a step keeps this.
-/

set_option autoImplicit false

namespace BlockStyles

/-! ### What tasks hold -/

namespace Phase

/-- The file that is being imported or compiled. A task that stands in a queue does
not hold the file yet. -/
def held? : Phase → Option String
  | importing request _ => some request.target
  | compiling file => some file.identifier
  | _ => none

/-- The file in whose queue the task stands. -/
def queuedFor? : Phase → Option String
  | queued request => some request.target
  | _ => none

/-- The file that is being compiled. A file that is being imported has not been read
yet. -/
def open? : Phase → Option OpenFile
  | compiling file => some file
  | _ => none

end Phase

namespace Task

/-- The identifiers of the files that the task holds, innermost first. -/
def held (task : Task) : List String :=
  task.phase.held?.toList ++ task.waiting.map (·.file.identifier)

/-- The files that the task has open, innermost first. -/
def files (task : Task) : List OpenFile :=
  task.phase.open?.toList ++ task.waiting.map (·.file)

/-- Whether the task has to do with the slot of a file: it holds the file, or it
is queued for a block that is not there. -/
def ConcernedWith (task : Task) (file : String) (slot : Slot) : Prop :=
  file ∈ task.held ∨ task.phase.queuedFor? = some file ∧ slot.block = none

/-- A task that is queued nowhere has to do with the files that it holds. So in what
follows one need only ask what it holds before and after a step. -/
theorem concernedWith_iff {task : Task} (hidle : task.phase.queuedFor? = none) {file : String}
    {slot : Slot} : task.ConcernedWith file slot ↔ file ∈ task.held := by
  simp [ConcernedWith, hidle]

/-- A chain is as long as there are files that wait. The limit is compared with this
number. -/
theorem length_chain (waiting : List WaitingFile) : (chain waiting).length = waiting.length := by
  simp [chain]

/-- The chain has the files that wait, in the order from the first request on. -/
theorem mem_chain {file : String} {waiting : List WaitingFile} :
    file ∈ chain waiting ↔ file ∈ waiting.map (·.file.identifier) := by
  simp [chain]

/-- A task holds the files that it has open. It may hold one more, which it is
importing. -/
theorem mem_held_of_mem_files {task : Task} {file : OpenFile} (h : file ∈ task.files) :
    file.identifier ∈ task.held := by
  rcases List.mem_append.1 h with h | h
  · refine List.mem_append_left _ (Option.mem_toList.2 ?_)
    cases hphase : task.phase <;> rw [hphase] at h <;> cases Option.mem_toList.1 h
    rfl
  · obtain ⟨w, hw, rfl⟩ := List.mem_map.1 h
    exact List.mem_append_right _ (List.mem_map_of_mem hw)

/-- A task at its place in a list that has been changed there. Every step is such a
change, so this lemma is used for each of them. -/
theorem getElem?_set_self {tasks : List Task} {me : TaskId} {task : Task} (task' : Task)
    (h : tasks[me]? = some task) (i : TaskId) :
    (tasks.set me task')[i]? = if i = me then some task' else tasks[i]? := by
  obtain ⟨hlt, -⟩ := List.getElem?_eq_some_iff.1 h
  rw [List.getElem?_set]
  by_cases hi : me = i
  · simp [hi, hi ▸ hlt]
  · simp [hi, Ne.symm hi]

end Task

/-! ### Lines of one slot -/

/-- Nobody stands in line for a block that is there, behind a filler that is not
there, or twice. This is what is asked of one slot; `Lines` adds who is in line. -/
structure Slot.InOrder (slot : Slot) : Prop where
  done : slot.block.isSome → slot.line = []
  led : slot.filler = none → slot.queue = []
  nodup : slot.line.Nodup

namespace Slot

variable {slot : Slot} {me : TaskId}

/-- Without a filler nobody stands in line. -/
theorem InOrder.line_eq_nil (h : slot.InOrder) (hfiller : slot.filler = none) : slot.line = [] := by
  rw [line, hfiller, h.led hfiller]
  rfl

/-- Who takes a slot that nobody fills is the only one in line. The queue of such a
slot is empty, since it is only joined behind a filler. -/
theorem InOrder.line_take (h : slot.InOrder) (hfiller : slot.filler = none) (me : TaskId) :
    ({ slot with filler := some me } : Slot).line = [me] := by
  simp [line, h.led hfiller]

/-- A slot that nobody fills can be taken. There is no queue without a filler, so the
line is the new filler alone. -/
theorem InOrder.take (h : slot.InOrder) (hblock : slot.block = none)
    (hfiller : slot.filler = none) : ({ slot with filler := some me } : Slot).InOrder where
  done hsome := by simp [hblock] at hsome
  led hnone := by cases hnone
  nodup := by
    rw [h.line_take hfiller]
    exact List.nodup_singleton me

/-- Who joins a queue stands at the end of the line. So those who have come before
keep their places. -/
theorem line_join :
    ({ slot with queue := slot.queue ++ [me] } : Slot).line = slot.line ++ [me] := by
  simp [line]

/-- Who is not in line can join the queue behind a filler. The place is at the end, so
it does not overtake anybody. -/
theorem InOrder.join (h : slot.InOrder) (hblock : slot.block = none) {other : TaskId}
    (hfiller : slot.filler = some other) (hout : me ∉ slot.line) :
    ({ slot with queue := slot.queue ++ [me] } : Slot).InOrder where
  done hsome := by simp [hblock] at hsome
  led hnone := by simp [hfiller] at hnone
  nodup := by
    rw [line_join, ← List.concat_eq_append, List.nodup_concat]
    exact ⟨hout, h.nodup⟩

/-- When a slot is handed over, its line loses the filler and nobody else. The first
in the queue becomes the filler, and so the rest of the line stays as it was. -/
theorem line_handOver :
    ({ slot with filler := slot.queue.head?, queue := slot.queue.tail } : Slot).line
      = slot.queue := by
  cases hqueue : slot.queue <;> simp [line]

/-- A slot without a block can be handed over to the first of its queue. If there is a
block, nobody is in line and nothing has to be handed over. -/
theorem InOrder.handOver (h : slot.InOrder) (hblock : slot.block = none) :
    ({ slot with filler := slot.queue.head?, queue := slot.queue.tail } : Slot).InOrder where
  done hsome := by simp [hblock] at hsome
  led hnone := by
    dsimp only at hnone
    rw [List.head?_eq_none_iff.1 hnone]
    rfl
  nodup := by
    rw [line_handOver]
    exact (List.nodup_append.1 h.nodup).2.1

/-- With a block in the slot nobody stands in line any more. All who wait can have the
block from there, with no need of a turn. -/
theorem inOrder_fill (block : Block) :
    ({ slot with block := some block, filler := none, queue := [] } : Slot).InOrder :=
  ⟨fun _ => rfl, fun _ => rfl, .nil⟩

end Slot

/-! ### Lines of all slots -/

/-- The lines of the slots are made up of the tasks that hold the files or are queued
for them. The fields that name one slot are those of `Slot.InOrder`. -/
structure Lines (library : Library) (tasks : List Task) : Prop where
  /-- Nobody stands in line for a block that is there. -/
  done : ∀ f, (library.slot f).block.isSome → (library.slot f).line = []
  /-- Nobody stands behind a filler that is not there. -/
  led : ∀ f, (library.slot f).filler = none → (library.slot f).queue = []
  /-- Nobody stands in a line twice. -/
  nodup : ∀ f, (library.slot f).line.Nodup
  /-- Those in line are those whom it concerns. -/
  mem_line : ∀ (f : String) (i : TaskId), i ∈ (library.slot f).line ↔
    ∃ task : Task, tasks[i]? = some task ∧ task.ConcernedWith f (library.slot f)
  /-- Who holds a file is its filler. -/
  holder : ∀ (f : String) (i : TaskId) (task : Task), tasks[i]? = some task → f ∈ task.held →
    (library.slot f).filler = some i
  /-- Nobody holds a file twice, or is queued for a file that they hold. -/
  once : ∀ (i : TaskId) (task : Task), tasks[i]? = some task →
    task.held.Nodup ∧ ∀ f, task.phase.queuedFor? = some f → f ∉ task.held
  /-- Every open file is to fill its slot. -/
  fills : ∀ (i : TaskId) (task : Task), tasks[i]? = some task → ∀ file ∈ task.files, file.fillsSlot

namespace Lines

variable {library library' : Library} {tasks : List Task} {me : TaskId} {task task' : Task}

/-- There is no block yet where somebody is at work. A slot with a block has nobody in
line, and a filler would be. -/
theorem block_eq_none (h : Lines library tasks) {f : String} {i : TaskId}
    (hfiller : (library.slot f).filler = some i) : (library.slot f).block = none := by
  cases hblock : (library.slot f).block with
  | none => rfl
  | some block =>
    have hline := h.done f (by simp [hblock])
    simp [Slot.line, hfiller] at hline

/-- Two tasks never hold the same file, since both would be its filler. So the open
files of different tasks are different. -/
theorem eq_of_mem_held (h : Lines library tasks) {f : String} {i j : TaskId} {t u : Task}
    (ht : tasks[i]? = some t) (hu : tasks[j]? = some u) (hft : f ∈ t.held) (hfu : f ∈ u.held) :
    i = j := by
  have hi := h.holder f i t ht hft
  have hj := h.holder f j u hu hfu
  exact Option.some.inj (hi.symm.trans hj)

/-- Whether a task stands in line is a matter of what it holds and where it is queued.
The other tasks have no part in it. -/
theorem mem_line_self (h : Lines library tasks) (hme : tasks[me]? = some task) (f : String) :
    me ∈ (library.slot f).line ↔ task.ConcernedWith f (library.slot f) := by
  rw [h.mem_line]
  constructor
  · rintro ⟨t, ht, hconcerned⟩
    rw [hme] at ht
    cases ht
    exact hconcerned
  · exact fun hconcerned => ⟨task, hme, hconcerned⟩

/-- Each slot is in order by itself. What is said of one slot can be used apart from
the tasks. -/
theorem inOrder (h : Lines library tasks) (f : String) : (library.slot f).InOrder :=
  ⟨h.done f, h.led f, h.nodup f⟩

/-- What a file waits for plays no part. So nothing changes where blocks, fillers and
queues are the same. -/
theorem of_slots (h : Lines library tasks)
    (hslots : ∀ f, (library'.slot f).block = (library.slot f).block
      ∧ (library'.slot f).filler = (library.slot f).filler
      ∧ (library'.slot f).queue = (library.slot f).queue) : Lines library' tasks := by
  -- A line is the filler and the queue behind it, and these two are the same.
  have hline : ∀ f, (library'.slot f).line = (library.slot f).line := by
    intro f
    rw [Slot.line, (hslots f).2.1, (hslots f).2.2, Slot.line]
  refine ⟨fun f => ?_, fun f => ?_, fun f => ?_, fun f i => ?_, fun f i task htask hf => ?_,
    h.once, h.fills⟩
  · rw [hline, (hslots f).1]
    exact h.done f
  · rw [(hslots f).2.1, (hslots f).2.2]
    exact h.led f
  · rw [hline]
    exact h.nodup f
  · simp only [hline, Task.ConcernedWith, (hslots f).1]
    exact h.mem_line f i
  · rw [(hslots f).2.1]
    exact h.holder f i task htask hf

/-! ### Changes of one task -/

/-- One task changes, and with it the slot of one file. All others keep their places
in the lines of other files; what is to be shown is that the line of this one is right
again. The lemmas below are the ways in which this happens. -/
theorem of_change (h : Lines library tasks) (hme : tasks[me]? = some task) {f : String}
    {slot : Slot} (hslot : ∀ g, library'.slot g = if g = f then slot else library.slot g)
    (horder : slot.InOrder)
    (hothers : ∀ i, i ≠ me →
      (i ∈ slot.line ↔ ∃ t : Task, tasks[i]? = some t ∧ t.ConcernedWith f slot))
    (hself : me ∈ slot.line ↔ task'.ConcernedWith f slot)
    (hrest : ∀ g, g ≠ f → ((g ∈ task'.held ↔ g ∈ task.held)
      ∧ (task'.phase.queuedFor? = some g ↔ task.phase.queuedFor? = some g)))
    (hholders : ∀ i (t : Task), i ≠ me → tasks[i]? = some t → f ∈ t.held → slot.filler = some i)
    (hholder : f ∈ task'.held → slot.filler = some me)
    (honce : task'.held.Nodup ∧ ∀ g, task'.phase.queuedFor? = some g → g ∉ task'.held)
    (hfills : ∀ file ∈ task'.files, file.fillsSlot) : Lines library' (tasks.set me task') := by
  have hset := Task.getElem?_set_self task' hme
  have horders : ∀ g, (library'.slot g).InOrder := by
    intro g
    rw [hslot]
    split
    · exact horder
    · exact h.inOrder g
  refine ⟨fun g => (horders g).done, fun g => (horders g).led, fun g => (horders g).nodup,
    fun g i => ?_, fun g i t ht hg => ?_, fun i t ht => ?_, fun i t ht => ?_⟩
  -- Who is in line: the task itself and the others, in the line of `f` and in those elsewhere.
  · rw [hslot, hset]
    by_cases hi : i = me
    · subst hi
      rw [if_pos rfl]
      by_cases hg : g = f
      · subst hg
        simpa using hself
      · have hconcerned : task'.ConcernedWith g (library.slot g)
            ↔ task.ConcernedWith g (library.slot g) :=
          or_congr (hrest g hg).1 (and_congr_left' (hrest g hg).2)
        rw [if_neg hg, h.mem_line_self hme, ← hconcerned]
        simp
    · rw [if_neg hi]
      by_cases hg : g = f
      · subst hg
        simpa using hothers i hi
      · rw [if_neg hg]
        exact h.mem_line g i
  -- Who fills: likewise.
  · rw [hslot]
    rw [hset] at ht
    by_cases hi : i = me
    · rw [if_pos hi] at ht
      cases ht
      split
      · rename_i hgf
        exact hi ▸ hholder (hgf ▸ hg)
      · rename_i hgf
        exact hi ▸ h.holder g me task hme ((hrest g hgf).1.1 hg)
    · rw [if_neg hi] at ht
      split
      · rename_i hgf
        exact hholders i t hi ht (hgf ▸ hg)
      · exact h.holder g i t ht hg
  · rw [hset] at ht
    split at ht
    · cases ht
      exact honce
    · exact h.once i t ht
  · rw [hset] at ht
    split at ht
    · cases ht
      exact hfills
    · exact h.fills i t ht

/-- As long as no block comes or goes, the others are in line if they were. A block
that comes in would end the concern of all who are queued for it. -/
theorem mem_line_of_block (h : Lines library tasks) {f : String} {slot : Slot}
    (hblock : slot.block = (library.slot f).block)
    (hline : ∀ i, i ≠ me → (i ∈ slot.line ↔ i ∈ (library.slot f).line)) (i : TaskId)
    (hi : i ≠ me) : i ∈ slot.line ↔ ∃ t : Task, tasks[i]? = some t ∧ t.ConcernedWith f slot := by
  rw [hline i hi, h.mem_line]
  simp only [Task.ConcernedWith, hblock]

/-- Nothing changes for a task that holds what it held and is queued where it was.
Most steps are of this kind, such as opening a file or taking up a reference. -/
theorem of_held (h : Lines library tasks) (hme : tasks[me]? = some task)
    (hheld : task'.held = task.held)
    (hqueued : task'.phase.queuedFor? = task.phase.queuedFor?)
    (hfills : ∀ file ∈ task'.files, file.fillsSlot) : Lines library (tasks.set me task') := by
  refine h.of_change hme (library.slot_self "") (h.inOrder _) (fun i _ => h.mem_line _ i) ?_
    (fun g _ => ⟨by rw [hheld], by rw [hqueued]⟩) (fun i t _ => h.holder _ i t)
    (fun hf => h.holder _ me task hme (hheld ▸ hf)) ?_ hfills
  · rw [h.mem_line_self hme, Task.ConcernedWith, Task.ConcernedWith, hheld, hqueued]
  · rw [hheld, hqueued]
    exact h.once me task hme

/-- A queued task goes away when the block is there. It stands in no line any more, as
the block being there has ended the line. -/
theorem serve (h : Lines library tasks) (hme : tasks[me]? = some task) {f : String}
    (hqueued : task.phase.queuedFor? = some f) (hblock : (library.slot f).block.isSome)
    (hheld : task'.held = task.held) (hidle : task'.phase.queuedFor? = none)
    (hfills : ∀ file ∈ task'.files, file.fillsSlot) : Lines library (tasks.set me task') := by
  obtain ⟨hnodup, hnew⟩ := h.once me task hme
  refine h.of_change hme (library.slot_self f) (h.inOrder f) (fun i _ => h.mem_line f i) ?_
    (fun g hg => ⟨?_, ?_⟩) (fun i t _ => h.holder f i t)
    (fun hf => h.holder f me task hme (hheld ▸ hf)) ⟨hheld ▸ hnodup, by simp [hidle]⟩ hfills
  · rw [h.done f hblock, Task.concernedWith_iff hidle, hheld]
    exact iff_of_false List.not_mem_nil (hnew f hqueued)
  · rw [hheld]
  · simp [hidle, hqueued, Ne.symm hg]

/-- A task takes a slot that nobody fills. From then on it holds the file. Nobody is
in the queue of a slot without a filler, so the task is all of the line. -/
theorem take (h : Lines library tasks) (hme : tasks[me]? = some task) {f : String}
    (hblock : (library.slot f).block = none) (hfiller : (library.slot f).filler = none)
    (hslot : ∀ g, library'.slot g
      = if g = f then { library.slot f with filler := some me } else library.slot g)
    (hidle : task.phase.queuedFor? = none) (hidle' : task'.phase.queuedFor? = none)
    (hheld : task'.held = f :: task.held)
    (hfills : ∀ file ∈ task'.files, file.fillsSlot) : Lines library' (tasks.set me task') := by
  have hline := (h.inOrder f).line_take hfiller me
  -- A task that held the file would be its filler.
  have hnobody : ∀ (i : TaskId) (t : Task), tasks[i]? = some t → f ∉ t.held := by
    intro i t ht hf
    have hholder := h.holder f i t ht hf
    rw [hfiller] at hholder
    cases hholder
  refine h.of_change hme hslot ((h.inOrder f).take hblock hfiller)
    (h.mem_line_of_block rfl fun i hi => ?_) ?_ (fun g hg => ⟨?_, by rw [hidle, hidle']⟩)
    (fun i t _ ht hf => absurd hf (hnobody i t ht)) (fun _ => rfl) ⟨?_, by simp [hidle']⟩ hfills
  · rw [hline, (h.inOrder f).line_eq_nil hfiller]
    exact iff_of_false (fun hin => hi (List.mem_singleton.1 hin)) List.not_mem_nil
  · rw [hline]
    exact iff_of_true (List.mem_singleton_self me) (.inl (hheld ▸ List.mem_cons_self))
  · simp [hheld, hg]
  · rw [hheld]
    exact List.nodup_cons.2 ⟨hnobody me task hme, (h.once me task hme).1⟩

/-- A task goes to the end of the queue of a slot that somebody fills. It must not
hold the file itself, which has been checked when the chain was looked at. -/
theorem join (h : Lines library tasks) (hme : tasks[me]? = some task) {f : String} {other : TaskId}
    (hblock : (library.slot f).block = none) (hfiller : (library.slot f).filler = some other)
    (hslot : ∀ g, library'.slot g
      = if g = f then { library.slot f with queue := (library.slot f).queue ++ [me] }
        else library.slot g)
    (hnew : f ∉ task.held) (hidle : task.phase.queuedFor? = none)
    (hqueued : task'.phase.queuedFor? = some f) (hheld : task'.held = task.held)
    (hfills : ∀ file ∈ task'.files, file.fillsSlot) : Lines library' (tasks.set me task') := by
  -- It has not been in line so far, as it neither held the file nor was queued.
  have hout : me ∉ (library.slot f).line := by
    rw [h.mem_line_self hme, Task.concernedWith_iff hidle]
    exact hnew
  refine h.of_change hme hslot ((h.inOrder f).join hblock hfiller hout)
    (h.mem_line_of_block rfl fun i hi => ?_) ?_ (fun g hg => ⟨by rw [hheld], ?_⟩)
    (fun i t _ => h.holder f i t) (fun hf => absurd hf (hheld ▸ hnew))
    ⟨hheld ▸ (h.once me task hme).1, fun g hg => ?_⟩ hfills
  · rw [Slot.line_join, List.mem_append, List.mem_singleton]
    exact or_iff_left hi
  · rw [Slot.line_join]
    refine iff_of_true (List.mem_append_right _ ?_) (.inr ⟨hqueued, hblock⟩)
    exact List.mem_singleton_self me
  · simp [hidle, hqueued, Ne.symm hg]
  · rw [hqueued] at hg
    cases hg
    exact hheld ▸ hnew

/-- A queued task whose turn has come begins to fill the slot. It has been in line
before, so the line is the same; what changes is that it holds the file. -/
theorem call (h : Lines library tasks) (hme : tasks[me]? = some task) {f : String}
    (hfiller : (library.slot f).filler = some me)
    (hqueued : task.phase.queuedFor? = some f) (hidle : task'.phase.queuedFor? = none)
    (hheld : task'.held = f :: task.held)
    (hfills : ∀ file ∈ task'.files, file.fillsSlot) : Lines library (tasks.set me task') := by
  obtain ⟨hnodup, hnew⟩ := h.once me task hme
  refine h.of_change hme (library.slot_self f) (h.inOrder f) (fun i _ => h.mem_line f i) ?_
    (fun g hg => ⟨?_, ?_⟩) (fun i t _ => h.holder f i t) (fun _ => hfiller)
    ⟨?_, by simp [hidle]⟩ hfills
  · refine iff_of_true ?_ (.inl (hheld ▸ List.mem_cons_self))
    exact List.mem_append_left _ (Option.mem_toList.2 hfiller)
  · simp [hheld, hg]
  · simp [hidle, hqueued, Ne.symm hg]
  · rw [hheld]
    exact List.nodup_cons.2 ⟨hnew f hqueued, hnodup⟩

/-- What a task no longer holds nobody holds. It does not hold the file twice, and no
other task holds it. -/
theorem not_mem_held (h : Lines library tasks) (hme : tasks[me]? = some task) {f : String}
    (hheld : task.held = f :: task'.held) :
    f ∉ task'.held ∧ task'.held.Nodup
      ∧ ∀ (i : TaskId) (t : Task), i ≠ me → tasks[i]? = some t → f ∉ t.held := by
  have hnodup := (h.once me task hme).1
  rw [hheld] at hnodup
  obtain ⟨hnew, hnodup⟩ := List.nodup_cons.1 hnodup
  refine ⟨hnew, hnodup, fun i t hi ht hf => hi ?_⟩
  exact h.eq_of_mem_held ht hme hf (hheld ▸ List.mem_cons_self)

/-- A task gives up a file, and the first in the queue gets the slot. The task leaves
the line in front, and all the others keep their places. -/
theorem giveUp (h : Lines library tasks) (hme : tasks[me]? = some task) {f : String}
    (hslot : ∀ g, library'.slot g
      = if g = f then
          { library.slot f with
            filler := (library.slot f).queue.head?, queue := (library.slot f).queue.tail }
        else library.slot g)
    (hidle : task.phase.queuedFor? = none) (hidle' : task'.phase.queuedFor? = none)
    (hheld : task.held = f :: task'.held)
    (hfills : ∀ file ∈ task'.files, file.fillsSlot) : Lines library' (tasks.set me task') := by
  have hfiller := h.holder f me task hme (hheld ▸ List.mem_cons_self)
  -- What is left of the line without its filler is the queue.
  have hline : (library.slot f).line = me :: (library.slot f).queue := by
    rw [Slot.line, hfiller]
    rfl
  have hnodup := h.nodup f
  rw [hline] at hnodup
  obtain ⟨hnew, honce, hothers⟩ := h.not_mem_held hme hheld
  refine h.of_change hme hslot ((h.inOrder f).handOver (h.block_eq_none hfiller))
    (h.mem_line_of_block rfl fun i hi => ?_) ?_ (fun g hg => ⟨?_, by rw [hidle, hidle']⟩)
    (fun i t hi ht hf => absurd hf (hothers i t hi ht)) (fun hf => absurd hf hnew)
    ⟨honce, by simp [hidle']⟩ hfills
  -- The others are in line if they were behind the filler.
  · rw [Slot.line_handOver, hline]
    simp [hi]
  · rw [Slot.line_handOver, Task.concernedWith_iff hidle']
    exact iff_of_false (List.nodup_cons.1 hnodup).1 hnew
  · simp [hheld, hg]

/-- A task puts the block of a file into its slot. This ends the line, so nobody may
be concerned with the slot any more. -/
theorem fill (h : Lines library tasks) (hme : tasks[me]? = some task) {f : String} {block : Block}
    (hslot : ∀ g, library'.slot g
      = if g = f then { library.slot f with block := some block, filler := none, queue := [] }
        else library.slot g)
    (hidle : task.phase.queuedFor? = none) (hidle' : task'.phase.queuedFor? = none)
    (hheld : task.held = f :: task'.held)
    (hfills : ∀ file ∈ task'.files, file.fillsSlot) : Lines library' (tasks.set me task') := by
  obtain ⟨hnew, honce, hothers⟩ := h.not_mem_held hme hheld
  refine h.of_change hme hslot (Slot.inOrder_fill block) (fun i hi => ?_) ?_
    (fun g hg => ⟨?_, by rw [hidle, hidle']⟩)
    (fun i t hi ht hf => absurd hf (hothers i t hi ht)) (fun hf => absurd hf hnew)
    ⟨honce, by simp [hidle']⟩ hfills
  -- Whoever was queued for the block is served, and nobody else was concerned.
  · refine iff_of_false List.not_mem_nil ?_
    rintro ⟨t, ht, hf | ⟨-, hblock⟩⟩
    · exact hothers i t hi ht hf
    · cases hblock
  · rw [Task.concernedWith_iff hidle']
    exact iff_of_false List.not_mem_nil hnew
  · simp [hheld, hg]

/-! ### Steps -/

/-- The innermost waiting file has a slot, which its task fills. So that it waits can
be recorded there. -/
theorem innermost_used (h : Lines library tasks) (hme : tasks[me]? = some task) (below : String)
    (hbelow : Library.innermost? task.waiting = some below) : library.slot below ≠ .unused := by
  have hheld : below ∈ task.held :=
    List.mem_append_right _ (Library.mem_of_innermost? hbelow)
  intro hunused
  have hfiller := h.holder below me task hme hheld
  rw [hunused] at hfiller
  cases hfiller

/-- Beginning to wait changes nobody's place. The mark is about files, and not about
who stands in line for them. -/
theorem waitFor (h : Lines library tasks) (waiting : List WaitingFile) (target : String) :
    Lines (library.waitFor waiting target) tasks :=
  h.of_slots fun f => by
    rcases library.slot_waitFor_cases waiting target f with heq | ⟨-, heq⟩ <;> rw [heq] <;>
      exact ⟨rfl, rfl, rfl⟩

/-- Ceasing to wait changes nobody's place, either. It only takes a mark back, in the
same way. -/
theorem release (h : Lines library tasks) (waiting : List WaitingFile) :
    Lines (library.release waiting) tasks :=
  h.of_slots fun f => by
    rw [Library.slot_release]
    split <;> exact ⟨rfl, rfl, rfl⟩

/-- A task gives up the file that it holds innermost, for an error. The slot is handed
over, and the file below ceases to wait. -/
theorem close_error (h : Lines library tasks) (hme : tasks[me]? = some task)
    {file : OpenFile} {error : Error} (hfile : file ∈ task.files)
    (hidle : task.phase.queuedFor? = none) (hidle' : task'.phase.queuedFor? = none)
    (hheld : task.held = file.identifier :: task'.held)
    (hfiles : ∀ f ∈ task'.files, f ∈ task.files) (waiting : List WaitingFile) :
    Lines (library.close waiting file (.error error)) (tasks.set me task') := by
  have hfills := h.fills me task hme
  rw [Library.close, if_pos (hfills file hfile)]
  have hgiven : Lines (library.handOver file.identifier) (tasks.set me task') :=
    h.giveUp hme (Library.slot_handOver library file.identifier) hidle hidle' hheld
      fun f hf => hfills f (hfiles f hf)
  exact hgiven.release waiting

/-- A step keeps the lines right. Each move is one of the changes above, after what it
does to waiting files has been set aside by `waitFor` and `release`. -/
theorem step {config : Config} (h : Lines library tasks) (hme : tasks[me]? = some task)
    (hmove : Task.Move config me library task library' task') :
    Lines library' (tasks.set me task') := by
  have hfills := h.fills me task hme
  cases hmove with
  | refused waiting request cause => exact h.of_held hme rfl rfl hfills
  | known waiting request block => exact h.of_held hme rfl rfl hfills
  | found waiting request block =>
    exact ((h.waitFor waiting request.target).release waiting).of_held hme rfl rfl hfills
  | takes waiting request hclaims hblock hfiller =>
    exact (h.waitFor waiting request.target).take hme hblock hfiller
      (Library.slot_setSlot _ _ _) rfl rfl rfl hfills
  | queues waiting request other hclaims hblock hfiller =>
    have hnew : request.target ∉ Task.held ⟨waiting, .entering request⟩ :=
      fun hin => hclaims.new (Task.mem_chain.2 hin)
    exact (h.waitFor waiting request.target).join hme hblock hfiller
      (Library.slot_setSlot _ _ _) hnew rfl rfl rfl hfills
  | served waiting request block hblock =>
    have hserved : Lines library (tasks.set me ⟨waiting, .returning (.ok block)⟩) :=
      h.serve hme rfl (by simp [hblock]) rfl rfl hfills
    exact hserved.release waiting
  | called waiting request hblock hfiller => exact h.call hme hfiller rfl rfl rfl hfills
  -- No file has been opened, so the slot is given up without `close`.
  | unreadable waiting request error =>
    have hgiven : Lines (library.handOver request.target)
        (tasks.set me ⟨waiting, .returning (.error error)⟩) :=
      h.giveUp hme (Library.slot_handOver library request.target) rfl rfl rfl hfills
    exact hgiven.release waiting
  | opened waiting request source sheet =>
    have hnext : Lines { library with nextId := library.nextId + 1 } tasks :=
      h.of_slots fun f => ⟨rfl, rfl, rfl⟩
    refine hnext.of_held hme rfl rfl fun file hfile => ?_
    rcases List.mem_cons.1 hfile with rfl | hfile
    · rfl
    · exact hfills file hfile
  | skipped waiting file atRule pending =>
    refine h.of_held hme rfl rfl fun f hf => ?_
    rcases List.mem_cons.1 hf with rfl | hf
    · exact hfills file List.mem_cons_self
    · exact hfills f (List.mem_cons_of_mem _ hf)
  | refers waiting file after localName request hrefers =>
    obtain ⟨atRule, pending, reference, -, -, -, -⟩ := hrefers
    refine h.of_held hme rfl rfl fun f hf => ?_
    rcases List.mem_cons.1 hf with rfl | hf
    · exact hfills file List.mem_cons_self
    · exact hfills f (List.mem_cons_of_mem _ hf)
  | faulty waiting file error =>
    exact h.close_error hme List.mem_cons_self rfl rfl rfl (fun f => List.mem_cons_of_mem file)
      waiting
  | built waiting file block =>
    rw [Library.close, if_pos (hfills file List.mem_cons_self)]
    have hfilled : Lines ((library.register block).fill file.identifier block)
        (tasks.set me ⟨waiting, .returning (.ok block)⟩) :=
      h.fill hme (Library.slot_fill (library.register block) file.identifier block) rfl rfl rfl
        fun f hf => hfills f (List.mem_cons_of_mem _ hf)
    exact hfilled.release waiting
  | gained waiting below block =>
    refine h.of_held hme rfl rfl fun f hf => ?_
    rcases List.mem_cons.1 hf with rfl | hf
    · exact hfills below.file List.mem_cons_self
    · exact hfills f (List.mem_cons_of_mem _ hf)
  | lost waiting below error =>
    exact h.close_error hme List.mem_cons_self rfl rfl rfl
      (fun f => List.mem_cons_of_mem below.file) waiting

end Lines

end BlockStyles
