import BlockStyles.Proofs.Block.Edits
import BlockStyles.Proofs.Library.Alone
import BlockStyles.Proofs.Library.Effects

/-!
# `BlockStyles.Proofs.Library.Workshop`: all that can be done with a library

A workshop is a library on which all kinds of requests are worked on at once: files are asked
for, and stylesheets that are none of the files are handed in, under any identifier, even one
that a block has already. Next to the library a workshop keeps a log of the blocks in the order
in which they have been registered. The log is not part of the library; it is what is said about
the library that refers to it.

* `Workshop.Reachable`: the workshops that can come about, in any order of steps.
* `Workshop.Kept`: what is so in all of them.
* `Workshop.Kept.step`: a step keeps it. There is one case for each kind of effect on the blocks:
  nothing is registered, a file is opened, or a file is finished.
* `Library.Made`: the libraries that the operations on a library lead to, one after the other.
-/

set_option autoImplicit false

namespace BlockStyles

open Relation (ReflTransGen)

/-- A library, the tasks that work on it, and the blocks in the order of their
registration. -/
structure Workshop where
  library : Library
  tasks : List Task
  registered : List Block

/-- The blocks of a library that an earlier one does not have. -/
def Library.newBlocks (library library' : Library) : List Block :=
  library'.blocks.filter fun block => (library.block? block.id).isNone

/-- A stylesheet as a file that fills no slot. It has the identifier and the name that
it has been handed in with. -/
def OpenFile.ofSheet (id : Nat) (sheet : Stylesheet) (identifier name : String) : OpenFile where
  id
  identifier
  name
  rules := sheet.rules
  pending := sheet.atRules
  references := []
  fillsSlot := false

namespace Library

variable {library library' : Library}

/-- A block is found under its id. The arena is sorted by ids, so that one id stands
for one block. -/
theorem block?_eq_some_iff {id : Nat} {block : Block} :
    library.block? id = some block ↔ block ∈ library.blocks ∧ block.id = id :=
  SortedList.find?_eq_some_iff

/-- As long as no block is finished there is none that is new. Nothing is added to the
log by such a step. -/
theorem newBlocks_eq_nil (h : library'.finished = library.finished) :
    library.newBlocks library' = [] := by
  rw [newBlocks, List.filter_eq_nil_iff]
  intro block hblock
  have hin : block ∈ library.blocks := by rwa [blocks, h] at hblock
  simp [block?_eq_some_iff.2 ⟨hin, rfl⟩]

/-- A library that registers a block under a new id has it besides those that it had.
An id that is taken would make it replace the block that has it. -/
theorem Registers.mem_blocks_iff {block other : Block} (h : library.Registers library' block)
    (hnew : ∀ other ∈ library.blocks, other.id ≠ block.id) :
    other ∈ library'.blocks ↔ other = block ∨ other ∈ library.blocks := by
  rw [blocks, h.finished]
  exact (mem_blocks_register library).trans
    (or_congr_right ⟨And.left, fun hin => ⟨hin, hnew other hin⟩⟩)

/-- A block under an id that no block has is the one that is new. New blocks are told
by their ids, and the list has nothing twice, so it has just this one. -/
theorem Registers.newBlocks {block : Block} (h : library.Registers library' block)
    (hnew : ∀ other ∈ library.blocks, other.id ≠ block.id) :
    library.newBlocks library' = [block] := by
  have hmem : ∀ other, other ∈ library.newBlocks library' ↔ other ∈ [block] := by
    intro other
    rw [Library.newBlocks, List.mem_filter, h.mem_blocks_iff hnew, List.mem_singleton,
      Option.isNone_iff_eq_none]
    constructor
    · rintro ⟨rfl | hin, hnone⟩
      · rfl
      · rw [block?_eq_some_iff.2 ⟨hin, rfl⟩] at hnone
        cases hnone
    · rintro rfl
      refine ⟨.inl rfl, Option.eq_none_iff_forall_ne_some.2 fun found hfound => ?_⟩
      obtain ⟨hin, hid⟩ := block?_eq_some_iff.1 hfound
      exact hnew found hin hid
  -- Two lists without repetition that have the same members are permutations of each other.
  have hnodup : (library.newBlocks library').Nodup :=
    (List.Nodup.of_map Block.id library'.finished.nodup_keys).filter _
  exact List.perm_singleton.1 ((List.perm_ext_iff_of_nodup hnodup (List.nodup_singleton _)).2 hmem)

/-- A library that registers a block has it bound to its identifier. A block that was
bound to this identifier before gives way to it. -/
theorem Registers.blockFor?_eq {block : Block} (h : library.Registers library' block)
    (identifier : String) :
    library'.blockFor? identifier
      = if block.identifier = identifier then some block else library.blockFor? identifier := by
  rw [← blockFor?_register, blockFor?, h.bound, blockFor?]

end Library

/-- A task at its place among others, and another one in its stead. In this form what
is collected from all tasks can be compared before and after. -/
theorem Task.exists_set_eq {tasks : List Task} {me : TaskId} {task : Task}
    (h : tasks[me]? = some task) (task' : Task) :
    ∃ front back, tasks = front ++ task :: back ∧ tasks.set me task' = front ++ task' :: back := by
  obtain ⟨hlt, rfl⟩ := List.getElem?_eq_some_iff.1 h
  refine ⟨tasks.take me, tasks.drop (me + 1), ?_, List.set_eq_take_append_cons_drop.trans ?_⟩
  · rw [← List.drop_eq_getElem_cons hlt, List.take_append_drop]
  · rw [if_pos hlt]

namespace Workshop

/-- Nothing has been done yet. -/
def start : Workshop := ⟨.empty, [], []⟩

/-- What can happen in a workshop. -/
inductive Step (config : Config) : Workshop → Workshop → Prop where
  /-- A file is asked for. -/
  | ask (workshop : Workshop) (reference : String) :
      Step config workshop
        { workshop with tasks := workshop.tasks ++ [.get config reference] }
  /-- A stylesheet is handed in. -/
  | submit (workshop : Workshop) (sheet : Stylesheet) (identifier name : String) :
      Step config workshop
        ⟨{ workshop.library with nextId := workshop.library.nextId + 1 },
          workshop.tasks
            ++ [⟨[], .compiling (.ofSheet workshop.library.nextId sheet identifier name)⟩],
          workshop.registered⟩
  /-- A task takes a step. What it registers comes last in the log. -/
  | work (workshop : Workshop) (me : TaskId) (library : Library) (task task' : Task)
      (hme : workshop.tasks[me]? = some task)
      (h : task.step? config me workshop.library = some (library, task')) :
      Step config workshop
        ⟨library, workshop.tasks.set me task',
          workshop.registered ++ workshop.library.newBlocks library⟩
  /-- A round goes by for a task. -/
  | tick (workshop : Workshop) (me : TaskId) (task : Task)
      (hme : workshop.tasks[me]? = some task) :
      Step config workshop { workshop with tasks := workshop.tasks.set me task.tick }
  /-- The tasks are over, with or without an answer. -/
  | leave (workshop : Workshop) : Step config workshop { workshop with tasks := [] }

/-- A workshop that can come about, by any steps in any order. -/
def Reachable (config : Config) (workshop : Workshop) : Prop :=
  ReflTransGen (Step config) start workshop

/-! ### What is so in every workshop -/

/-- The ids that have been given out and are still in use, by blocks and by open files. -/
def ids (workshop : Workshop) : List Nat :=
  workshop.registered.map Block.id ++ workshop.tasks.flatMap Task.ids

/-- Of the blocks that have been registered the last one of an identifier. -/
def lastOf? (registered : List Block) (identifier : String) : Option Block :=
  registered.reverse.find? (·.identifier == identifier)

/-- The later part of a log decides, and if it has no such block, the earlier one
does. -/
theorem lastOf?_append (registered more : List Block) (identifier : String) :
    lastOf? (registered ++ more) identifier
      = (lastOf? more identifier).or (lastOf? registered identifier) := by
  rw [lastOf?, List.reverse_append, List.find?_append]
  rfl

/-- The last block of an identifier is in the log and has the identifier. -/
theorem mem_of_lastOf? {registered : List Block} {identifier : String} {block : Block}
    (h : lastOf? registered identifier = some block) :
    block ∈ registered ∧ block.identifier = identifier :=
  ⟨List.mem_reverse.1 (List.mem_of_find?_eq_some h), by simpa using List.find?_some h⟩

/-- There is no last block of an identifier if no block in the log has it. Once there
is one, there always is, since nothing is taken out of the log. -/
theorem lastOf?_eq_none_iff {registered : List Block} {identifier : String} :
    lastOf? registered identifier = none ↔ ∀ block ∈ registered, block.identifier ≠ identifier := by
  simp [lastOf?]

/-- The log is right about the library, and only registered blocks are passed on. From
`earlier` it follows that references lead in no circle, since they lead back in the
log. -/
structure Kept (workshop : Workshop) : Prop where
  blocks : ∀ block, block ∈ workshop.library.blocks ↔ block ∈ workshop.registered
  bound : ∀ identifier,
    workshop.library.blockFor? identifier = lastOf? workshop.registered identifier
  slot : ∀ identifier block, (workshop.library.slot identifier).block = some block →
    block ∈ workshop.registered
  has : ∀ task ∈ workshop.tasks, ∀ block, task.Has block → block ∈ workshop.registered
  /-- No id is in use twice. -/
  ids : workshop.ids.Nodup
  below : ∀ id ∈ workshop.ids, id < workshop.library.nextId
  /-- A block refers to blocks that have been registered before. -/
  earlier : ∀ before block after, workshop.registered = before ++ block :: after →
    ∀ reference ∈ block.references, reference.2 ∈ before
  /-- Every block has been built from its references. -/
  built : ∀ block ∈ workshop.registered, ∃ id name identifier rules,
    Block.ofRules id name identifier block.references rules = .ok block

/-- At the start there are no blocks and no tasks. So there are no ids in use, and
nothing has to be below the first one. -/
theorem kept_start : start.Kept where
  blocks block := Iff.rfl
  bound identifier := rfl
  slot identifier block h := by cases h
  has := nofun
  ids := .nil
  below := nofun
  earlier before block after h := by simp [start] at h
  built := nofun

namespace Kept

variable {config : Config} {workshop : Workshop} {library library' : Library} {task task' : Task}
  {me : TaskId}

/-- No two blocks in the log have one id. Ids of open files are among those in use as
well, but only blocks are spoken of here. -/
theorem ids_nodup (h : workshop.Kept) : (workshop.registered.map Block.id).Nodup :=
  (List.nodup_append.1 h.ids).1

/-- Blocks in the log are told apart by their ids. Identifiers do not do this, as one
can be given to several blocks. -/
theorem eq_of_id {block other : Block} (h : workshop.Kept) (hblock : block ∈ workshop.registered)
    (hother : other ∈ workshop.registered) (hid : block.id = other.id) : block = other :=
  List.inj_on_of_nodup_map h.ids_nodup hblock hother hid

/-- What a block in the log refers to is in the log. It stands in front of the block,
since files are finished after those that they refer to. -/
theorem reference_mem {block : Block} (h : workshop.Kept) (hblock : block ∈ workshop.registered)
    {reference : String × Block} (hreference : reference ∈ block.references) :
    reference.2 ∈ workshop.registered := by
  obtain ⟨before, after, hlog⟩ := List.append_of_mem hblock
  rw [hlog]
  exact List.mem_append_left _ (h.earlier before block after hlog reference hreference)

/-- What is there for whoever looks a file up is in the log. It is bound, or it is in
the slot of a file. Both are filled by registering. -/
theorem of_offers (h : workshop.Kept) {block : Block} (hoffers : workshop.library.Offers block) :
    block ∈ workshop.registered := by
  cases hoffers with
  | bound identifier hbound =>
    rw [h.bound] at hbound
    exact (mem_of_lastOf? hbound).1
  | slot identifier hslot => exact h.slot identifier block hslot

/-- Tasks that have nothing yet can come and go. Ids that were in use may fall out of
use. -/
theorem of_tasks (h : workshop.Kept) {tasks : List Task}
    (hhas : ∀ task ∈ tasks, ∀ block, task.Has block → block ∈ workshop.registered)
    (hids : (tasks.flatMap Task.ids).Sublist (workshop.tasks.flatMap Task.ids)) :
    Kept { workshop with tasks } where
  blocks := h.blocks
  bound := h.bound
  slot := h.slot
  has := hhas
  ids := h.ids.sublist (hids.append_left _)
  below id hid := h.below id ((hids.append_left _).subset hid)
  earlier := h.earlier
  built := h.built

/-- The library can change in everything but its blocks. Tasks and the log stay as
they are. Steps that only touch marks and queues are of this kind. -/
theorem of_same (h : workshop.Kept) (hsame : workshop.library.SameBlocks library') :
    Kept { workshop with library := library' } where
  blocks block := by rw [hsame.blocks, h.blocks]
  bound identifier := by rw [hsame.blockFor?, h.bound]
  slot identifier block hslot := h.slot identifier block (hsame.slot identifier ▸ hslot)
  has := h.has
  ids := h.ids
  below id hid := hsame.nextId ▸ h.below id hid
  earlier := h.earlier
  built := h.built

/-- A file that has been opened has the next id, and no block and no other file has
it. All ids in use are below the next one. -/
theorem of_opened (h : workshop.Kept) {tasks : List Task}
    (hhas : ∀ task ∈ tasks, ∀ block, task.Has block → block ∈ workshop.registered)
    (hids : (tasks.flatMap Task.ids).Perm
      (workshop.library.nextId :: workshop.tasks.flatMap Task.ids)) :
    Kept ⟨{ workshop.library with nextId := workshop.library.nextId + 1 }, tasks,
      workshop.registered⟩ := by
  have hall : (Workshop.ids ⟨{ workshop.library with nextId := workshop.library.nextId + 1 }, tasks,
      workshop.registered⟩).Perm (workshop.library.nextId :: workshop.ids) :=
    (hids.append_left _).trans List.perm_middle
  -- All ids in use are below the next one, so it is new.
  have hnew : workshop.library.nextId ∉ workshop.ids := fun hin =>
    Nat.lt_irrefl _ (h.below _ hin)
  constructor
  case blocks => exact h.blocks
  case bound => exact h.bound
  case slot => exact h.slot
  case has => exact hhas
  case ids => exact hall.nodup_iff.2 (List.nodup_cons.2 ⟨hnew, h.ids⟩)
  case below =>
    intro id hid
    rcases List.mem_cons.1 (hall.mem_iff.1 hid) with rfl | hid
    · exact Nat.lt_succ_self _
    · exact Nat.lt_succ_of_lt (h.below id hid)
  case earlier => exact h.earlier
  case built => exact h.built

/-- A block that has been finished has the id of its file, which is open no longer. So
the ids in use are the same as before, and the block comes last in the log. -/
theorem of_finished (h : workshop.Kept) {tasks : List Task} {file : OpenFile} {block : Block}
    (hregisters : workshop.library.Registers library' block)
    (hbuilt : Block.ofRules file.id file.name file.identifier file.references file.rules
      = .ok block)
    (hreferences : ∀ reference ∈ file.references, reference.2 ∈ workshop.registered)
    (hhas : ∀ task ∈ tasks, ∀ other, task.Has other →
      other = block ∨ other ∈ workshop.registered)
    (hids : (workshop.tasks.flatMap Task.ids).Perm (file.id :: tasks.flatMap Task.ids)) :
    Kept ⟨library', tasks, workshop.registered ++ workshop.library.newBlocks library'⟩ := by
  have hkeeps := Block.ofRules_keeps hbuilt
  have hid : block.id = file.id := hkeeps.id
  have hsame : block.references = file.references := hkeeps.references
  have hall : (Workshop.ids ⟨library', tasks, workshop.registered ++ [block]⟩).Perm
      workshop.ids := by
    simp only [Workshop.ids, List.map_append, List.map_singleton, List.append_assoc,
      List.singleton_append, hid]
    exact hids.symm.append_left _
  -- The id of an open file is not that of a block.
  have hnew : ∀ other ∈ workshop.library.blocks, other.id ≠ block.id := by
    intro other hother heq
    have hin : other.id ∈ workshop.registered.map Block.id :=
      List.mem_map_of_mem ((h.blocks other).1 hother)
    have hopen : file.id ∈ workshop.tasks.flatMap Task.ids :=
      hids.mem_iff.2 List.mem_cons_self
    exact List.disjoint_of_nodup_append h.ids (heq.trans hid ▸ hin) hopen
  rw [hregisters.newBlocks hnew]
  have hmem : ∀ other, other ∈ workshop.registered ++ [block]
      ↔ other = block ∨ other ∈ workshop.registered := by
    intro other
    rw [List.mem_append, List.mem_singleton, or_comm]
  constructor
  case blocks =>
    intro other
    rw [hregisters.mem_blocks_iff hnew, hmem, h.blocks]
  -- The new block is the last one of its identifier.
  case bound =>
    intro identifier
    rw [hregisters.blockFor?_eq, h.bound, lastOf?_append]
    by_cases hidentifier : block.identifier = identifier <;> simp [lastOf?, hidentifier]
  case slot =>
    intro identifier other hother
    rcases hregisters.slot identifier other hother with rfl | hslot
    · exact (hmem other).2 (.inl rfl)
    · exact (hmem other).2 (.inr (h.slot identifier other hslot))
  case has => exact fun task htask other hother => (hmem other).2 (hhas task htask other hother)
  case ids => exact hall.nodup_iff.2 h.ids
  case below => exact fun id hin => hregisters.nextId ▸ h.below id (hall.mem_iff.1 hin)
  case earlier =>
    intro before other after heq reference hreference
    rcases List.eq_nil_or_concat after with rfl | ⟨rest, last, rfl⟩
    -- The new block refers to blocks that are all there already.
    · obtain ⟨rfl, hlast⟩ := List.append_inj' heq rfl
      cases hlast
      exact hreferences reference (hsame ▸ hreference)
    · rw [List.concat_eq_append, ← List.cons_append, ← List.append_assoc] at heq
      obtain ⟨hregistered, -⟩ := List.append_inj' heq rfl
      exact h.earlier before other rest hregistered reference hreference
  case built =>
    intro other hother
    rcases (hmem other).1 hother with rfl | hother
    · exact ⟨_, _, _, _, hsame.symm ▸ hbuilt⟩
    · exact h.built other hother

/-- The work of a task keeps the log right. There is one case for each kind of effect
that a step can have on blocks. -/
theorem work (h : workshop.Kept) (hme : workshop.tasks[me]? = some task)
    (hmove : Task.Move config me workshop.library task library' task') :
    Kept ⟨library', workshop.tasks.set me task',
      workshop.registered ++ workshop.library.newBlocks library'⟩ := by
  obtain ⟨front, back, htasks, hset⟩ := Task.exists_set_eq hme task'
  have htask : task ∈ workshop.tasks := List.mem_of_getElem? hme
  -- The other tasks have what they had.
  have hothers : ∀ {p : Block → Prop}, (∀ block, task'.Has block → p block) →
      (∀ block ∈ workshop.registered, p block) →
        ∀ other ∈ workshop.tasks.set me task', ∀ block, other.Has block → p block := by
    intro p hp hregistered other hother block hhas
    rcases List.mem_or_eq_of_mem_set hother with hother | rfl
    · exact hregistered block (h.has other hother block hhas)
    · exact hp block hhas
  cases hmove.effect with
  | quiet hsame hids hhas =>
    rw [Library.newBlocks_eq_nil hsame.finished, List.append_nil]
    have hnow : ∀ block, task'.Has block → block ∈ workshop.registered := by
      intro block hblock
      rcases hhas block hblock with hblock | hblock
      · exact h.has task htask block hblock
      · exact h.of_offers hblock
    refine (h.of_tasks (hothers hnow fun _ hin => hin) ?_).of_same hsame
    rw [hset, htasks, List.flatMap_append, List.flatMap_append]
    exact (hids.append_right _).append_left _
  | opens hlibrary hids hhas =>
    have hfinished : library'.finished = workshop.library.finished := by rw [hlibrary]
    rw [Library.newBlocks_eq_nil hfinished, List.append_nil, hlibrary]
    have hnow : ∀ block, task'.Has block → block ∈ workshop.registered :=
      fun block hblock => h.has task htask block (hhas block hblock)
    refine h.of_opened (hothers hnow fun _ hin => hin) ?_
    rw [hset, htasks]
    simp [hids]
  | finishes file block hbuilt hregisters hids hreferences hhas =>
    have hnow : ∀ other, task'.Has other → other = block ∨ other ∈ workshop.registered :=
      fun other hother => (hhas other hother).imp_right (h.has task htask other)
    refine h.of_finished hregisters hbuilt
      (fun reference hin => h.has task htask _ (hreferences reference hin))
      (hothers hnow fun _ => .inr) ?_
    rw [hset, htasks]
    simp [hids]

/-- Every step of a workshop keeps the log right. A stylesheet that is handed in takes
an id at once, as a file does when it is opened. -/
theorem step {workshop' : Workshop} (h : workshop.Kept) (hstep : Step config workshop workshop') :
    workshop'.Kept := by
  cases hstep with
  | ask reference =>
    refine h.of_tasks (List.forall_mem_append.2 ⟨h.has, ?_⟩) (by simp [Task.ids, Task.files,
      Task.get, Phase.open?])
    intro task htask block hhas
    cases List.mem_singleton.1 htask
    cases hhas with
    | reference file localName hfile hin => cases hfile
    | answer hphase => cases hphase
  | submit sheet identifier name =>
    refine h.of_opened (List.forall_mem_append.2 ⟨h.has, ?_⟩) ?_
    · intro task htask block hhas
      cases List.mem_singleton.1 htask
      cases hhas with
      | reference file localName hfile hin =>
        cases List.mem_singleton.1 hfile
        cases hin
      | answer hphase => cases hphase
    · rw [List.flatMap_append]
      exact List.perm_append_singleton _ _
  | work me library task task' hme hstep => exact h.work hme (Task.move_of_step? hstep)
  | tick me task hme =>
    obtain ⟨front, back, htasks, hset⟩ := Task.exists_set_eq hme task.tick
    refine h.of_tasks (fun other hother block hhas => ?_) ?_
    · rcases List.mem_or_eq_of_mem_set hother with hother | rfl
      · exact h.has other hother block hhas
      · exact h.has task (List.mem_of_getElem? hme) block hhas.of_tick
    · rw [hset, htasks]
      simp
  -- Tasks that are left take their ids out of use, and the blocks stay.
  | leave => exact h.of_tasks (by simp) (List.nil_sublist _)

end Kept

/-- The log is right in every workshop that can come about. The induction is on the
history, and each kind of step has been dealt with before. -/
theorem kept_of_reachable {config : Config} {workshop : Workshop} (h : Reachable config workshop) :
    workshop.Kept := by
  induction h with
  | refl => exact kept_start
  | tail _ hstep ih => exact ih.step hstep

/-! ### Operations -/

variable {config : Config}

/-- What happens in a session happens in a workshop. The log grows by what is
registered. -/
theorem steps_of_session {session session' : Session} (h : Session.Step config session session')
    (registered : List Block) :
    ∃ registered', ReflTransGen (Step config) ⟨session.library, session.tasks, registered⟩
      ⟨session'.library, session'.tasks, registered'⟩ := by
  cases h with
  | ask reference =>
    have hstep : Step config _ _ := .ask ⟨session.library, session.tasks, registered⟩ reference
    refine ⟨registered, .single ?_⟩
    simpa [Session.tasks] using hstep
  | work me reference library task task' hme hwork =>
    have hstep : Step config _ _ := .work ⟨session.library, session.tasks, registered⟩ me library
      task task' (Session.getElem?_tasks hme) hwork
    refine ⟨registered ++ session.library.newBlocks library, .single ?_⟩
    rw [Session.tasks_update]
    exact hstep
  | tick me reference task hme =>
    have hstep : Step config _ _ := .tick ⟨session.library, session.tasks, registered⟩ me task
      (Session.getElem?_tasks hme)
    refine ⟨registered, .single ?_⟩
    rw [Session.tasks_update]
    exact hstep
  -- Answers are no part of a workshop, so its tasks simply leave.
  | settle hanswered => exact ⟨registered, .single (.leave _)⟩

/-- Any run of a session happens in a workshop, one step after the other. What holds
of all reachable workshops can be carried over to sessions in this way. -/
theorem steps_of_steps {session session' : Session}
    (h : ReflTransGen (Session.Step config) session session') (registered : List Block) :
    ∃ registered', ReflTransGen (Step config) ⟨session.library, session.tasks, registered⟩
      ⟨session'.library, session'.tasks, registered'⟩ := by
  induction h with
  | refl => exact ⟨registered, .refl⟩
  | tail _ hstep ih =>
    obtain ⟨middle, hmiddle⟩ := ih
    obtain ⟨registered', hlast⟩ := steps_of_session hstep middle
    exact ⟨registered', hmiddle.trans hlast⟩

/-- Tasks that run together take steps in a workshop, whatever they work on. A session
is made of them by giving each some reference, which plays no part in what tasks do. -/
theorem Reachable.run {library : Library} {tasks : List Task} {registered : List Block}
    (h : Reachable config ⟨library, tasks, registered⟩) :
    ∃ registered', Reachable config
      ⟨(Library.run config library tasks).1, (Library.run config library tasks).2,
        registered'⟩ := by
  have htasks : (tasks.map fun task => ("", task)).map Prod.snd = tasks := by
    rw [List.map_map]
    exact List.map_id tasks
  -- The run is known for sessions, and the references drop out again behind it.
  have hsteps : ReflTransGen (Session.Step config) _ _ :=
    Session.steps_run library (tasks.map fun task => ("", task)) []
  rw [htasks] at hsteps
  obtain ⟨registered', hrun⟩ := steps_of_steps hsteps registered
  have hlength : (Library.run config library tasks).2.length = tasks.length :=
    Library.length_run config library tasks
  have hlast : (((tasks.map fun task => ("", task)).map Prod.fst).zip
      (Library.run config library tasks).2).map Prod.snd = (Library.run config library tasks).2 :=
    List.map_snd_zip (by simp [hlength])
  rw [Session.tasks, Session.tasks, htasks, hlast] at hrun
  exact ⟨registered', h.trans hrun⟩

end Workshop

namespace Library

/-- The library has come about by operations of which none is under way any more. -/
def Made (config : Config) (library : Library) : Prop :=
  ∃ registered, Workshop.Reachable config ⟨library, [], registered⟩

namespace Made

variable {config : Config} {library : Library}

/-- An empty library has come about by nothing. -/
theorem empty : Made config .empty :=
  ⟨[], .refl⟩

/-- Loading files together, in whatever order they are asked for. The requests are
made, the tasks run until all have answers, and then they leave. -/
theorem getAll (h : library.Made config) (references : List String) :
    (library.getAll config references).1.Made config := by
  obtain ⟨registered, hreachable⟩ := h
  obtain ⟨asked, hasked⟩ := Workshop.steps_of_steps
    (Session.steps_ask library [] [] references) registered
  have htasks : (references.map fun reference => (reference, Task.get config reference)).map
      Prod.snd = references.map (Task.get config) := by simp
  rw [List.nil_append, Session.tasks, Session.tasks, htasks] at hasked
  obtain ⟨registered', hrun⟩ := Workshop.Reachable.run (hreachable.trans hasked)
  exact ⟨registered', hrun.tail (.leave _)⟩

/-- Loading one file is loading a list of one. -/
theorem get (h : library.Made config) (reference : String) :
    (library.get config reference).1.Made config := by
  rw [Library.get_eq_getAll]
  exact h.getAll [reference]

/-- Adding a stylesheet is handing it in and letting its task run. The task may load
files that the sheet refers to, so this is a run and not one step. -/
theorem addSheet (h : library.Made config) (sheet : Stylesheet) (identifier name : String) :
    (library.addSheet config sheet identifier name).1.Made config := by
  obtain ⟨registered, hreachable⟩ := h
  have hsubmitted : Workshop.Reachable config _ :=
    hreachable.tail (.submit _ sheet identifier name)
  obtain ⟨registered', hrun⟩ := hsubmitted.run
  exact ⟨registered', hrun.tail (.leave _)⟩

/-- Adding a source is adding the stylesheet that is read from it. A source that
cannot be read changes nothing. -/
theorem addSource (h : library.Made config) (source identifier name : String) :
    (library.addSource config source identifier name).1.Made config := by
  unfold Library.addSource
  split
  · exact h.addSheet _ identifier name
  · exact h

end Made

end Library

end BlockStyles
