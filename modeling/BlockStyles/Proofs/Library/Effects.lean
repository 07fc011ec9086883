import BlockStyles.Library.Weight
import BlockStyles.Proofs.Library.Lines

/-!
# `BlockStyles.Proofs.Library.Effects`: what a step does to blocks

Of all that a step can do little matters for the blocks of a library. Either it only passes
on blocks that are known already, or it opens a file under the next id, or it finishes a file and
registers its block. This is so for files that fill a slot and for stylesheets that do not.

* `Task.Move.same_or_built`: only finishing a file changes what blocks there are.
* `Task.Effect`: the three kinds of steps.
* `Task.Move.effect`: every step is of one of these kinds.
-/

set_option autoImplicit false

namespace BlockStyles

/-- The block is there for whoever looks its file up, by the table of identifiers or
in a slot. These are the two places where a request looks. -/
inductive Library.Offers (library : Library) (block : Block) : Prop where
  | bound (identifier : String) (h : library.blockFor? identifier = some block)
  | slot (identifier : String) (h : (library.slot identifier).block = some block)

/-- The task has been given the block, as a reference or as an answer. -/
inductive Task.Has (task : Task) (block : Block) : Prop where
  | reference (file : OpenFile) (localName : String) (hfile : file ∈ task.files)
      (h : (localName, block) ∈ file.references)
  | answer (h : task.phase = .returning (.ok block))

/-- A library has a block more. It may be in the slot of its file too, which depends
on whether the file fills one. So of the slots only this much is said. -/
structure Library.Registers (library library' : Library) (block : Block) : Prop where
  finished : library'.finished = (library.register block).finished
  bound : library'.bound = (library.register block).bound
  nextId : library'.nextId = library.nextId
  slot : ∀ f b, (library'.slot f).block = some b → b = block ∨ (library.slot f).block = some b

namespace Task

/-- The ids of the files that the task has open. -/
def ids (task : Task) : List Nat :=
  task.files.map OpenFile.id

/-- What a step does to blocks. -/
inductive Effect (library : Library) (task : Task) (library' : Library) (task' : Task) : Prop where
  /-- Blocks are passed on, and files may be given up. -/
  | quiet (hsame : library.SameBlocks library') (hids : task'.ids.Sublist task.ids)
      (hhas : ∀ block, task'.Has block → task.Has block ∨ library.Offers block)
  /-- A file is opened under the next id. -/
  | opens (hlibrary : library' = { library with nextId := library.nextId + 1 })
      (hids : task'.ids = library.nextId :: task.ids)
      (hhas : ∀ block, task'.Has block → task.Has block)
  /-- The innermost file is finished. -/
  | finishes (file : OpenFile) (block : Block)
      (hbuilt : Block.ofRules file.id file.name file.identifier file.references file.rules
        = .ok block)
      (hregisters : library.Registers library' block) (hids : task.ids = file.id :: task'.ids)
      (hreferences : ∀ reference ∈ file.references, task.Has reference.2)
      (hhas : ∀ other, task'.Has other → other = block ∨ task.Has other)

variable {config : Config} {me : TaskId} {library library' : Library} {task task' : Task}
  {waiting : List WaitingFile} {phase phase' : Phase}

/-- A round of a delay opens and closes no file. A file that waits for its delay has
not been opened yet. -/
@[simp]
theorem ids_tick (task : Task) : task.tick.ids = task.ids := by
  obtain ⟨waiting, phase⟩ := task
  cases phase with
  | importing request delay => cases delay <;> rfl
  | _ => rfl

/-- Nothing is passed on while a delay goes by. Blocks that a task has are those that
its files refer to and that it brings as an answer. -/
theorem Has.of_tick {block : Block} (h : task.tick.Has block) : task.Has block := by
  obtain ⟨waiting, phase⟩ := task
  cases phase with
  | importing request delay =>
    cases delay with
    | zero => exact h
    | succ delay =>
      cases h with
      | reference file localName hfile hin => exact .reference file localName hfile hin
      | answer hphase => cases hphase
  | _ => exact h

/-- A task that has no other files than before has no other references. It must not
have got a new answer, though. -/
theorem Has.of_files {block : Block} (h : task'.Has block)
    (hfiles : ∀ file ∈ task'.files, file ∈ task.files)
    (hanswer : task'.phase ≠ .returning (.ok block)) : task.Has block := by
  cases h with
  | reference file localName hfile hin => exact .reference file localName (hfiles file hfile) hin
  | answer hphase => exact absurd hphase hanswer

/-- No file is opened or changed, and an answer is a block that is offered. The
innermost file may be gone; those that wait are the same. -/
theorem Effect.of_phase (hsame : library.SameBlocks library') (hopen : phase'.open? = none)
    (hanswer : ∀ block, phase' = .returning (.ok block) → library.Offers block) :
    Effect library ⟨waiting, phase⟩ library' ⟨waiting, phase'⟩ := by
  have hfiles : Task.files ⟨waiting, phase'⟩ = waiting.map (·.file) := by
    rw [files, hopen]
    rfl
  refine .quiet hsame ?_ fun block h => ?_
  · rw [ids, hfiles]
    exact (List.sublist_append_right _ _).map _
  · cases h with
    | reference file localName hfile hin =>
      rw [hfiles] at hfile
      exact .inl (.reference file localName (List.mem_append_right _ hfile) hin)
    | answer hphase => exact .inr (hanswer block hphase)

/-- The innermost file is the same but for its references, which the task has been
given. The others are the same altogether. -/
theorem Effect.of_file {file after : OpenFile} {others : List OpenFile}
    (hfiles : task.files = file :: others) (hfiles' : task'.files = after :: others)
    (hid : after.id = file.id) (hreferences : ∀ reference ∈ after.references, task.Has reference.2)
    (hanswer : ∀ block, task'.phase ≠ .returning (.ok block)) :
    Effect library task library task' := by
  refine .quiet .refl ?_ fun block h => .inl ?_
  · rw [ids, ids, hfiles, hfiles', List.map_cons, List.map_cons, hid]
  · cases h with
    | reference f localName hf hin =>
      rw [hfiles'] at hf
      rcases List.mem_cons.1 hf with rfl | hf
      · exact hreferences _ hin
      · exact .reference f localName (hfiles ▸ List.mem_cons_of_mem _ hf) hin
    | answer hphase => exact absurd hphase (hanswer block)

/-- A finished block is registered, whether or not it goes into a slot. Of the slots
only the one of the file can change. -/
theorem registers_close (library : Library) (waiting : List WaitingFile) (file : OpenFile)
    (block : Block) :
    library.Registers ((library.register block).close waiting file (.ok block)) block := by
  by_cases hfills : file.fillsSlot
  · have hsame := (library.register block).sameBlocks_close_ok waiting hfills block
    refine ⟨hsame.finished, hsame.bound, hsame.nextId, fun f b hb => ?_⟩
    rw [hsame.slot, Library.slot_fill] at hb
    split at hb
    · exact .inl (Option.some.inj hb).symm
    · exact .inr hb
  · rw [Library.close, if_neg hfills]
    exact ⟨rfl, rfl, rfl, fun f b hb => .inr hb⟩

/-- A step leaves the finished blocks alone, or it finishes a file and registers its
block. The steps that change slots without changing the blocks in them are told apart
by `SameBlocks`. -/
theorem Move.same_or_built (hmove : Move config me library task library' task') :
    (library'.finished = library.finished
        ∧ ∀ f, (library'.slot f).block = (library.slot f).block)
      ∨ ∃ (waiting : List WaitingFile) (file : OpenFile) (block : Block),
        task = ⟨waiting, .compiling file⟩ ∧ task' = ⟨waiting, .returning (.ok block)⟩
          ∧ file.pending = []
          ∧ Block.ofRules file.id file.name file.identifier file.references file.rules = .ok block
          ∧ library' = (library.register block).close waiting file (.ok block) := by
  -- Most steps change slots only in what does not belong to blocks.
  have hquiet : library.SameBlocks library' → library'.finished = library.finished
      ∧ ∀ f, (library'.slot f).block = (library.slot f).block :=
    fun hsame => ⟨hsame.finished, hsame.slot⟩
  cases hmove with
  | found waiting request =>
    have hwaits := library.sameBlocks_waitFor waiting request.target
    exact .inl (hquiet (hwaits.trans (Library.sameBlocks_release _ waiting)))
  | takes waiting request =>
    have hwaits := library.sameBlocks_waitFor waiting request.target
    exact .inl (hquiet (hwaits.trans (Library.sameBlocks_setSlot _ _ rfl)))
  | queues waiting request =>
    have hwaits := library.sameBlocks_waitFor waiting request.target
    exact .inl (hquiet (hwaits.trans (Library.sameBlocks_setSlot _ _ rfl)))
  | served waiting request => exact .inl (hquiet (library.sameBlocks_release waiting))
  | unreadable waiting request =>
    have hgiven := library.sameBlocks_handOver request.target
    exact .inl (hquiet (hgiven.trans (Library.sameBlocks_release _ waiting)))
  | faulty waiting file error =>
    exact .inl (hquiet (library.sameBlocks_close_error waiting file error))
  | lost waiting below error =>
    exact .inl (hquiet (library.sameBlocks_close_error waiting below.file error))
  | built waiting file block hpending hbuilt =>
    exact .inr ⟨waiting, file, block, rfl, rfl, hpending, hbuilt, rfl⟩
  | _ => exact .inl ⟨rfl, fun _ => rfl⟩

/-- Every step is of one of the three kinds. Most of them only change the phase; what
is passed on is then a block that was bound or in a slot. -/
theorem Move.effect (hmove : Move config me library task library' task') :
    Effect library task library' task' := by
  cases hmove with
  | refused waiting request cause => exact .of_phase .refl rfl nofun
  | known waiting request block hnew hdepth hbound =>
    refine .of_phase .refl rfl fun b hb => ?_
    cases hb
    exact .bound _ hbound
  -- Beginning to wait and giving it up again does not change what is in slots.
  | found waiting request block hclaims hblock =>
    have hwaits := library.sameBlocks_waitFor waiting request.target
    refine .of_phase (hwaits.trans (Library.sameBlocks_release _ waiting)) rfl fun b hb => ?_
    cases hb
    exact .slot _ (hwaits.slot _ ▸ hblock)
  | takes waiting request =>
    have hwaits := library.sameBlocks_waitFor waiting request.target
    exact .of_phase (hwaits.trans (Library.sameBlocks_setSlot _ _ rfl)) rfl nofun
  | queues waiting request =>
    have hwaits := library.sameBlocks_waitFor waiting request.target
    exact .of_phase (hwaits.trans (Library.sameBlocks_setSlot _ _ rfl)) rfl nofun
  | served waiting request block hblock =>
    refine .of_phase (library.sameBlocks_release waiting) rfl fun b hb => ?_
    cases hb
    exact .slot _ hblock
  | called waiting request => exact .of_phase .refl rfl nofun
  | unreadable waiting request =>
    have hgiven := library.sameBlocks_handOver request.target
    exact .of_phase (hgiven.trans (Library.sameBlocks_release _ waiting)) rfl nofun
  | opened waiting request source sheet =>
    refine .opens rfl rfl fun block h => ?_
    cases h with
    | reference file localName hfile hin =>
      rcases List.mem_cons.1 hfile with rfl | hfile
      -- The new file has no references yet.
      · cases hin
      · exact .reference file localName hfile hin
    | answer hphase => cases hphase
  | skipped waiting file atRule pending =>
    exact .of_file rfl rfl rfl
      (fun reference hin => .reference file reference.1 List.mem_cons_self hin) nofun
  | refers waiting file after localName request hrefers =>
    cases hrefers with
    | intro atRule pending reference =>
      exact .of_file rfl rfl rfl
        (fun reference hin => .reference file reference.1 List.mem_cons_self hin) nofun
  | faulty waiting file error =>
    exact .of_phase (library.sameBlocks_close_error waiting file error) rfl nofun
  -- The references of the finished file become those of its block, and the block is the
  -- answer.
  | built waiting file block hpending hbuilt =>
    refine .finishes file block hbuilt (registers_close library waiting file block) rfl
      (fun reference hin => .reference file reference.1 List.mem_cons_self hin) fun other h => ?_
    cases h with
    | reference f localName hf hin =>
      exact .inr (.reference f localName (List.mem_cons_of_mem _ hf) hin)
    | answer hphase =>
      cases hphase
      exact .inl rfl
  -- The new reference is the answer that the task has brought.
  | gained waiting below block =>
    refine .of_file rfl rfl rfl (fun reference hin => ?_) nofun
    rcases List.mem_append.1 hin with hin | hin
    · exact .reference below.file reference.1 List.mem_cons_self hin
    · cases List.mem_singleton.1 hin
      exact .answer rfl
  | lost waiting below error =>
    refine .quiet (library.sameBlocks_close_error waiting below.file error)
      (List.sublist_cons_self _ _) fun block h => .inl ?_
    exact h.of_files (fun file hfile => List.mem_cons_of_mem _ hfile) nofun

end Task

end BlockStyles
