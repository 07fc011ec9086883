import BlockStyles.Proofs.Library.Effects
import BlockStyles.Proofs.Library.Origins
import BlockStyles.Proofs.Library.Progress

/-!
# `BlockStyles.Proofs.Library.Arena`: every file becomes one block at most

A block is registered when its file has been compiled, and a file is compiled by
the task that fills its slot. `Arena` says that the slots, the identifiers and the
ids agree on the registered blocks: the block in the slot of a file is the one that
is bound to the identifier, and the only one of this identifier. Files that are open
have ids that no block has. And whatever is passed on, to a file that refers
to it or to whoever has asked for it, is registered.

* `Arena.of_same`, `Arena.of_file`, `Arena.opened`, `Arena.built`: the four kinds of moves.
  Most change nothing that is spoken of here, an at-rule adds a reference to a file, a file
  gets the next id, and a file that has been finished gets its block.
* `Arena.step`: a step keeps this.
* `Session.one_block_per_file`: in every reachable session there is at most one
  block for each file, and all answers and references are such blocks.
* `Session.blocks_keep`: what holds of every block when it is built holds of all that are
  registered.
-/

set_option autoImplicit false

namespace BlockStyles

/-- A step leaves the registered blocks alone, or it finishes a file and registers its
block. Closing the file afterwards only touches slots. -/
theorem Task.Move.blocks {config : Config} {me : TaskId} {library library' : Library}
    {task task' : Task} (hmove : Task.Move config me library task library' task') :
    library'.blocks = library.blocks
      ∨ ∃ (waiting : List WaitingFile) (file : OpenFile) (block : Block),
        task = ⟨waiting, .compiling file⟩ ∧ file.pending = []
          ∧ Block.ofRules file.id file.name file.identifier file.references file.rules = .ok block
          ∧ library'.blocks = (library.register block).blocks := by
  rcases hmove.same_or_built with
    ⟨hsame, -⟩ | ⟨waiting, file, block, rfl, -, hpending, hbuilt, rfl⟩
  · exact .inl (congrArg SortedList.toList hsame)
  · have hregisters := registers_close library waiting file block
    exact .inr ⟨waiting, file, block, rfl, hpending, hbuilt,
      congrArg SortedList.toList hregisters.finished⟩

/-- The registered blocks are one for each file at most, and nothing else is passed
on. The slots, the table of identifiers and the log of blocks say the same thing in
three ways; `bound` and `slot` tie them together. -/
structure Arena (config : Config) (library : Library) (tasks : List Task) : Prop where
  bound : ∀ f, library.blockFor? f = (library.slot f).block
  /-- The block in the slot of a file is the registered block of the file. -/
  slot : ∀ f block,
    (library.slot f).block = some block ↔ block ∈ library.blocks ∧ block.identifier = f
  ids : ∀ block ∈ library.blocks, block.id < library.nextId
  /-- Open files have ids that have been given out and that no block has. -/
  open_ids : ∀ (i : TaskId) (task : Task), tasks[i]? = some task → ∀ file ∈ task.files,
    file.id < library.nextId ∧ ∀ block ∈ library.blocks, block.id ≠ file.id
  /-- Different files are open under different ids. -/
  distinct : ∀ (i j : TaskId) (task other : Task), tasks[i]? = some task →
    tasks[j]? = some other → ∀ file ∈ task.files, ∀ file' ∈ other.files,
      file.id = file'.id → file.identifier = file'.identifier
  /-- Only registered blocks become references. -/
  referred : ∀ (i : TaskId) (task : Task), tasks[i]? = some task → ∀ file ∈ task.files,
    ∀ reference ∈ file.references, reference.2 ∈ library.blocks
  /-- Only registered blocks are answers. -/
  returned : ∀ (i : TaskId) (task : Task), tasks[i]? = some task → ∀ block,
    task.phase = .returning (.ok block) → block ∈ library.blocks
  /-- The references of registered blocks are registered. -/
  closed : ∀ block ∈ library.blocks, ∀ reference ∈ block.references,
    reference.2 ∈ library.blocks
  /-- The references of a block are those that its source makes. -/
  written : ∀ block ∈ library.blocks,
    block.references.map (fun (name, target) => (name, target.identifier))
      = config.referencesOf block.identifier
  /-- A base is one of the references. -/
  base : ∀ block ∈ library.blocks, ∀ base, block.base = some base →
    ∃ localName, (localName, base) ∈ block.references

namespace Arena

variable {config : Config} {library library' : Library} {tasks : List Task} {me : TaskId}
  {task task' : Task}

/-- What is bound to an identifier, or is in its slot, is a block of this identifier.
This is the part of the arena that does not speak of tasks. -/
theorem named (h : Arena config library tasks) : library.Named where
  bound f block hblock := ((h.slot f block).1 (h.bound f ▸ hblock)).2
  slot f block hblock := ((h.slot f block).1 hblock).2

/-- There are no two registered blocks of one identifier. Both would be in its slot. -/
theorem eq_of_identifier (h : Arena config library tasks) {block block' : Block}
    (hblock : block ∈ library.blocks) (hblock' : block' ∈ library.blocks)
    (hsame : block.identifier = block'.identifier) : block = block' := by
  have hslot := (h.slot _ block).2 ⟨hblock, rfl⟩
  have hslot' := (h.slot _ block').2 ⟨hblock', rfl⟩
  rw [hsame, hslot'] at hslot
  exact (Option.some.inj hslot).symm

/-- There are no two registered blocks of one id. The blocks are kept in a table that
has one entry for each id. -/
theorem eq_of_id {block block' : Block} (hblock : block ∈ library.blocks)
    (hblock' : block' ∈ library.blocks) (hsame : block.id = block'.id) : block = block' :=
  library.finished.eq_of_key_eq hblock hblock' hsame

/-! ### Steps -/

/-- Nothing changes as long as no file is opened and none is finished. The task may
pass on registered blocks, and give up files, but the files that it has left are those
that it had. -/
theorem of_same (h : Arena config library tasks) (hme : tasks[me]? = some task)
    (hsame : library.SameBlocks library')
    (hfiles : ∀ file' ∈ task'.files,
      ∃ file ∈ task.files, file'.id = file.id ∧ file'.identifier = file.identifier)
    (hreferred : ∀ file' ∈ task'.files, ∀ reference ∈ file'.references,
      reference.2 ∈ library.blocks)
    (hreturned : ∀ block, task'.phase = .returning (.ok block) → block ∈ library.blocks) :
    Arena config library' (tasks.set me task') := by
  have hset := Task.getElem?_set_self task' hme
  have hblocks : library'.blocks = library.blocks := hsame.blocks
  -- Every open file has the id and the identifier of one that was open before.
  have hbefore : ∀ {i : TaskId} {t : Task}, (tasks.set me task')[i]? = some t →
      ∀ file ∈ t.files, ∃ (j : TaskId) (u : Task), tasks[j]? = some u ∧
        ∃ file' ∈ u.files, file.id = file'.id ∧ file.identifier = file'.identifier := by
    intro i t ht file hfile
    rw [hset] at ht
    split at ht
    · cases ht
      obtain ⟨file', hfile', hid, hidentifier⟩ := hfiles file hfile
      exact ⟨me, task, hme, file', hfile', hid, hidentifier⟩
    · exact ⟨i, t, ht, file, hfile, rfl, rfl⟩
  -- What is said about open files goes back by `hbefore`, and what is said about blocks by `hsame`.
  constructor
  case bound => exact fun f => by rw [hsame.blockFor?, hsame.slot, h.bound]
  case slot => exact fun f block => by rw [hsame.slot, hblocks, h.slot]
  case ids => exact fun block hblock => hsame.nextId ▸ h.ids block (hblocks ▸ hblock)
  case open_ids =>
    intro i t ht file hfile
    obtain ⟨j, u, hu, file', hfile', hid, -⟩ := hbefore ht file hfile
    rw [hsame.nextId, hblocks, hid]
    exact h.open_ids j u hu file' hfile'
  case distinct =>
    intro i j t u ht hu file hfile file' hfile' heq
    obtain ⟨_, _, ht₀, file₀, hfile₀, hid, hidentifier⟩ := hbefore ht file hfile
    obtain ⟨_, _, hu₀, file₁, hfile₁, hid', hidentifier'⟩ := hbefore hu file' hfile'
    rw [hidentifier, hidentifier']
    exact h.distinct _ _ _ _ ht₀ hu₀ file₀ hfile₀ file₁ hfile₁ (hid ▸ hid' ▸ heq)
  case referred =>
    intro i t ht
    rw [hset] at ht
    rw [hblocks]
    split at ht
    · cases ht
      exact hreferred
    · exact h.referred i t ht
  case returned =>
    intro i t ht
    rw [hset] at ht
    rw [hblocks]
    split at ht
    · cases ht
      exact hreturned
    · exact h.returned i t ht
  case closed => exact hblocks.symm ▸ h.closed
  case written => exact hblocks.symm ▸ h.written
  case base => exact hblocks.symm ▸ h.base

/-- Nothing changes, either, when a file is the same but for its references, which are
registered. This is what happens when an at-rule is passed or a reference is answered. -/
theorem of_file (h : Arena config library tasks) (hme : tasks[me]? = some task)
    {file after : OpenFile} {others : List OpenFile} (hfiles : task.files = file :: others)
    (hfiles' : task'.files = after :: others) (hid : after.id = file.id)
    (hidentifier : after.identifier = file.identifier)
    (hreferred : ∀ reference ∈ after.references, reference.2 ∈ library.blocks)
    (hreturned : ∀ block, task'.phase ≠ .returning (.ok block)) :
    Arena config library (tasks.set me task') := by
  have hold := h.referred me task hme
  rw [hfiles] at hold
  -- What is new in the files is at the innermost one; the others have been there.
  refine h.of_same hme .refl (fun f hf => ?_) (fun f hf => ?_)
    fun block hphase => absurd hphase (hreturned block)
  · rw [hfiles'] at hf
    rw [hfiles]
    rcases List.mem_cons.1 hf with rfl | hf
    · exact ⟨file, List.mem_cons_self, hid, hidentifier⟩
    · exact ⟨f, List.mem_cons_of_mem _ hf, rfl, rfl⟩
  · rw [hfiles'] at hf
    rcases List.mem_cons.1 hf with rfl | hf
    · exact hreferred
    · exact hold f (List.mem_cons_of_mem _ hf)

/-- A file is opened under the next id. No block and no open file can have it, since
all ids that have been given out are lower. -/
theorem opened (h : Arena config library tasks) (hme : tasks[me]? = some task)
    {file : OpenFile} (hid : file.id = library.nextId) (hreferences : file.references = [])
    (hfiles : task'.files = file :: task.files)
    (hreturned : ∀ block, task'.phase ≠ .returning (.ok block)) :
    Arena config { library with nextId := library.nextId + 1 } (tasks.set me task') := by
  have hset := Task.getElem?_set_self task' hme
  -- An open file was open before, or it is the new one.
  have hbefore : ∀ {i : TaskId} {t : Task}, (tasks.set me task')[i]? = some t →
      ∀ f ∈ t.files, f = file ∨ ∃ (j : TaskId) (u : Task), tasks[j]? = some u ∧ f ∈ u.files := by
    intro i t ht f hf
    rw [hset] at ht
    split at ht
    · cases ht
      rw [hfiles] at hf
      exact (List.mem_cons.1 hf).imp id fun hf => ⟨me, task, hme, hf⟩
    · exact .inr ⟨i, t, ht, hf⟩
  -- All ids that have been given out are below the next one.
  have hnew : ∀ {j : TaskId} {u : Task}, tasks[j]? = some u → ∀ f ∈ u.files, f.id ≠ file.id :=
    fun hu f hf hsame => Nat.ne_of_lt (h.open_ids _ _ hu f hf).1 (hsame.trans hid)
  constructor
  case bound => exact h.bound
  case slot => exact h.slot
  case ids => exact fun block hblock => Nat.lt_succ_of_lt (h.ids block hblock)
  case open_ids =>
    intro i t ht f hf
    rcases hbefore ht f hf with rfl | ⟨j, u, hu, hf⟩
    · exact ⟨hid ▸ Nat.lt_succ_self _, fun block hblock => hid ▸ Nat.ne_of_lt (h.ids block hblock)⟩
    · obtain ⟨hlt, hne⟩ := h.open_ids j u hu f hf
      exact ⟨Nat.lt_succ_of_lt hlt, hne⟩
  case distinct =>
    intro i j t u ht hu f hf g hg hsame
    -- Two files of one id are both new or both old, since the new one has an id of its own.
    rcases hbefore ht f hf with rfl | ⟨_, _, ht, hf⟩
    · rcases hbefore hu g hg with rfl | ⟨_, _, hu, hg⟩
      · rfl
      · exact absurd hsame.symm (hnew hu g hg)
    · rcases hbefore hu g hg with rfl | ⟨_, _, hu, hg⟩
      · exact absurd hsame (hnew ht f hf)
      · exact h.distinct _ _ _ _ ht hu f hf g hg hsame
  case referred =>
    intro i t ht f hf reference hreference
    rcases hbefore ht f hf with rfl | ⟨j, u, hu, hf⟩
    · rw [hreferences] at hreference
      cases hreference
    · exact h.referred j u hu f hf reference hreference
  case returned =>
    intro i t ht block hphase
    rw [hset] at ht
    split at ht
    · cases ht
      exact absurd hphase (hreturned block)
    · exact h.returned i t ht block hphase
  case closed => exact h.closed
  case written => exact h.written
  case base => exact h.base

/-- The block of an open file is new among the registered ones. Registering a block
replaces one of the same id, but here there is none. -/
theorem mem_blocks_register (h : Arena config library tasks) (hme : tasks[me]? = some task)
    {file : OpenFile} (hfile : file ∈ task.files) {block b : Block} (hid : block.id = file.id) :
    b ∈ (library.register block).blocks ↔ b = block ∨ b ∈ library.blocks := by
  -- No block is replaced, since none has the id of an open file.
  rw [Library.mem_blocks_register]
  refine or_congr_right ⟨And.left, fun hb => ⟨hb, ?_⟩⟩
  exact hid ▸ (h.open_ids me task hme file hfile).2 b hb

/-- No block has the identifier of a file that is being compiled. The slot of the file
has no block as long as a task holds the file, and a block of this identifier would be
in it. -/
theorem identifier_ne (h : Arena config library tasks) (hlines : Lines library tasks)
    {waiting : List WaitingFile} {file : OpenFile}
    (hme : tasks[me]? = some ⟨waiting, .compiling file⟩) :
    ∀ block ∈ library.blocks, block.identifier ≠ file.identifier := by
  intro block hblock hsame
  have hempty : (library.slot file.identifier).block = none :=
    hlines.block_eq_none (hlines.holder _ me _ hme List.mem_cons_self)
  rw [(h.slot _ block).2 ⟨hblock, hsame⟩] at hempty
  cases hempty

/-- When a file has been finished, those that are still open were open before, under
other ids. So the id of the new block is not among the ids of open files any more. -/
theorem still_open (h : Arena config library tasks) (hlines : Lines library tasks)
    {waiting : List WaitingFile} {file : OpenFile} {answer : Except Error Block}
    (hme : tasks[me]? = some ⟨waiting, .compiling file⟩) {i : TaskId} {t : Task}
    (ht : (tasks.set me ⟨waiting, .returning answer⟩)[i]? = some t) :
    ∀ f ∈ t.files, f.id ≠ file.id ∧ ∃ u : Task, tasks[i]? = some u ∧ f ∈ u.files := by
  intro f hf
  have hfile : file ∈ Task.files ⟨waiting, .compiling file⟩ := List.mem_cons_self
  rw [Task.getElem?_set_self _ hme] at ht
  split at ht
  -- In the same task it is a file below, and no file is twice on one stack.
  · rename_i hi
    cases ht
    subst hi
    have hbelow : f ∈ Task.files ⟨waiting, .compiling file⟩ := List.mem_cons_of_mem _ hf
    refine ⟨fun hid => ?_, _, hme, hbelow⟩
    have hsame := h.distinct i i _ _ hme hme f hbelow file hfile hid
    refine (List.nodup_cons.1 (hlines.once i _ hme).1).1 (hsame ▸ ?_)
    obtain ⟨w, hw, rfl⟩ := List.mem_map.1 hf
    exact List.mem_map_of_mem hw
  -- In another task it is a different file, since no two tasks hold the same one.
  · rename_i hi
    refine ⟨fun hid => hi ?_, t, ht, hf⟩
    have hsame := h.distinct i me _ _ ht hme f hf file hfile hid
    have hheld : file.identifier ∈ t.held := hsame ▸ Task.mem_held_of_mem_files hf
    exact hlines.eq_of_mem_held ht hme hheld List.mem_cons_self

/-- A library has a block more, which is bound to its identifier and in the slot of
its file. Everything else is as before. -/
structure Gains (library library' : Library) (block : Block) : Prop where
  blocks : ∀ b, b ∈ library'.blocks ↔ b = block ∨ b ∈ library.blocks
  nextId : library'.nextId = library.nextId
  slot : ∀ f, (library'.slot f).block
    = if block.identifier = f then some block else (library.slot f).block
  blockFor : ∀ f, library'.blockFor? f
    = if block.identifier = f then some block else library.blockFor? f

/-- Registering the block of an open file and filling its slot adds this block, and
nothing else. That files are told to wait no longer does not matter for blocks. -/
theorem gains_close (h : Arena config library tasks) (hme : tasks[me]? = some task)
    {file : OpenFile} (hfile : file ∈ task.files) (hfills : file.fillsSlot) {block : Block}
    (hid : block.id = file.id) (hidentifier : block.identifier = file.identifier)
    (waiting : List WaitingFile) :
    Gains library ((library.register block).close waiting file (.ok block)) block := by
  have hsame := (library.register block).sameBlocks_close_ok waiting hfills block
  refine ⟨fun b => ?_, hsame.nextId, fun f => ?_, fun f => ?_⟩
  · rw [hsame.blocks]
    exact h.mem_blocks_register hme hfile hid
  · rw [hsame.slot, Library.slot_fill, hidentifier]
    by_cases hf : f = file.identifier
    · rw [if_pos hf, if_pos hf.symm]
    · rw [if_neg hf, if_neg (Ne.symm hf)]
      rfl
  · exact (hsame.blockFor? f).trans (Library.blockFor?_register library block f)

/-- One more block, of a file that has had none, of an id that has been given out, and
with references and a base as its source has them. The tasks are any whose open files
were open before under other ids, and whose answers are registered. -/
theorem of_gains {tasks' : List Task} (h : Arena config library tasks) {block : Block}
    (hgains : Gains library library' block) (hid : block.id < library.nextId)
    (hnew : ∀ b ∈ library.blocks, b.identifier ≠ block.identifier)
    (hreferences : ∀ reference ∈ block.references, reference.2 ∈ library.blocks)
    (hwritten : block.references.map (fun (name, target) => (name, target.identifier))
      = config.referencesOf block.identifier)
    (hbase : ∀ base, block.base = some base → ∃ localName, (localName, base) ∈ block.references)
    (hopen : ∀ (i : TaskId) (t : Task), tasks'[i]? = some t → ∀ f ∈ t.files,
      f.id ≠ block.id ∧ ∃ u : Task, tasks[i]? = some u ∧ f ∈ u.files)
    (hreturned : ∀ (i : TaskId) (t : Task), tasks'[i]? = some t → ∀ b,
      t.phase = .returning (.ok b) → b = block ∨ b ∈ library.blocks) :
    Arena config library' tasks' := by
  constructor
  case bound => exact fun f => by rw [hgains.blockFor, hgains.slot, h.bound]
  case slot =>
    intro f b
    rw [hgains.slot, hgains.blocks]
    split
    -- The slot has the new block, and no other one has its identifier.
    · rename_i hf
      subst hf
      constructor
      · rintro ⟨⟩
        exact ⟨.inl rfl, rfl⟩
      · rintro ⟨rfl | hb, hsame⟩
        · rfl
        · exact absurd hsame (hnew b hb)
    · rename_i hf
      rw [h.slot]
      refine and_congr_left fun hb => ⟨.inr, fun h => h.resolve_left ?_⟩
      rintro rfl
      exact hf hb
  case ids =>
    intro b hb
    rw [hgains.nextId]
    rcases (hgains.blocks b).1 hb with rfl | hb
    · exact hid
    · exact h.ids b hb
  case open_ids =>
    intro i t ht f hf
    obtain ⟨hne, u, hu, hf⟩ := hopen i t ht f hf
    obtain ⟨hlt, hothers⟩ := h.open_ids i u hu f hf
    refine ⟨hgains.nextId ▸ hlt, fun b hb => ?_⟩
    rcases (hgains.blocks b).1 hb with rfl | hb
    · exact hne.symm
    · exact hothers b hb
  case distinct =>
    intro i j t u ht hu f hf g hg hsame
    obtain ⟨-, t₀, ht₀, hf⟩ := hopen i t ht f hf
    obtain ⟨-, u₀, hu₀, hg⟩ := hopen j u hu g hg
    exact h.distinct i j t₀ u₀ ht₀ hu₀ f hf g hg hsame
  case referred =>
    intro i t ht f hf reference hreference
    obtain ⟨-, u, hu, hf⟩ := hopen i t ht f hf
    exact (hgains.blocks _).2 (.inr (h.referred i u hu f hf reference hreference))
  case returned => exact fun i t ht b hphase => (hgains.blocks b).2 (hreturned i t ht b hphase)
  -- The references of the new block were registered before it.
  case closed =>
    intro b hb reference hreference
    rw [hgains.blocks] at hb ⊢
    rcases hb with rfl | hb
    · exact .inr (hreferences reference hreference)
    · exact .inr (h.closed b hb reference hreference)
  case written =>
    intro b hb
    rcases (hgains.blocks b).1 hb with rfl | hb
    · exact hwritten
    · exact h.written b hb
  case base =>
    intro b hb
    rcases (hgains.blocks b).1 hb with rfl | hb
    · exact hbase
    · exact h.base b hb

/-- A file is finished, and its block goes into its slot. By `Block.ofRules_keeps` the
block has the id, the identifier and the references of the file, so what is known of
the file is known of the block. -/
theorem built (h : Arena config library tasks) (hlines : Lines library tasks)
    {waiting : List WaitingFile} {file : OpenFile} {block : Block}
    (hme : tasks[me]? = some ⟨waiting, .compiling file⟩) (hreads : file.Reads config)
    (hpending : file.pending = [])
    (hbuilt : Block.ofRules file.id file.name file.identifier file.references file.rules
      = .ok block) :
    Arena config ((library.register block).close waiting file (.ok block))
      (tasks.set me ⟨waiting, .returning (.ok block)⟩) := by
  have hfile : file ∈ Task.files ⟨waiting, .compiling file⟩ := List.mem_cons_self
  obtain ⟨hid, hidentifier, hreferences, hbase⟩ := Block.ofRules_keeps hbuilt
  replace hid : block.id = file.id := hid
  replace hidentifier : block.identifier = file.identifier := hidentifier
  replace hreferences : block.references = file.references := hreferences
  -- Its file had no block, as the task has been filling the slot.
  have hgains := h.gains_close hme hfile (hlines.fills me _ hme file hfile) hid hidentifier waiting
  refine h.of_gains hgains (hid ▸ (h.open_ids me _ hme file hfile).1)
    (hidentifier ▸ h.identifier_ne hlines hme) (hreferences ▸ h.referred me _ hme file hfile)
    ?_ (fun base hb => ?_) (fun i t ht f hf => hid ▸ h.still_open hlines hme ht f hf)
    fun i t ht b hphase => ?_
  -- All its at-rules have been looked at, so its references are all that its source makes.
  · obtain ⟨passed, hwritten, htargets⟩ := hreads.referencesOf
    rw [hreferences, hidentifier, hwritten, htargets, hpending]
    exact (List.append_nil _).symm
  · rcases hbase base hb with hnone | hin
    · cases hnone
    · exact hreferences ▸ hin
  · rw [Task.getElem?_set_self _ hme] at ht
    split at ht
    · cases ht
      cases hphase
      exact .inl rfl
    · exact .inr (h.returned i t ht b hphase)

/-- The end of the work on a file, for an error, changes nothing about blocks. The
files that are left to the task are those that waited. -/
theorem close_error (h : Arena config library tasks) (hme : tasks[me]? = some task)
    {file : OpenFile} {error : Error} {waiting : List WaitingFile}
    (hfiles : ∀ f ∈ waiting.map (·.file), f ∈ task.files) :
    Arena config (library.close waiting file (.error error))
      (tasks.set me ⟨waiting, .returning (.error error)⟩) := by
  exact h.of_same hme (library.sameBlocks_close_error waiting file error)
    (fun f hf => ⟨f, hfiles f hf, rfl, rfl⟩)
    (fun f hf => h.referred me task hme f (hfiles f hf)) (fun b hb => by cases hb)

/-- A step keeps the agreement of slots, identifiers and ids. Most steps only pass
blocks on or give files up; `opened` and `built` are the two that change something. -/
theorem step {first : Request} (h : Arena config library tasks) (hlines : Lines library tasks)
    (hme : tasks[me]? = some task) (hfrom : task.From config first)
    (hmove : Task.Move config me library task library' task') :
    Arena config library' (tasks.set me task') := by
  have hreferred := h.referred me task hme
  cases hmove with
  | refused waiting request cause =>
    exact h.of_same hme .refl (fun f hf => ⟨f, hf, rfl, rfl⟩) hreferred fun b hb => by cases hb
  -- What is bound is in the slot, and what is in a slot is registered.
  | known waiting request block _ _ hbound =>
    refine h.of_same hme .refl (fun f hf => ⟨f, hf, rfl, rfl⟩) hreferred fun b hb => ?_
    cases hb
    exact ((h.slot _ _).1 (h.bound _ ▸ hbound)).1
  | found waiting request block hclaims hblock =>
    have hwaits := library.sameBlocks_waitFor waiting request.target
    refine h.of_same hme (hwaits.trans (Library.sameBlocks_release _ waiting))
      (fun f hf => ⟨f, hf, rfl, rfl⟩) hreferred fun b hb => ?_
    cases hb
    exact ((h.slot _ _).1 (hwaits.slot _ ▸ hblock)).1
  | takes waiting request hclaims hblock hfiller =>
    have hwaits := library.sameBlocks_waitFor waiting request.target
    exact h.of_same hme (hwaits.trans (Library.sameBlocks_setSlot _ _ rfl))
      (fun f hf => ⟨f, hf, rfl, rfl⟩) hreferred fun b hb => by cases hb
  | queues waiting request other hclaims hblock hfiller =>
    have hwaits := library.sameBlocks_waitFor waiting request.target
    exact h.of_same hme (hwaits.trans (Library.sameBlocks_setSlot _ _ rfl))
      (fun f hf => ⟨f, hf, rfl, rfl⟩) hreferred fun b hb => by cases hb
  | served waiting request block hblock =>
    refine h.of_same hme (library.sameBlocks_release waiting) (fun f hf => ⟨f, hf, rfl, rfl⟩)
      hreferred fun b hb => ?_
    cases hb
    exact ((h.slot _ _).1 hblock).1
  | called waiting request =>
    exact h.of_same hme .refl (fun f hf => ⟨f, hf, rfl, rfl⟩) hreferred fun b hb => by cases hb
  | unreadable waiting request error =>
    have hgiven := library.sameBlocks_handOver request.target
    exact h.of_same hme (hgiven.trans (Library.sameBlocks_release _ waiting))
      (fun f hf => ⟨f, hf, rfl, rfl⟩) hreferred fun b hb => by cases hb
  -- A new file has no references yet.
  | opened waiting request source sheet =>
    exact h.opened hme rfl rfl rfl fun b hb => by cases hb
  | skipped waiting file atRule pending =>
    exact h.of_file hme rfl rfl rfl rfl (fun reference hr => hreferred file List.mem_cons_self _ hr)
      fun b hb => by cases hb
  | refers waiting file after localName request hrefers =>
    obtain ⟨atRule, pending, reference, -, -, -, -⟩ := hrefers
    exact h.of_file hme rfl rfl rfl rfl (fun reference hr => hreferred file List.mem_cons_self _ hr)
      fun b hb => by cases hb
  | faulty waiting file error =>
    exact h.close_error hme fun f hf => List.mem_cons_of_mem _ hf
  | built waiting file block hpending hbuilt =>
    obtain ⟨_, -, hreads, -⟩ := hfrom
    exact h.built hlines hme hreads hpending hbuilt
  -- The block that is handed down has been returned, so it is registered.
  | gained waiting below block =>
    have hblock := h.returned me _ hme block rfl
    refine h.of_file hme rfl rfl rfl rfl (fun reference hr => ?_) fun b hb => by cases hb
    rcases List.mem_append.1 hr with hr | hr
    · exact hreferred below.file List.mem_cons_self reference hr
    · exact List.mem_singleton.1 hr ▸ hblock
  | lost waiting below error =>
    exact h.close_error hme fun f hf => List.mem_cons_of_mem _ hf

/-- A registered block stays registered. A new block does not replace it, as the id of
an open file is the id of no block. -/
theorem mem_blocks_of_move (h : Arena config library tasks) (hme : tasks[me]? = some task)
    (hmove : Task.Move config me library task library' task') {block : Block}
    (hblock : block ∈ library.blocks) : block ∈ library'.blocks := by
  rcases hmove.blocks with hsame | ⟨_, _, _, rfl, -, hbuilt, hblocks⟩
  · exact hsame ▸ hblock
  · rw [hblocks, h.mem_blocks_register hme List.mem_cons_self (Block.ofRules_keeps hbuilt).id]
    exact .inr hblock

/-- Tasks that have no file open and have not got a block play no part. They may come
and go, as they do when a request is made and when a session is settled. -/
theorem of_tasks {tasks' : List Task} (h : Arena config library tasks)
    (htasks : ∀ (i : TaskId) (task : Task), tasks'[i]? = some task →
      tasks[i]? = some task ∨ task.files = [] ∧ ∀ block, task.phase ≠ .returning (.ok block)) :
    Arena config library tasks' := by
  -- A task that has a file open has been there before.
  have hbefore : ∀ {i : TaskId} {t : Task}, tasks'[i]? = some t → ∀ file ∈ t.files,
      tasks[i]? = some t := by
    intro i t ht file hfile
    rcases htasks i t ht with ht | ⟨hnone, -⟩
    · exact ht
    · rw [hnone] at hfile
      cases hfile
  constructor
  case bound => exact h.bound
  case slot => exact h.slot
  case ids => exact h.ids
  case open_ids => exact fun i t ht file hfile => h.open_ids i t (hbefore ht file hfile) file hfile
  case distinct =>
    intro i j t u ht hu file hfile file' hfile'
    exact h.distinct i j t u (hbefore ht file hfile) (hbefore hu file' hfile') file hfile file'
      hfile'
  case referred => exact fun i t ht file hfile => h.referred i t (hbefore ht file hfile) file hfile
  case returned =>
    intro i t ht block hphase
    rcases htasks i t ht with ht | ⟨-, hnone⟩
    · exact h.returned i t ht block hphase
    · exact absurd hphase (hnone block)
  case closed => exact h.closed
  case written => exact h.written
  case base => exact h.base

/-- An empty library without tasks has neither blocks nor files, so all of it holds. -/
theorem empty : Arena config .empty [] := by
  -- There are neither blocks nor tasks.
  constructor
  case bound => exact fun f => rfl
  case slot => exact fun f block => iff_of_false nofun fun h => nomatch h.1
  case ids => exact fun block hblock => nomatch hblock
  case open_ids => exact fun i t ht => nomatch ht
  case distinct => exact fun i j t u ht => nomatch ht
  case referred => exact fun i t ht => nomatch ht
  case returned => exact fun i t ht => nomatch ht
  case closed => exact fun block hblock => nomatch hblock
  case written => exact fun block hblock => nomatch hblock
  case base => exact fun block hblock => nomatch hblock

end Arena

/-! ### Reachable sessions -/

namespace Session

variable {config : Config} {session session' : Session}

/-- The blocks of a session are registered, its tasks come from its requests, and the
answers to earlier requests are blocks of the files that have been asked for. -/
structure Settled (config : Config) (session : Session) : Prop where
  arena : Arena config session.library session.tasks
  origins : ∀ (i : TaskId) (reference : String) (task : Task),
    session.requests[i]? = some (reference, task) → task.From config (config.request reference)
  answered : ∀ (reference : String) (block : Block), (reference, .ok block) ∈ session.answered →
    block ∈ session.library.blocks ∧ block.identifier = (config.request reference).target

/-- The answers to the requests under way are registered blocks of the files that are
asked for. That a task returns a block of the right file is known from its stack. -/
theorem Settled.mem_answers (h : session.Settled config) {reference : String} {block : Block}
    (hanswer : (reference, .ok block) ∈ session.answers) :
    block ∈ session.library.blocks ∧ block.identifier = (config.request reference).target := by
  obtain ⟨⟨reference', task⟩, hrequest, heq⟩ := List.mem_filterMap.1 hanswer
  obtain ⟨answer, htask, hpair⟩ := Option.map_eq_some_iff.1 heq
  cases hpair
  cases Task.answer?_eq_some.1 htask
  obtain ⟨i, hi⟩ := List.mem_iff_getElem?.1 hrequest
  -- With nothing left on its stack, the task returns what it has been asked for.
  obtain ⟨request, hstack, hphase⟩ := h.origins i _ _ hi
  cases hstack
  exact ⟨h.arena.returned i _ (getElem?_tasks hi) block rfl, hphase block rfl⟩

/-- Every step of a session keeps this. Work is a step of one task; asking and
settling only bring and remove tasks that have no file open; a delay changes neither
files nor blocks. -/
theorem Settled.step (h : session.Settled config) (horderly : session.Orderly)
    (hstep : Step config session session') : session'.Settled config := by
  cases hstep with
  -- The new task has no file open and brings nothing.
  | ask reference =>
    refine ⟨h.arena.of_tasks fun i task hi => ?_, fun i r task hi => ?_, h.answered⟩
    · rw [tasks, List.getElem?_map] at hi
      obtain ⟨⟨r, t⟩, hget, rfl⟩ := Option.map_eq_some_iff.1 hi
      rcases of_getElem?_append hget with hi | ⟨-, rfl⟩
      · exact .inl (getElem?_tasks hi)
      · exact .inr ⟨rfl, fun block hphase => by cases hphase⟩
    · rcases of_getElem?_append hi with hi | ⟨rfl, rfl⟩
      · exact h.origins i r task hi
      · exact .get config r
  | work me reference library task task' hme hstep =>
    have hmove := Task.move_of_step? hstep
    have htask := getElem?_tasks hme
    have hfrom := h.origins me reference task hme
    refine ⟨?_, fun i r t hi => ?_, fun r block hblock => ?_⟩
    · rw [tasks_update]
      exact h.arena.step horderly.lines htask hfrom hmove
    · rw [getElem?_requests_update hme] at hi
      split at hi
      · cases hi
        exact hfrom.step h.arena.named hmove
      · exact h.origins i r t hi
    · obtain ⟨hin, hidentifier⟩ := h.answered r block hblock
      exact ⟨h.arena.mem_blocks_of_move htask hmove hin, hidentifier⟩
  -- A task during a delay returns nothing, before the round and after it.
  | tick me reference task hme =>
    have htask := getElem?_tasks hme
    refine ⟨?_, fun i r t hi => ?_, h.answered⟩
    · rw [tasks_update]
      refine h.arena.of_same htask .refl (fun f hf => ?_) ?_ fun b hb => ?_
      · exact ⟨f, task.files_tick ▸ hf, rfl, rfl⟩
      · exact task.files_tick ▸ h.arena.referred me task htask
      · refine h.arena.returned me task htask b ?_
        rw [Task.tick] at hb
        split at hb
        · cases hb
        · exact hb
    · rw [getElem?_requests_update hme] at hi
      split at hi
      · cases hi
        exact (h.origins me reference task hme).tick
      · exact h.origins i r t hi
  | settle hanswered =>
    refine ⟨h.arena.of_tasks (by simp [tasks]), by simp, fun r block hblock => ?_⟩
    rcases List.mem_append.1 hblock with hblock | hblock
    · exact h.answered r block hblock
    · exact h.mem_answers hblock

/-- In every reachable session all compilations are settled. That files stand in line
for their slots is known of the same sessions already, and each step may rely on it. -/
theorem settled_of_reachable (h : Reachable config session) : session.Settled config := by
  refine h.invariant ⟨.empty, nofun, nofun⟩ fun s s' hreach hsettled hstep => ?_
  exact hsettled.step (orderly_of_reachable hreach) hstep

/-- What holds of every block that is built of a file, when a task has come to the end
of it, holds of all registered blocks. Only this step registers blocks, so nothing has
to be shown for the others. -/
theorem blocks_keep {P : Block → Prop}
    (hbuilt : ∀ (s : Session) (i : TaskId) (reference : String) (waiting : List WaitingFile)
      (file : OpenFile) (block : Block), Reachable config s →
      s.requests[i]? = some (reference, ⟨waiting, .compiling file⟩) → file.pending = [] →
      Block.ofRules file.id file.name file.identifier file.references file.rules = .ok block →
        P block)
    (h : Reachable config session) : ∀ block ∈ session.library.blocks, P block := by
  refine h.invariant (P := fun s => ∀ block ∈ s.library.blocks, P block) nofun
    fun s s' hreach hblocks hstep => ?_
  cases hstep with
  | ask => exact hblocks
  -- Of the steps only this one can register a block.
  | work me reference library task task' hme hstep =>
    have hmove := Task.move_of_step? hstep
    rcases hmove.blocks with hsame | ⟨waiting, file, block, rfl, hpending, hnew, hregistered⟩
    · exact fun other hother => hblocks other (hsame ▸ hother)
    · intro other hother
      change other ∈ library.blocks at hother
      rw [hregistered] at hother
      rcases (Library.mem_blocks_register _).1 hother with rfl | ⟨hin, -⟩
      · exact hbuilt s me reference waiting file other hreach hme hpending hnew
      · exact hblocks other hin
  | tick => exact hblocks
  | settle => exact hblocks

end Session

end BlockStyles
