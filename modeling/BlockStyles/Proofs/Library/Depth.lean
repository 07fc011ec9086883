import BlockStyles.Proofs.Library.Alone
import BlockStyles.Proofs.Library.Effects
import BlockStyles.Proofs.Library.Limits

/-!
# `BlockStyles.Proofs.Library.Depth`: when references lead too deep

The limit is about the chain of files that a request is followed through. A file that has a block
already ends the chain, however far its own references lead. So it depends on more than the files
whether the limit is reached: on the blocks that are there when a request is made, and on the order
of the references in a file, since the blocks of earlier ones are there when a later one is taken
up. `Config.Exceeds` says for a file, given the files that have blocks, that some chain from it is
too long in spite of that.

* `Task.Stack.exceeds`: where the limit is reached, the limit is exceeded.
* `Task.Within.step`: as long as it is not reached, no reference that has been passed exceeds it.
* `Session.exceeds_of_get`, `Session.not_exceeds_of_get`: the two directions for single requests,
  which are the answers of a task that is followed from its start to its end.
* `Session.tooDeep_iff_exceeds`: a request fails for the limit if and only if its file exceeds it.
-/

set_option autoImplicit false

namespace BlockStyles

open Relation (TransGen ReflTransGen)

/-! ### Chains that are too long -/

namespace Config

/-- The files that have blocks when some more have been loaded, with all that they
lead to. Loading a file means loading what it refers to, so a block never comes alone. -/
def After (config : Config) (loaded : String → Prop) (passed : List String) (file : String) :
    Prop :=
  loaded file ∨ ∃ earlier ∈ passed, ReflTransGen config.RefersTo earlier file

/-- References can be followed from a file for so many files and then on to one more. A file with
a block is not followed, and when a reference of a file is followed, those before it have been
loaded. -/
inductive Exceeds (config : Config) : (String → Prop) → Nat → String → Prop where
  | spent (loaded : String → Prop) (file : String) : Exceeds config loaded 0 file
  | refers (loaded : String → Prop) (depth : Nat) (file target : String)
      (before after : List String) (hnew : ¬ loaded file)
      (hreferences : (config.referencesOf file).map Prod.snd = before ++ target :: after)
      (h : Exceeds config (config.After loaded before) depth target) :
      Exceeds config loaded (depth + 1) file

variable {config : Config} {loaded loaded' : String → Prop} {depth : Nat} {file target : String}

/-- A file refers to another one if this is the target of one of its references,
whatever name it goes by. -/
theorem refersTo_iff : config.RefersTo file target ↔
    target ∈ (config.referencesOf file).map Prod.snd := by
  simp [RefersTo]

/-- The more files have blocks and the more have been loaded, the more there are
afterwards. -/
theorem After.mono {passed passed' : List String} (hloaded : ∀ f, loaded f → loaded' f)
    (hpassed : ∀ f ∈ passed, f ∈ passed') (h : config.After loaded passed file) :
    config.After loaded' passed' file := by
  rcases h with h | ⟨earlier, hearlier, hreach⟩
  · exact .inl (hloaded file h)
  · exact .inr ⟨earlier, hpassed earlier hearlier, hreach⟩

/-- When nothing more has been loaded, the files with blocks are those that had them. -/
theorem after_nil : config.After loaded [] = loaded := by
  funext file
  simp [After]

namespace Exceeds

/-- The fewer files have blocks, the more chains there are; only those on the way
matter. The hypothesis is restricted to files that can be reached, since nothing is
known about the others. -/
theorem mono (h : config.Exceeds loaded depth file)
    (hless : ∀ f, ReflTransGen config.RefersTo file f → loaded' f → loaded f) :
    config.Exceeds loaded' depth file := by
  induction h generalizing loaded' with
  | spent => exact .spent _ _
  | refers loaded depth file target before after hnew hreferences _ ih =>
    -- The same references are followed; only those on the way have been compared.
    have hrefers : config.RefersTo file target := refersTo_iff.2 (by simp [hreferences])
    refine .refers _ _ _ target before after (fun hin => hnew (hless file .refl hin))
      hreferences (ih fun f hreach => .imp_left (hless f (.head hrefers hreach)))

/-- Who exceeds a depth exceeds the one below it. The chain is cut off one file
earlier. -/
theorem of_succ (h : config.Exceeds loaded (depth + 1) file) :
    config.Exceeds loaded depth file := by
  induction depth generalizing loaded file with
  | zero => exact .spent _ _
  | succ depth ih =>
    cases h with
    | refers _ _ _ target before after hnew hreferences h =>
      exact .refers _ _ _ target before after hnew hreferences (ih h)

/-- Who exceeds a depth exceeds every smaller one. The bound that a task has left goes
down along its chain, and the limit itself is the largest one. -/
theorem of_le {more : Nat} (h : config.Exceeds loaded more file) (hle : depth ≤ more) :
    config.Exceeds loaded depth file := by
  induction more, hle using Nat.le_induction with
  | base => exact h
  | succ more _ ih => exact ih h.of_succ

/-- A file with a block does not exceed any depth at which it can be had at all. Its
references are not followed. -/
theorem not_loaded (h : config.Exceeds loaded depth file) (hdepth : 0 < depth) : ¬ loaded file := by
  cases h with
  | spent => exact absurd hdepth (Nat.lt_irrefl 0)
  | refers _ _ _ _ _ _ hnew => exact hnew

/-- There is a chain of more files than that. The converse fails, as files with blocks end
the chain; this is why the depth that is exceeded is not simply the length of a
chain. -/
theorem exists_chain (h : config.Exceeds loaded depth file) :
    ∃ chain, (file :: chain).IsChain config.RefersTo ∧ chain.length = depth := by
  induction h with
  | spent loaded file => exact ⟨[], .singleton _, rfl⟩
  | refers loaded depth file target before after _ hreferences _ ih =>
    obtain ⟨chain, hchain, hlength⟩ := ih
    have hrefers : config.RefersTo file target := refersTo_iff.2 (by simp [hreferences])
    exact ⟨target :: chain, List.isChain_cons_cons.2 ⟨hrefers, hchain⟩, by simp [hlength]⟩

end Exceeds

end Config

/-- A file has a registered block. -/
def Library.HasBlockOf (library : Library) (file : String) : Prop :=
  ∃ block ∈ library.blocks, block.identifier = file

/-- The files that an open file has references to. -/
def OpenFile.referred (file : OpenFile) : List String :=
  file.references.map (·.2.identifier)

/-- The references that have been answered are those that the source makes first. The
others are those of the at-rules that are still pending. -/
theorem OpenFile.Reads.map_referencesOf {config : Config} {file : OpenFile}
    (h : file.Reads config) :
    (config.referencesOf file.identifier).map Prod.snd
      = file.referred ++ (config.targets file.identifier file.pending).map Prod.snd := by
  obtain ⟨passed, hreferences, hanswered⟩ := h.referencesOf
  rw [hreferences, List.map_append, ← hanswered, List.map_map]
  rfl

/-- A file that asks for a reference has the references that it had. The new one is
only asked for; it is among the references when it has been answered. -/
theorem OpenFile.Refers.referred {config : Config} {file after : OpenFile} {localName : String}
    {request : Request} (h : file.Refers config after localName request) :
    after.referred = file.referred := by
  cases h
  rfl

/-- What an open file refers to next comes right behind the references that it has. So
when it is followed, those in front of it have been loaded. -/
theorem OpenFile.Refers.map_referencesOf {config : Config} {file after : OpenFile}
    {localName : String} {request : Request} (h : file.Refers config after localName request)
    (hreads : file.Reads config) : ∃ rest, (config.referencesOf file.identifier).map Prod.snd
      = file.referred ++ request.target :: rest := by
  rw [hreads.map_referencesOf, h.targets]
  exact ⟨_, rfl⟩

/-! ### Where the limit is reached -/

/-- If the request at the end of a stack exceeds a depth, the first one exceeds it by
as much as there are files on the way. None of these has a block, and those that they
have references to have blocks with all that they lead to. The induction goes down the
stack, and each file adds one to the depth. -/
theorem Task.Stack.exceeds {config : Config} {first request : Request} {waiting : List WaitingFile}
    {loaded : String → Prop} {depth : Nat} (h : Stack config first waiting request)
    (hopen : ∀ w ∈ waiting, ¬ loaded w.file.identifier)
    (hreferred : ∀ w ∈ waiting, ∀ target ∈ w.file.referred, ∀ f,
      ReflTransGen config.RefersTo target f → loaded f)
    (hexceeds : config.Exceeds loaded depth request.target) :
    config.Exceeds loaded (depth + waiting.length) first.target := by
  induction h generalizing depth with
  | bottom => exact hexceeds
  | push waiting lower request file after localName _ hreads hfile hrefers ih =>
    obtain ⟨hopen, hopens⟩ := List.forall_mem_cons.1 hopen
    obtain ⟨hreferred, hreferreds⟩ := List.forall_mem_cons.1 hreferred
    obtain ⟨rest, hrest⟩ := hrefers.map_referencesOf hreads
    have hsame := hrefers.referred
    rw [hrefers.identifier, hfile] at hopen
    rw [hfile] at hrest
    -- What the earlier references of the file lead to has blocks by now, so it takes away nothing.
    have hlower : config.Exceeds loaded (depth + 1) lower.target := by
      refine .refers _ _ _ request.target file.referred rest hopen hrest (hexceeds.mono ?_)
      rintro f - (hf | ⟨target, htarget, hreach⟩)
      · exact hf
      · exact hreferred target (hsame ▸ htarget) f hreach
    have hfirst := ih hopens hreferreds hlower
    rwa [Nat.add_assoc, Nat.add_comm 1] at hfirst

/-! ### Where the limit is not reached -/

/-- No reference that the file has exceeded the depth that is left behind the file
when it was taken up. At that time only the references in front of it had been loaded. -/
def OpenFile.Within (config : Config) (loaded : String → Prop) (depth : Nat) (file : OpenFile) :
    Prop :=
  ∀ before target after, file.referred = before ++ target :: after →
    ¬ config.Exceeds (config.After loaded before) depth target

namespace Task

/-- The files that waiting files have references to. These have been loaded on the
way. -/
def referred (waiting : List WaitingFile) : List String :=
  waiting.flatMap (·.file.referred)

/-- No reference of the files that wait exceeded the depth that was left for it. The
further down a file is on the stack, the more depth was left. -/
def WaitingWithin (config : Config) (loaded : String → Prop) : List WaitingFile → Prop
  | [] => True
  | below :: waiting =>
    (∃ left, config.maxDepth - waiting.length = left + 1
        ∧ below.file.Within config (config.After loaded (referred waiting)) left)
      ∧ WaitingWithin config loaded waiting

end Task

namespace Phase

/-- The files that a phase has got blocks of. They belong to the innermost file, or
are the answer for the one below. -/
def brought : Phase → List String
  | compiling file => file.referred
  | returning (.ok block) => [block.identifier]
  | _ => []

/-- A file is only worked on if some depth is left for it, and it does not exceed this
depth. A request that has only been made has not been looked at yet, so nothing is
said about it. -/
def Within (config : Config) (loaded : String → Prop) (depth : Nat) : Phase → Prop
  | importing _ _ => 0 < depth
  | queued _ => 0 < depth
  | compiling file => ∃ left, depth = left + 1 ∧ file.Within config loaded left
  | returning (.ok block) => ¬ config.Exceeds loaded depth block.identifier
  | _ => True

end Phase

/-- No file that the task has passed exceeds the depth that was left for it, and there
are blocks only of files that have been loaded before or that have been passed, with
all that they lead to. This is the invariant for the way down; `Task.Stack.exceeds` is
the one for the way up. -/
structure Task.Within (config : Config) (loaded : String → Prop) (library : Library)
    (task : Task) : Prop where
  blocks : ∀ block ∈ library.blocks,
    config.After loaded (task.phase.brought ++ referred task.waiting) block.identifier
  waiting : WaitingWithin config loaded task.waiting
  phase : task.phase.Within config (config.After loaded (referred task.waiting))
    (config.maxDepth - task.waiting.length)

/-- The task brings an error. -/
def Task.Failed (task : Task) : Prop :=
  ∃ error, task.phase = .returning (.error error)

/-- A delay does not come after an error. So a task that has failed stays so, whatever
time passes. -/
theorem Task.Failed.tick {task : Task} (h : task.Failed) : task.tick.Failed := by
  obtain ⟨waiting, phase⟩ := task
  obtain ⟨error, rfl⟩ := h
  exact ⟨error, rfl⟩

/-- An error does not become anything else. It is handed down until the stack is
empty. -/
theorem Task.Failed.step {config : Config} {me : TaskId} {library library' : Library}
    {task task' : Task} (h : task.Failed) (hmove : Move config me library task library' task') :
    task'.Failed := by
  obtain ⟨waiting, phase⟩ := task
  obtain ⟨error, rfl⟩ := h
  cases hmove with
  | lost waiting below error => exact ⟨error, rfl⟩

namespace Task.Within

variable {config : Config} {loaded : String → Prop} {library library' : Library} {me : TaskId}
  {tasks : List Task} {task task' : Task} {waiting : List WaitingFile} {phase phase' : Phase}

/-- Some depth is left where a chain is not of the full length. The check of the limit
says that the chain is not of the full length, and this is what follows from it. -/
theorem depth_left (h : (chain waiting).length < config.maxDepth) :
    0 < config.maxDepth - waiting.length := by
  rw [length_chain] at h
  exact Nat.sub_pos_of_lt h

/-- A round of a delay keeps what is known about a task. It has the same files open
and the same request. -/
theorem tick (h : task.Within config loaded library) : task.tick.Within config loaded library := by
  obtain ⟨waiting, phase⟩ := task
  cases phase with
  | importing request delay =>
    cases delay with
    | zero => exact h
    | succ delay => exact ⟨h.blocks, h.waiting, h.phase⟩
  | _ => exact h

/-- The task goes on to a file that nothing has been read of. The blocks are the same,
and it has got none of its own. -/
theorem of_phase (h : Within config loaded library ⟨waiting, phase⟩)
    (hblocks : library'.blocks = library.blocks) (hbrought : phase'.brought = phase.brought)
    (hphase : phase'.Within config (config.After loaded (referred waiting))
      (config.maxDepth - waiting.length)) :
    Within config loaded library' ⟨waiting, phase'⟩ where
  blocks block hblock := by
    rw [hblocks] at hblock
    rw [hbrought]
    exact h.blocks block hblock
  waiting := h.waiting
  phase := hphase

/-- A registered block is had at once, however far its references lead. Its file has a
block, so it does not exceed the depth, which is more than nothing. -/
theorem of_registered (h : Within config loaded library ⟨waiting, phase⟩)
    (hblocks : library'.blocks = library.blocks) (hbrought : phase.brought = [])
    (hleft : 0 < config.maxDepth - waiting.length) {block : Block}
    (hblock : block ∈ library.blocks) :
    Within config loaded library' ⟨waiting, .returning (.ok block)⟩ := by
  have hloaded : ∀ b ∈ library.blocks, config.After loaded (referred waiting) b.identifier := by
    intro b hb
    have hold := h.blocks b hb
    dsimp only at hold
    rwa [hbrought] at hold
  refine ⟨fun b hb => ?_, h.waiting, fun hexceeds => ?_⟩
  · rw [hblocks] at hb
    exact (hloaded b hb).mono (fun _ => id) fun f hf => List.mem_append_right _ hf
  · exact hexceeds.not_loaded hleft (hloaded block hblock)

/-- A file that has been read to its end does not exceed the depth, since none of its
references does. All references of its source have been answered by then, in the order
of the source. -/
theorem built {file : OpenFile} {block : Block}
    (h : Within config loaded library ⟨waiting, .compiling file⟩) (hreads : file.Reads config)
    (hpending : file.pending = []) (hidentifier : block.identifier = file.identifier)
    (hblocks : ∀ b ∈ library'.blocks, b = block ∨ b ∈ library.blocks) :
    Within config loaded library' ⟨waiting, .returning (.ok block)⟩ := by
  have hall : (config.referencesOf file.identifier).map Prod.snd = file.referred := by
    rw [hreads.map_referencesOf, hpending]
    exact List.append_nil _
  refine ⟨fun b hb => ?_, h.waiting, fun hexceeds => ?_⟩
  · rcases hblocks b hb with rfl | hb
    · exact .inr ⟨b.identifier, List.mem_cons_self, .refl⟩
    · rcases h.blocks b hb with hold | ⟨earlier, hearlier, hreach⟩
      · exact .inl hold
      -- What a reference of the file leads to, the file leads to.
      · rcases List.mem_append.1 hearlier with hearlier | hearlier
        · have hrefers : config.RefersTo file.identifier earlier :=
            Config.refersTo_iff.2 (hall ▸ hearlier)
          exact .inr ⟨block.identifier, List.mem_cons_self, hidentifier ▸ .head hrefers hreach⟩
        · exact .inr ⟨earlier, List.mem_cons_of_mem _ hearlier, hreach⟩
  -- If it did, one of its references would, with those in front of it loaded.
  · obtain ⟨left, hleft, hwithin⟩ := h.phase
    dsimp only at hexceeds
    rw [hidentifier, hleft] at hexceeds
    cases hexceeds with
    | refers _ _ _ target before after hnew hreferences hexceeds =>
      exact hwithin before target after (hall ▸ hreferences) hexceeds

/-- A file gets a reference that does not exceed the depth. It is the last one of the
file now, so what has been known of the others is not affected. -/
theorem gained {below : WaitingFile} {block : Block}
    (h : Within config loaded library ⟨below :: waiting, .returning (.ok block)⟩) :
    Within config loaded library
      ⟨waiting, .compiling (below.file.refer below.localName block)⟩ := by
  obtain ⟨⟨left, hleft, hwithin⟩, hwaiting⟩ := h.waiting
  have hreferred : (below.file.refer below.localName block).referred
      = below.file.referred ++ [block.identifier] := by
    simp [OpenFile.referred, OpenFile.refer]
  refine ⟨fun b hb => ?_, hwaiting, left, hleft, fun before target after heq => ?_⟩
  · refine (h.blocks b hb).mono (fun _ => id) fun f hf => ?_
    simp only [Phase.brought, referred, List.flatMap_cons, List.mem_append,
      List.mem_singleton, hreferred] at hf ⊢
    rcases hf with hf | hf | hf
    · exact .inl (.inr hf)
    · exact .inl (.inl hf)
    · exact .inr hf
  · rw [hreferred] at heq
    rcases List.eq_nil_or_concat after with rfl | ⟨rest, last, rfl⟩
    -- The new reference has come in when the others were there.
    · obtain ⟨rfl, hlast⟩ := List.append_inj' heq rfl
      cases hlast
      have hnot : ¬ config.Exceeds (config.After loaded (referred (below :: waiting)))
          (config.maxDepth - (waiting.length + 1)) block.identifier := h.phase
      rw [Nat.sub_add_eq, hleft, Nat.add_sub_cancel] at hnot
      refine fun hexceeds => hnot (hexceeds.mono fun f _ hf => ?_)
      rcases hf with hf | ⟨earlier, hearlier, hreach⟩
      · exact .inl (.inl hf)
      · rcases List.mem_append.1 hearlier with hearlier | hearlier
        · exact .inr ⟨earlier, hearlier, hreach⟩
        · exact .inl (.inr ⟨earlier, hearlier, hreach⟩)
    · rw [List.concat_eq_append, ← List.cons_append, ← List.append_assoc] at heq
      obtain ⟨hold, -⟩ := List.append_inj' heq rfl
      exact hwithin before target rest hold

/-- A step that does not fail keeps all references within the depth. Blocks come in at
three places, by the table of identifiers, in a slot, and from a file that is
finished, and each has its lemma above. -/
theorem step {first : Request} (h : task.Within config loaded library)
    (harena : Arena config library tasks) (hfrom : task.From config first)
    (hmove : Move config me library task library' task') :
    task'.Failed ∨ task'.Within config loaded library' := by
  cases hmove with
  | refused waiting request cause => exact .inl ⟨_, rfl⟩
  | unreadable waiting request error => exact .inl ⟨_, rfl⟩
  | faulty waiting file error => exact .inl ⟨_, rfl⟩
  | lost waiting below error => exact .inl ⟨_, rfl⟩
  | known waiting request block _ hdepth hbound =>
    have hblock := ((harena.slot _ _).1 (harena.bound _ ▸ hbound)).1
    exact .inr (h.of_registered rfl rfl (depth_left hdepth) hblock)
  | found waiting request block hclaims hslot =>
    have hwaits := library.sameBlocks_waitFor waiting request.target
    have hblock := ((harena.slot _ _).1 (hwaits.slot _ ▸ hslot)).1
    exact .inr (h.of_registered (hwaits.trans (Library.sameBlocks_release _ waiting)).blocks rfl
      (depth_left hclaims.depth) hblock)
  | takes waiting request hclaims =>
    exact .inr (h.of_phase (library.sameBlocks_waitFor waiting request.target).blocks rfl
      (depth_left hclaims.depth))
  | queues waiting request other hclaims =>
    exact .inr (h.of_phase (library.sameBlocks_waitFor waiting request.target).blocks rfl
      (depth_left hclaims.depth))
  | served waiting request block hslot =>
    have hblock := ((harena.slot _ _).1 hslot).1
    exact .inr (h.of_registered (library.sameBlocks_release waiting).blocks rfl h.phase hblock)
  | called waiting request => exact .inr (h.of_phase rfl rfl h.phase)
  -- The file that is opened takes one from the depth that is left, and has no references
  -- yet.
  | opened waiting request source sheet =>
    refine .inr (h.of_phase rfl rfl ⟨config.maxDepth - waiting.length - 1, ?_, ?_⟩)
    · exact (Nat.sub_add_cancel h.phase).symm
    · intro before target after heq
      simp [OpenFile.opened, OpenFile.referred] at heq
  | skipped waiting file atRule pending => exact .inr (h.of_phase rfl rfl h.phase)
  -- The file waits from now on, with the references that it has.
  | refers waiting file after localName request hrefers =>
    obtain ⟨left, hleft, hwithin⟩ := h.phase
    have hsame := hrefers.referred
    refine .inr ⟨fun b hb => ?_, ⟨⟨left, hleft, ?_⟩, h.waiting⟩, trivial⟩
    · change config.After loaded (after.referred ++ referred waiting) b.identifier
      rw [hsame]
      exact h.blocks b hb
    · intro before target later heq
      exact hwithin before target later (hsame ▸ heq)
  | built waiting file block hpending hbuilt =>
    obtain ⟨_, -, hreads, -⟩ := hfrom
    refine .inr (h.built hreads hpending (Block.ofRules_keeps hbuilt).identifier fun b hb => ?_)
    rw [Library.blocks, (Task.registers_close library waiting file block).finished] at hb
    exact ((Library.mem_blocks_register library).1 hb).imp_right And.left
  | gained waiting below block => exact .inr h.gained

end Task.Within

/-! ### Single requests -/

/-- The library has the blocks that an earlier one had, and if the task fails for the
limit, the target exceeded the limit with the earlier blocks. -/
structure Task.FailsWithin (config : Config) (earlier library : Library) (target : String)
    (task : Task) : Prop where
  blocks : ∀ f, earlier.HasBlockOf f → library.HasBlockOf f
  exceeds : ∀ error, task.phase = .returning (.error error) →
    error.cause = .tooDeep config.maxDepth →
      config.Exceeds earlier.HasBlockOf config.maxDepth target

namespace Arena

variable {config : Config} {library : Library} {tasks : List Task} {me : TaskId} {task : Task}
  {file target : String}

/-- A file that is held by a task has no block. Its slot is empty until the task has
finished it. -/
theorem not_hasBlockOf (h : Arena config library tasks) (hlines : Lines library tasks)
    (hme : tasks[me]? = some task) (hfile : file ∈ task.held) : ¬ library.HasBlockOf file := by
  rintro ⟨block, hblock, hidentifier⟩
  have hempty := hlines.block_eq_none (hlines.holder file me task hme hfile)
  rw [(h.slot file block).2 ⟨hblock, hidentifier⟩] at hempty
  cases hempty

/-- Where a file has a block, so do those that it leads to. The induction goes along
the references. -/
theorem hasBlockOf_of_reach (h : Arena config library tasks) (hfile : library.HasBlockOf file)
    (hreach : ReflTransGen config.RefersTo file target) : library.HasBlockOf target := by
  induction hreach with
  | refl => exact hfile
  | tail _ hrefers ih =>
    obtain ⟨block, hblock, rfl⟩ := ih
    obtain ⟨reference, -, hin, htarget⟩ := h.exists_reference hblock hrefers
    exact ⟨reference.2, hin, htarget⟩

end Arena

namespace Session

variable {config : Config} {library : Library} {answered : List (String × Except Error Block)}
  {reference : String}

/-- A single request is answered, after anything that has happened before, and what
its steps keep holds in the end. The sessions on the way are reachable, so what is
known about these can be used at every step. -/
theorem get_keeps {P : Library → Task → Prop} (h : Reachable config ⟨library, [], answered⟩)
    (hstart : P library (.get config reference))
    (hmove : ∀ library task library' task',
      Reachable config ⟨library, [(reference, task)], answered⟩ → P library task →
        Task.Move config 0 library task library' task' → P library' task')
    (htick : ∀ library task, P library task → P library task.tick) :
    ∃ last answer, library.get config reference = (last, some answer)
      ∧ Reachable config ⟨last, [(reference, ⟨[], .returning answer⟩)], answered⟩
      ∧ P last ⟨[], .returning answer⟩ := by
  have hask : Reachable config ⟨library, [(reference, .get config reference)], answered⟩ :=
    h.tail (.ask _ reference)
  obtain ⟨last, task, hcomplete, ⟨hreachable, hP⟩, -⟩ := Library.complete_keeps
    (P := fun l t => Reachable config ⟨l, [(reference, t)], answered⟩ ∧ P l t)
    (fun l t l' t' ⟨hreach, hP⟩ hstep =>
      ⟨hreach.tail (.work _ 0 reference l' t t' rfl hstep),
        hmove l t l' t' hreach hP (Task.move_of_step? hstep)⟩)
    (fun l t ⟨hreach, hP⟩ => ⟨hreach.tail (.tick _ 0 reference t rfl), htick l t hP⟩)
    ⟨hask, hstart⟩
  -- A request that runs for as long as it moves is answered.
  have hreference : [reference][0]? = some reference := rfl
  obtain ⟨answer, hanswer⟩ := exists_answer h hreference
  have hget : library.get config reference = (last, task.answer?) := hcomplete
  have hsame : (library.get config reference).2 = some answer := by
    rw [Library.get_eq_getAll, List.head?_eq_getElem?, hanswer]
    rfl
  rw [hget] at hsame
  cases Task.answer?_eq_some.1 hsame
  exact ⟨last, answer, hget, hreachable, hP⟩

/-- Where the limit is reached, a chain of references from the first file is too long.
The stack of the task is this chain, and its length is the limit. -/
theorem exceeds_of_raises {session : Session} (h : Reachable config session) {i : TaskId}
    {task : Task} {error : Error} (hi : session.requests[i]? = some (reference, task))
    (hraises : task.Raises config session.library error)
    (hcause : error.cause = .tooDeep config.maxDepth) :
    config.Exceeds session.library.HasBlockOf config.maxDepth
      (config.request reference).target := by
  have hsettled := settled_of_reachable h
  have hlines := (orderly_of_reachable h).lines
  have htask := getElem?_tasks hi
  have hchain : error.cause.OfChain := hcause ▸ .tooDeep _
  obtain ⟨waiting, r, rfl, hrefused⟩ := hraises.refused_of_cause hchain
  obtain ⟨request, hstack, rfl⟩ := hsettled.origins i reference _ hi
  rw [hcause] at hrefused
  cases hrefused with
  | tooDeep hnew hdeep =>
    -- The files on the way are held, so they have no blocks yet, but their references have.
    have hopen : ∀ w ∈ waiting, ¬ session.library.HasBlockOf w.file.identifier := fun w hw =>
      hsettled.arena.not_hasBlockOf hlines htask
        (List.mem_append_right _ (List.mem_map_of_mem hw))
    have hreferred : ∀ w ∈ waiting, ∀ target ∈ w.file.referred, ∀ f,
        ReflTransGen config.RefersTo target f → session.library.HasBlockOf f := by
      intro w hw target htarget f hreach
      obtain ⟨answer, hanswer, rfl⟩ := List.mem_map.1 htarget
      have hin := hsettled.arena.referred i _ htask w.file
        (List.mem_append_right _ (List.mem_map_of_mem hw)) answer hanswer
      exact hsettled.arena.hasBlockOf_of_reach ⟨answer.2, hin, rfl⟩ hreach
    have hlong : config.maxDepth ≤ 0 + waiting.length := by
      rwa [Nat.zero_add, ← Task.length_chain]
    exact (hstack.exceeds hopen hreferred (.spent _ _)).of_le hlong

/-- A request that fails for the limit exceeds it, with the blocks that there were.
The error begins later, when there are more blocks, but more blocks only make it
harder to exceed the limit. -/
theorem exceeds_of_get (h : Reachable config ⟨library, [], answered⟩) {error : Error}
    (hget : (library.get config reference).2 = some (.error error))
    (hcause : error.cause = .tooDeep config.maxDepth) :
    config.Exceeds library.HasBlockOf config.maxDepth (config.request reference).target := by
  -- Blocks only come, so what exceeds the limit later has exceeded it before.
  have hmove : ∀ l t l' t', Reachable config ⟨l, [(reference, t)], answered⟩ →
      t.FailsWithin config library l (config.request reference).target →
        Task.Move config 0 l t l' t' →
          t'.FailsWithin config library l' (config.request reference).target := by
    intro l t l' t' hreach hfails hmove
    have htask : (tasks ⟨l, [(reference, t)], answered⟩)[0]? = some t := rfl
    refine ⟨fun f hf => ?_, fun error herror hcause => ?_⟩
    · obtain ⟨block, hblock, hidentifier⟩ := hfails.blocks f hf
      have harena := (settled_of_reachable hreach).arena
      exact ⟨block, harena.mem_blocks_of_move htask hmove hblock, hidentifier⟩
    · rcases hmove.error herror with herror | hraises
      · exact hfails.exceeds error herror hcause
      · have hlater := exceeds_of_raises hreach (i := 0) rfl hraises hcause
        exact hlater.mono fun f _ => hfails.blocks f
  obtain ⟨last, answer, heq, -, hfails⟩ := get_keeps h ⟨fun _ => id, nofun⟩ hmove
    fun l t hfails => ⟨hfails.blocks, fun error herror =>
      hfails.exceeds error (Task.phase_of_tick herror)⟩
  rw [heq] at hget
  cases hget
  exact hfails.exceeds error rfl hcause

/-- A request that is answered by a block does not exceed the limit. Its task has kept
all references within the depth, and in the end this speaks of its own file. -/
theorem not_exceeds_of_get (h : Reachable config ⟨library, [], answered⟩) {block : Block}
    (hget : (library.get config reference).2 = some (.ok block)) :
    ¬ config.Exceeds library.HasBlockOf config.maxDepth (config.request reference).target := by
  have hstart : Task.Within config library.HasBlockOf library (.get config reference) :=
    ⟨fun block hblock => .inl ⟨block, hblock, rfl⟩, trivial, trivial⟩
  have hmove : ∀ l t l' t', Reachable config ⟨l, [(reference, t)], answered⟩ →
      t.Failed ∨ t.Within config library.HasBlockOf l → Task.Move config 0 l t l' t' →
        t'.Failed ∨ t'.Within config library.HasBlockOf l' := by
    rintro l t l' t' hreach (hfailed | hwithin) hmove
    · exact .inl (hfailed.step hmove)
    · have hsettled := settled_of_reachable hreach
      exact hwithin.step hsettled.arena (hsettled.origins 0 reference t rfl) hmove
  obtain ⟨last, answer, heq, hreachable, hend⟩ := get_keeps h (.inr hstart) hmove
    fun l t => Or.imp Task.Failed.tick Task.Within.tick
  rw [heq] at hget
  cases hget
  -- With a block as its answer the task has not failed.
  rcases hend with ⟨error, herror⟩ | hwithin
  · cases herror
  · have hanswers : (reference, .ok block) ∈ answers
        ⟨last, [(reference, ⟨[], .returning (.ok block)⟩)], answered⟩ := List.mem_cons_self
    obtain ⟨-, hidentifier⟩ := (settled_of_reachable hreachable).mem_answers hanswers
    have hphase : ¬ config.Exceeds (config.After library.HasBlockOf []) config.maxDepth
        block.identifier := hwithin.phase
    rwa [Config.after_nil, hidentifier] at hphase

/-- A reference that builds either gets its block, or it exceeds the limit and fails
for that. No other error can come up, by `tooDeep_of_builds`. -/
theorem get_of_builds (h : Reachable config ⟨library, [], answered⟩)
    (hbuilds : config.Builds reference) :
    (∃ block, (library.get config reference).2 = some (.ok block))
      ∨ ∃ error, (library.get config reference).2 = some (.error error)
        ∧ error.cause = .tooDeep config.maxDepth := by
  have hreference : [reference][0]? = some reference := rfl
  obtain ⟨answer, hanswer⟩ := exists_answer h hreference
  rw [Library.get_eq_getAll, List.head?_eq_getElem?, hanswer]
  cases answer with
  | ok block => exact .inl ⟨block, rfl⟩
  | error error =>
    have hmem := mem_answers_of_getAll answered hreference hanswer
    have hrun := reachable_getAll h [reference]
    exact .inr ⟨error, rfl, tooDeep_of_builds hrun (List.mem_append_right _ hmem) hbuilds⟩

/-- What the limit for chains of references does. However many requests have been made before, a
reference that builds

- fails for the limit if and only if its file exceeds it, given the files that have blocks;
- has its block otherwise;
- so it fails only if a chain of more files than that starts at its file;
- and it is had again in every session of the same files in which no file that it leads to is
  without a block that had one. -/
theorem tooDeep_iff_exceeds (h : Reachable config ⟨library, [], answered⟩)
    (hbuilds : config.Builds reference) :
    let target := Path.resolve none reference config.root
    ((∃ error, (library.get config reference).2 = some (.error error)
          ∧ error.cause = .tooDeep config.maxDepth)
        ↔ config.Exceeds library.HasBlockOf config.maxDepth target)
      ∧ ((∃ block, (library.get config reference).2 = some (.ok block))
        ↔ ¬ config.Exceeds library.HasBlockOf config.maxDepth target)
      ∧ (config.Exceeds library.HasBlockOf config.maxDepth target →
        ∃ chain, (target :: chain).IsChain config.RefersTo
          ∧ config.maxDepth < (target :: chain).length)
      ∧ ∀ library' answered', Reachable config ⟨library', [], answered'⟩ →
        (∀ file, ReflTransGen config.RefersTo target file →
          library.HasBlockOf file → library'.HasBlockOf file) →
        (∃ block, (library.get config reference).2 = some (.ok block)) →
          ∃ block, (library'.get config reference).2 = some (.ok block) := by
  intro target
  -- A block and an error for the limit exclude each other, and one of the two is the
  -- answer.
  have hloads : ∀ {l as}, Reachable config ⟨l, [], as⟩ →
      ((∃ block, (l.get config reference).2 = some (.ok block))
        ↔ ¬ config.Exceeds l.HasBlockOf config.maxDepth target) := by
    intro l as hl
    constructor
    · rintro ⟨block, hblock⟩
      exact not_exceeds_of_get hl hblock
    · intro hnot
      refine (get_of_builds hl hbuilds).resolve_right ?_
      rintro ⟨error, herror, hcause⟩
      exact hnot (exceeds_of_get hl herror hcause)
  refine ⟨⟨?_, fun hexceeds => ?_⟩, hloads h, fun hexceeds => ?_, ?_⟩
  · rintro ⟨error, herror, hcause⟩
    exact exceeds_of_get h herror hcause
  · exact (get_of_builds h hbuilds).resolve_left fun hblock => (hloads h).1 hblock hexceeds
  · obtain ⟨chain, hchain, hlength⟩ := hexceeds.exists_chain
    exact ⟨chain, hchain, by simp [hlength]⟩
  · intro library' answered' h' hmore hblock
    rw [hloads h']
    exact fun hexceeds => (hloads h).1 hblock (hexceeds.mono hmore)

/-- Of three files in a row the first one builds, but not with a limit of two. Both
are computed, up to the identifiers of blocks. -/
theorem builds_row :
    let config : Config := ⟨[("/r/a.css", "@block-reference b from \"./b.css\";"),
      ("/r/b.css", "@block-reference c from \"./c.css\";"), ("/r/c.css", "")], "/r", 2, []⟩
    config.Builds "a.css" ∧ (Library.get config .empty "a.css").2
      = some (.error (.located ⟨"/r/b.css", ⟨1, 1⟩⟩ (.tooDeep 2))) := by
  intro config
  have hbuilds : (Library.get (config.withLimit 3) .empty "a.css").2.map
      (Except.map Block.identifier) = some (.ok "/r/a.css") := by
    decide +kernel
  have hfails : (Library.get config .empty "a.css").2.map (Except.map Block.identifier)
      = some (.error (.located ⟨"/r/b.css", ⟨1, 1⟩⟩ (.tooDeep 2))) := by
    decide +kernel
  obtain ⟨block, hblock, -⟩ := some_map_eq_ok.1 hbuilds
  exact ⟨⟨3, block, hblock⟩, some_map_eq_error.1 hfails⟩

/-- Three files in a row, of which the limit allows for two. The request fails, so by
the theorem its file exceeds the limit. None of the three has a block yet, so all of
them count. -/
theorem tooDeep_iff_exceeds_row :
    let config : Config := ⟨[("/r/a.css", "@block-reference b from \"./b.css\";"),
      ("/r/b.css", "@block-reference c from \"./c.css\";"), ("/r/c.css", "")], "/r", 2, []⟩
    Reachable config start ∧ config.Builds "a.css"
      ∧ config.Exceeds Library.empty.HasBlockOf 2 "/r/a.css" := by
  intro config
  obtain ⟨hbuilds, hfails⟩ := builds_row
  have hstart : Reachable config start := .refl
  have htarget : Path.resolve none "a.css" config.root = "/r/a.css" := by decide +kernel
  have hexceeds := (tooDeep_iff_exceeds hstart hbuilds).1.1 ⟨_, hfails, rfl⟩
  rw [htarget] at hexceeds
  exact ⟨hstart, hbuilds, hexceeds⟩

/-- The chain of files from a reference does not decide by itself: once the second of
three files in a row has a block, the first one is had with a limit of two, and
otherwise it is not. So the blocks that are there have to be part of the condition. -/
theorem get_after_get :
    let config : Config := ⟨[("/r/a.css", "@block-reference b from \"./b.css\";"),
      ("/r/b.css", "@block-reference c from \"./c.css\";"), ("/r/c.css", "")], "/r", 2, []⟩
    config.Builds "a.css" ∧ ¬ config.LeadsIntoCircle "/r/a.css"
      ∧ ["/r/a.css", "/r/b.css", "/r/c.css"].IsChain config.RefersTo
      ∧ (∃ error, (Library.get config .empty "a.css").2 = some (.error error)
        ∧ error.cause = .tooDeep 2)
      ∧ ∃ block, ((Library.get config .empty "b.css").1.get config "a.css").2
        = some (.ok block) := by
  intro config
  obtain ⟨hbuilds, hfails⟩ := builds_row
  have htarget : Path.resolve none "a.css" config.root = "/r/a.css" := by decide +kernel
  -- The two calls evaluate, and show that the block is there. Blocks themselves are not
  -- compared.
  have hloads : ((Library.get config .empty "b.css").1.get config "a.css").2.map
      (Except.map Block.identifier) = some (.ok "/r/a.css") := by
    decide +kernel
  obtain ⟨block, hblock, -⟩ := some_map_eq_ok.1 hloads
  refine ⟨hbuilds, htarget ▸ hbuilds.not_leadsIntoCircle, ?_, ⟨_, hfails, rfl⟩, block, hblock⟩
  have ha : config.referencesOf "/r/a.css" = [("b", "/r/b.css")] := by decide +kernel
  have hb : config.referencesOf "/r/b.css" = [("c", "/r/c.css")] := by decide +kernel
  refine .cons_cons ⟨"b", ?_⟩ (.cons_cons ⟨"c", ?_⟩ (.singleton _))
  · simp [ha]
  · simp [hb]

end Session

end BlockStyles
