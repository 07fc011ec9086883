import BlockStyles.Library.Task

/-!
# `BlockStyles.Proofs.Library.Moves`: everything a step can be

`Task.step?` computes a step. `Task.Move` lists what it can come to, one
constructor for each outcome, together with what has been found out on the way:
why a file is refused, what its slot says, what is wrong with a file. Whatever
is to hold of all runs is proved by going through these constructors once.

* `Task.move_of_step?`: there are no other outcomes.
-/

set_option autoImplicit false

namespace BlockStyles

/-- A file as it is when it has just been read, in the slot of its identifier. All its
at-rules are pending. -/
def OpenFile.opened (id : Nat) (identifier : String) (sheet : Stylesheet) : OpenFile where
  id
  identifier
  name := Path.defaultBlockName identifier
  rules := sheet.rules
  pending := sheet.atRules
  references := []
  fillsSlot := true

/-- The file with one more reference. References are kept in the order in which they
have been answered. -/
def OpenFile.refer (file : OpenFile) (localName : String) (block : Block) : OpenFile :=
  { file with references := file.references ++ [(localName, block)] }

/-- Why a file that is looked up is refused. The reasons are checked in this order,
and each one comes with what the earlier checks have found. -/
inductive Request.Refused (config : Config) (library : Library) (waiting : List WaitingFile)
    (request : Request) : Cause → Prop where
  /-- The request comes through the file itself. -/
  | inChain (h : request.target ∈ Task.chain waiting) :
      Refused config library waiting request
        (.cyclicReference (Task.chain waiting ++ [request.target]))
  /-- The chain has its full length. -/
  | tooDeep (hnew : request.target ∉ Task.chain waiting)
      (h : config.maxDepth ≤ (Task.chain waiting).length) :
      Refused config library waiting request (.tooDeep config.maxDepth)
  /-- Waiting for the file would close a circle. -/
  | circle (walk : List String) (hnew : request.target ∉ Task.chain waiting)
      (hdepth : (Task.chain waiting).length < config.maxDepth)
      (hunknown : library.blockFor? request.target = none)
      (h : library.circle? (Task.chain waiting) request.target = some walk) :
      Refused config library waiting request (.cyclicReference walk)

/-- A file that is looked up has no block yet, and nothing speaks against waiting
for it. -/
structure Request.Claims (config : Config) (library : Library) (waiting : List WaitingFile)
    (request : Request) : Prop where
  new : request.target ∉ Task.chain waiting
  depth : (Task.chain waiting).length < config.maxDepth
  unknown : library.blockFor? request.target = none
  circle : library.circle? (Task.chain waiting) request.target = none

/-- Why a file cannot be imported. There is none of this identifier, or its source
cannot be read. -/
inductive Request.Unreadable (config : Config) (request : Request) : Error → Prop where
  | missing (h : config.source? request.target = none) :
      Unreadable config request (.located request.location (.missingFile request.target))
  | invalid (source : String) (fault : SyntaxError)
      (hsource : config.source? request.target = some source)
      (h : Stylesheet.ofSource source = .error fault) :
      Unreadable config request (.located ⟨request.target, fault.position⟩ (.unreadable fault))

/-- Why a file does not become a block. Two reasons are about a reference that it
makes, and the third one is about its rules, which are only looked at when no at-rule
is left. -/
inductive OpenFile.Faulty (file : OpenFile) : Error → Prop where
  | malformed (atRule : AtRule) (pending : List AtRule)
      (hpending : file.pending = atRule :: pending)
      (hname : atRule.name = BlockReference.atRuleName)
      (h : BlockReference.ofPrelude? atRule.prelude = none) :
      Faulty file
        (.located ⟨file.identifier, atRule.position⟩ (.malformedReference atRule.prelude))
  | repeated (atRule : AtRule) (pending : List AtRule) (reference : BlockReference)
      (hpending : file.pending = atRule :: pending)
      (hname : atRule.name = BlockReference.atRuleName)
      (hreference : BlockReference.ofPrelude? atRule.prelude = some reference)
      (h : (file.references.lookup reference.localName).isSome) :
      Faulty file
        (.located ⟨file.identifier, atRule.position⟩ (.repeatedAlias reference.localName))
  | unbuilt (error : Error) (hpending : file.pending = [])
      (h : Block.ofRules file.id file.name file.identifier file.references file.rules
        = .error error) :
      Faulty file error

/-- The next at-rule of a file is a reference under a new alias: the file behind it, the alias,
and what is asked for. -/
inductive OpenFile.Refers (config : Config) (file : OpenFile) :
    OpenFile → String → Request → Prop where
  | intro (atRule : AtRule) (pending : List AtRule) (reference : BlockReference)
      (hpending : file.pending = atRule :: pending)
      (hname : atRule.name = BlockReference.atRuleName)
      (hreference : BlockReference.ofPrelude? atRule.prelude = some reference)
      (hnew : file.references.lookup reference.localName = none) :
      Refers config file { file with pending } reference.localName
        ⟨Path.resolve (some file.identifier) reference.path config.root,
          ⟨file.identifier, atRule.position⟩⟩

namespace Task

/-- The outcomes of a step. They are grouped by the phase in which the step is taken;
the library and the task behind the step are given in full. -/
inductive Move (config : Config) (me : TaskId) (library : Library) :
    Task → Library → Task → Prop where
  | refused (waiting : List WaitingFile) (request : Request) (cause : Cause)
      (h : request.Refused config library waiting cause) :
      Move config me library ⟨waiting, .entering request⟩
        library ⟨waiting, .returning (.error (.located request.location cause))⟩
  | known (waiting : List WaitingFile) (request : Request) (block : Block)
      (hnew : request.target ∉ chain waiting) (hdepth : (chain waiting).length < config.maxDepth)
      (h : library.blockFor? request.target = some block) :
      Move config me library ⟨waiting, .entering request⟩
        library ⟨waiting, .returning (.ok block)⟩
  | found (waiting : List WaitingFile) (request : Request) (block : Block)
      (hclaims : request.Claims config library waiting)
      (h : ((library.waitFor waiting request.target).slot request.target).block = some block) :
      Move config me library ⟨waiting, .entering request⟩
        ((library.waitFor waiting request.target).release waiting)
        ⟨waiting, .returning (.ok block)⟩
  | takes (waiting : List WaitingFile) (request : Request)
      (hclaims : request.Claims config library waiting)
      (hblock : ((library.waitFor waiting request.target).slot request.target).block = none)
      (h : ((library.waitFor waiting request.target).slot request.target).filler = none) :
      Move config me library ⟨waiting, .entering request⟩
        ((library.waitFor waiting request.target).setSlot request.target
          { (library.waitFor waiting request.target).slot request.target with filler := some me })
        ⟨waiting, .importing request (config.delay request.target)⟩
  | queues (waiting : List WaitingFile) (request : Request) (other : TaskId)
      (hclaims : request.Claims config library waiting)
      (hblock : ((library.waitFor waiting request.target).slot request.target).block = none)
      (h : ((library.waitFor waiting request.target).slot request.target).filler = some other) :
      Move config me library ⟨waiting, .entering request⟩
        ((library.waitFor waiting request.target).setSlot request.target
          { (library.waitFor waiting request.target).slot request.target with
            queue := ((library.waitFor waiting request.target).slot request.target).queue ++ [me] })
        ⟨waiting, .queued request⟩
  | served (waiting : List WaitingFile) (request : Request) (block : Block)
      (h : (library.slot request.target).block = some block) :
      Move config me library ⟨waiting, .queued request⟩
        (library.release waiting) ⟨waiting, .returning (.ok block)⟩
  | called (waiting : List WaitingFile) (request : Request)
      (hblock : (library.slot request.target).block = none)
      (h : (library.slot request.target).filler = some me) :
      Move config me library ⟨waiting, .queued request⟩
        library ⟨waiting, .importing request (config.delay request.target)⟩
  | unreadable (waiting : List WaitingFile) (request : Request) (error : Error)
      (h : request.Unreadable config error) :
      Move config me library ⟨waiting, .importing request 0⟩
        ((library.handOver request.target).release waiting) ⟨waiting, .returning (.error error)⟩
  | opened (waiting : List WaitingFile) (request : Request) (source : String) (sheet : Stylesheet)
      (hsource : config.source? request.target = some source)
      (h : Stylesheet.ofSource source = .ok sheet) :
      Move config me library ⟨waiting, .importing request 0⟩
        { library with nextId := library.nextId + 1 }
        ⟨waiting, .compiling (.opened library.nextId request.target sheet)⟩
  | skipped (waiting : List WaitingFile) (file : OpenFile) (atRule : AtRule)
      (pending : List AtRule) (hpending : file.pending = atRule :: pending)
      (h : atRule.name ≠ BlockReference.atRuleName) :
      Move config me library ⟨waiting, .compiling file⟩
        library ⟨waiting, .compiling { file with pending }⟩
  | refers (waiting : List WaitingFile) (file after : OpenFile) (localName : String)
      (request : Request) (h : file.Refers config after localName request) :
      Move config me library ⟨waiting, .compiling file⟩
        library ⟨⟨after, localName⟩ :: waiting, .entering request⟩
  | faulty (waiting : List WaitingFile) (file : OpenFile) (error : Error)
      (h : file.Faulty error) :
      Move config me library ⟨waiting, .compiling file⟩
        (library.close waiting file (.error error)) ⟨waiting, .returning (.error error)⟩
  | built (waiting : List WaitingFile) (file : OpenFile) (block : Block)
      (hpending : file.pending = [])
      (h : Block.ofRules file.id file.name file.identifier file.references file.rules
        = .ok block) :
      Move config me library ⟨waiting, .compiling file⟩
        ((library.register block).close waiting file (.ok block)) ⟨waiting, .returning (.ok block)⟩
  | gained (waiting : List WaitingFile) (below : WaitingFile) (block : Block) :
      Move config me library ⟨below :: waiting, .returning (.ok block)⟩
        library ⟨waiting, .compiling (below.file.refer below.localName block)⟩
  | lost (waiting : List WaitingFile) (below : WaitingFile) (error : Error) :
      Move config me library ⟨below :: waiting, .returning (.error error)⟩
        (library.close waiting below.file (.error error)) ⟨waiting, .returning (.error error)⟩

variable (config : Config) (me : TaskId) (library : Library)

/-- Entering a file ends in one of six ways. The branches are followed in the order of
the checks. -/
private theorem move_of_enter (waiting : List WaitingFile) (request : Request) :
    Move config me library ⟨waiting, .entering request⟩
      (enter config me library waiting request).1 (enter config me library waiting request).2 := by
  unfold enter
  dsimp only
  split
  · rename_i h
    exact .refused _ _ _ (.inChain (List.contains_iff_mem.1 h))
  -- From here on every branch knows that all earlier checks have been passed.
  · rename_i hchain
    have hnew : request.target ∉ chain waiting := fun h => hchain (List.contains_iff_mem.2 h)
    split
    · rename_i h
      exact .refused _ _ _ (.tooDeep hnew h)
    · rename_i hdepth
      have hdepth := Nat.lt_of_not_le hdepth
      split
      · rename_i block h
        exact .known _ _ _ hnew hdepth h
      · rename_i hunknown
        split
        · rename_i walk h
          exact .refused _ _ _ (.circle walk hnew hdepth hunknown h)
        · rename_i hcircle
          have hclaims : request.Claims config library waiting := ⟨hnew, hdepth, hunknown, hcircle⟩
          unfold takeSlot
          dsimp only
          split
          · rename_i block _ h
            exact .found _ _ _ hclaims h
          · rename_i hblock h
            exact .takes _ _ hclaims hblock h
          · rename_i other hblock h
            exact .queues _ _ other hclaims hblock h

/-- Importing a file ends with an error or with the file open. The task is at the end
of its delay, so this step cannot be held up. -/
private theorem move_of_importFile (waiting : List WaitingFile) (request : Request) :
    Move config me library ⟨waiting, .importing request 0⟩
      (importFile config library waiting request).1
      (importFile config library waiting request).2 := by
  unfold importFile
  dsimp only
  split
  · rename_i h
    exact .unreadable _ _ _ (.missing h)
  · rename_i source hsource
    split
    · rename_i fault h
      exact .unreadable _ _ _ (.invalid source fault hsource h)
    · rename_i sheet h
      exact .opened _ _ source sheet hsource h

/-- One step of compiling a file passes an at-rule, takes up a reference, or ends the
work on the file. -/
private theorem move_of_compile (waiting : List WaitingFile) (file : OpenFile) :
    Move config me library ⟨waiting, .compiling file⟩
      (compile config library waiting file).1 (compile config library waiting file).2 := by
  unfold compile
  dsimp only
  split
  · rename_i hpending
    split
    · rename_i error h
      exact .faulty _ _ _ (.unbuilt error hpending h)
    · rename_i block h
      exact .built _ _ _ hpending h
  -- There are at-rules left, and the first of them is the one that is looked at.
  · rename_i atRule pending hpending
    split
    · rename_i h
      exact .skipped _ _ atRule pending hpending h
    · rename_i hname
      have hname := Decidable.not_not.1 hname
      split
      · rename_i h
        exact .faulty _ _ _ (.malformed atRule pending hpending hname h)
      · rename_i reference hreference
        split
        · rename_i h
          exact .faulty _ _ _ (.repeated atRule pending reference hpending hname hreference h)
        · rename_i h
          exact .refers _ _ _ _ _ (.intro atRule pending reference hpending hname hreference
            (Option.not_isSome_iff_eq_none.1 h))

/-- An answer is handed down to the file that waits for it. A block becomes a
reference of the file, and an error ends the work on it. -/
private theorem move_of_deliver (below : WaitingFile) (waiting : List WaitingFile)
    (answer : Except Error Block) :
    Move config me library ⟨below :: waiting, .returning answer⟩
      (deliver library below waiting answer).1 (deliver library below waiting answer).2 := by
  cases answer with
  | ok block => exact .gained _ _ _
  | error error => exact .lost _ _ _

variable {config : Config} {me : TaskId} {library : Library}

/-- A step is one of the moves. So whatever holds of all moves holds of all steps, and
nothing has to be unfolded again. -/
theorem move_of_step? {task task' : Task} {library' : Library}
    (h : task.step? config me library = some (library', task')) :
    Move config me library task library' task' := by
  obtain ⟨waiting, phase⟩ := task
  cases phase with
  | entering request =>
    have hmove := move_of_enter config me library waiting request
    rwa [Option.some.inj h] at hmove
  | importing request delay =>
    cases delay with
    | zero =>
      have hmove := move_of_importFile config me library waiting request
      rwa [Option.some.inj h] at hmove
    -- A delay is not a step: it goes by in rounds.
    | succ delay => cases h
  | queued request =>
    simp only [step?] at h
    split at h
    · rename_i block hblock
      cases h
      exact .served _ _ _ hblock
    · rename_i hblock
      split at h
      · rename_i hturn
        cases h
        exact .called _ _ hblock hturn
      · cases h
  | compiling file =>
    have hmove := move_of_compile config me library waiting file
    rwa [Option.some.inj h] at hmove
  | returning answer =>
    cases waiting with
    -- A task with an answer takes no more steps.
    | nil => cases h
    | cons below waiting =>
      have hmove := move_of_deliver config me library below waiting answer
      rwa [Option.some.inj h] at hmove

end Task

end BlockStyles
