import BlockStyles.Block.Build
import BlockStyles.Library.Waiting
import BlockStyles.Path
import BlockStyles.Stylesheet.BlockReference
import BlockStyles.Stylesheet.Reader

/-!
# `BlockStyles.Library.Task`: loading a block step by step

A task works on one request. Compiling a file can need other files, so a task
holds a stack of files that wait for a reference, and one phase of work at the
top of it: looking a file up, waiting to import it, standing in the queue of
its slot, compiling it, or carrying an answer back to the file below.

`Task.step?` is one step of this work. There is none while a task is blocked,
that is during the delay of an import and in a queue, and none when its answer
has come all the way.
-/

set_option autoImplicit false

namespace BlockStyles

/-- A file that is being compiled. -/
structure OpenFile where
  /-- The id that its block will have. -/
  id : Nat
  identifier : String
  name : String
  rules : List Rule
  /-- The at-rules that have not been looked at yet. -/
  pending : List AtRule
  /-- The references that have been loaded, by alias. -/
  references : List (String × Block)
  /-- Whether the slot of the file waits for the block. -/
  fillsSlot : Bool
deriving Inhabited

/-- A file that waits for a reference which it will know by an alias. -/
structure WaitingFile where
  file : OpenFile
  localName : String

/-- A file that is asked for, and the place to name if it cannot be had. -/
structure Request where
  target : String
  location : Location
deriving DecidableEq

/-- What a task is doing. -/
inductive Phase where
  /-- Looks the file up. -/
  | entering (request : Request)
  /-- Imports the file after some more rounds. -/
  | importing (request : Request) (delay : Nat)
  /-- Stands in the queue of the file's slot. -/
  | queued (request : Request)
  /-- Compiles a file. -/
  | compiling (file : OpenFile)
  /-- Brings an answer to the file below, or to whoever started the task. -/
  | returning (answer : Except Error Block)

/-- A request under way. -/
structure Task where
  /-- The files that wait, the innermost first. -/
  waiting : List WaitingFile
  phase : Phase

namespace Task

/-- A task for a block. -/
def get (config : Config) (reference : String) : Task :=
  let target := Path.resolve none reference config.root
  ⟨[], .entering ⟨target, .ofFile target⟩⟩

/-- The answer, once it has come all the way. -/
def answer? (task : Task) : Option (Except Error Block) :=
  match task.waiting, task.phase with
  | [], .returning answer => some answer
  | _, _ => none

/-- The chain of files that the request comes through, the outermost first. -/
def chain (waiting : List WaitingFile) : List String :=
  (waiting.map (·.file.identifier)).reverse

end Task

/-! ### Slots -/

namespace Library

/-- The file below, if there is one, no longer waits. -/
def release (library : Library) (waiting : List WaitingFile) : Library :=
  match waiting with
  | [] => library
  | below :: _ => library.setAwaiting below.file.identifier none

/-- The file below, if there is one, waits for a file, which gets a slot if it
has none. -/
def waitFor (library : Library) (waiting : List WaitingFile) (target : String) : Library :=
  let library :=
    match waiting with
    | [] => library
    | below :: _ => library.setAwaiting below.file.identifier (some target)
  match library.slot? target with
  | some _ => library
  | none => library.setSlot target .unused

/-- Ends the work on a file: an outcome for its slot is put there, and whoever
waits below is released. -/
def close (library : Library) (waiting : List WaitingFile) (file : OpenFile)
    (answer : Except Error Block) : Library :=
  if file.fillsSlot then
    let library :=
      match answer with
      | .ok block => library.fill file.identifier block
      | .error _ => library.handOver file.identifier
    library.release waiting
  else
    library

end Library

/-! ### Steps -/

namespace Task

/-- Takes a file's slot, or a place in its queue, or the block that is there. -/
def takeSlot (config : Config) (me : TaskId) (library : Library) (waiting : List WaitingFile)
    (request : Request) : Library × Task :=
  -- From here on the file below counts as waiting, whatever the slot holds.
  let library := library.waitFor waiting request.target
  let slot := library.slot request.target
  match slot.block, slot.filler with
  | some block, _ => (library.release waiting, ⟨waiting, .returning (.ok block)⟩)
  | none, none =>
    (library.setSlot request.target { slot with filler := some me },
      ⟨waiting, .importing request (config.delay request.target)⟩)
  | none, some _ =>
    (library.setSlot request.target { slot with queue := slot.queue ++ [me] },
      ⟨waiting, .queued request⟩)

/-- Looks a file up. A file of the chain closes a circle; a chain of the full
length must not grow; a finished block is the answer; and otherwise the file's
slot decides, unless waiting for it would close a circle. -/
def enter (config : Config) (me : TaskId) (library : Library) (waiting : List WaitingFile)
    (request : Request) : Library × Task :=
  let chain := chain waiting
  let fail (cause : Cause) : Library × Task :=
    (library, ⟨waiting, .returning (.error (.located request.location cause))⟩)
  if chain.contains request.target then
    fail (.cyclicReference (chain ++ [request.target]))
  else if config.maxDepth ≤ chain.length then
    fail (.tooDeep config.maxDepth)
  else
    match library.blockFor? request.target with
    | some block => (library, ⟨waiting, .returning (.ok block)⟩)
    | none =>
      match library.circle? chain request.target with
      | some walk => fail (.cyclicReference walk)
      | none => takeSlot config me library waiting request

/-- Imports a file. If it cannot be read, its slot goes to the next in the queue. -/
def importFile (config : Config) (library : Library) (waiting : List WaitingFile)
    (request : Request) : Library × Task :=
  let fail (error : Error) : Library × Task :=
    ((library.handOver request.target).release waiting, ⟨waiting, .returning (.error error)⟩)
  match config.source? request.target with
  | none => fail (.located request.location (.missingFile request.target))
  | some source =>
    match Stylesheet.ofSource source with
    | .error fault => fail (.located ⟨request.target, fault.position⟩ (.unreadable fault))
    | .ok sheet =>
      -- Only a source that can be read takes an id, and takes it before its references do.
      let file : OpenFile :=
        { id := library.nextId
          identifier := request.target
          name := Path.defaultBlockName request.target
          rules := sheet.rules
          pending := sheet.atRules
          references := []
          fillsSlot := true }
      ({ library with nextId := library.nextId + 1 }, ⟨waiting, .compiling file⟩)

/-- Goes on with a file: looks at its next at-rule, or builds the block when
there is none left. -/
def compile (config : Config) (library : Library) (waiting : List WaitingFile)
    (file : OpenFile) : Library × Task :=
  let finish (library : Library) (answer : Except Error Block) : Library × Task :=
    (library.close waiting file answer, ⟨waiting, .returning answer⟩)
  match file.pending with
  | [] =>
    match Block.ofRules file.id file.name file.identifier file.references file.rules with
    | .error error => finish library (.error error)
    | .ok block => finish (library.register block) (.ok block)
  | atRule :: pending =>
    let location : Location := ⟨file.identifier, atRule.position⟩
    -- Any other at-rule means nothing to a block.
    if atRule.name ≠ BlockReference.atRuleName then
      (library, ⟨waiting, .compiling { file with pending }⟩)
    else
      match BlockReference.ofPrelude? atRule.prelude with
      | none => finish library (.error (.located location (.malformedReference atRule.prelude)))
      | some reference =>
        if (file.references.lookup reference.localName).isSome then
          finish library (.error (.located location (.repeatedAlias reference.localName)))
        else
          let target := Path.resolve (some file.identifier) reference.path config.root
          (library,
            ⟨⟨{ file with pending }, reference.localName⟩ :: waiting, .entering ⟨target, location⟩⟩)

/-- Brings an answer to the file below: a block becomes its reference, an error
ends the work on it too. -/
def deliver (library : Library) (below : WaitingFile) (waiting : List WaitingFile)
    (answer : Except Error Block) : Library × Task :=
  match answer with
  | .ok block =>
    (library,
      ⟨waiting,
        .compiling
          { below.file with references := below.file.references ++ [(below.localName, block)] }⟩)
  | .error error =>
    (library.close waiting below.file (.error error), ⟨waiting, .returning (.error error)⟩)

/-- One step of a task that is neither blocked nor done. -/
def step? (config : Config) (me : TaskId) (library : Library) (task : Task) :
    Option (Library × Task) :=
  match task.phase with
  | .entering request => some (enter config me library task.waiting request)
  | .importing request 0 => some (importFile config library task.waiting request)
  | .importing _ (_ + 1) => none
  | .queued request =>
    let slot := library.slot request.target
    match slot.block with
    | some block => some (library.release task.waiting, ⟨task.waiting, .returning (.ok block)⟩)
    | none =>
      -- A slot is handed over to the first in its queue, who then starts all over.
      if slot.filler = some me then
        some (library, ⟨task.waiting, .importing request (config.delay request.target)⟩)
      else
        none
  | .compiling file => some (compile config library task.waiting file)
  | .returning answer =>
    match task.waiting with
    | [] => none
    | below :: waiting => some (deliver library below waiting answer)

end Task

end BlockStyles
