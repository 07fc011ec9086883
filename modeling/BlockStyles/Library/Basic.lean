import BlockStyles.Block.Basic
import BlockStyles.SortedList

/-!
# `BlockStyles.Library.Basic`: the blocks of a set of files

A library turns files into blocks, each file once. It keeps the finished blocks
by id and by identifier, and for every file that has been asked for a *slot*.
The task that fills the slot imports the file; tasks that want the same file
stand in the queue of the slot until it is filled or their turn comes to fill it.
While a file is being compiled its slot also says which file it waits for.
-/

set_option autoImplicit false

namespace BlockStyles

/-- The files of a library, and how they are loaded. -/
structure Config where
  /-- The source of each file, by identifier. -/
  files : List (String × String)
  /-- The directory that references start from. -/
  root : String
  /-- How many files a chain of references may have. -/
  maxDepth : Nat
  /-- For how many rounds the import of a file is delayed. -/
  delays : List (String × Nat)

namespace Config

/-- The source of a file. -/
def source? (config : Config) (identifier : String) : Option String :=
  config.files.lookup identifier

/-- For how many rounds the import of a file is delayed. -/
def delay (config : Config) (identifier : String) : Nat :=
  (config.delays.lookup identifier).getD 0

end Config

/-- A task is named by its place among the tasks that run together. -/
abbrev TaskId : Type := Nat

/-- The state of the loading of a file. -/
structure Slot where
  /-- The block of the file, once it is there. -/
  block : Option Block
  /-- The task whose turn it is to import the file. -/
  filler : Option TaskId
  /-- The tasks that wait for the block, first come first. -/
  queue : List TaskId
  /-- The file that this one waits for. -/
  awaiting : Option String
deriving Inhabited

/-- A slot that nothing has happened to. -/
def Slot.unused : Slot := ⟨none, none, [], none⟩

/-- What has been loaded, and what is under way. -/
structure Library where
  /-- The id that the next block gets. -/
  nextId : Nat
  /-- The finished blocks, by id. -/
  finished : SortedList Block.id
  /-- For each identifier the block that was finished last. -/
  bound : SortedList (Prod.fst : String × Block → String)
  /-- The slots of the files that have been asked for. -/
  slots : SortedList (Prod.fst : String × Slot → String)
deriving Inhabited

namespace Library

/-- Nothing loaded yet. -/
def empty : Library := ⟨1, .empty, .empty, .empty⟩

/-- The finished block of an identifier. -/
def blockFor? (library : Library) (identifier : String) : Option Block :=
  (library.bound.find? identifier).map Prod.snd

/-- The finished block of an id. -/
def block? (library : Library) (id : Nat) : Option Block :=
  library.finished.find? id

/-- All finished blocks, by id. -/
def blocks (library : Library) : List Block :=
  library.finished.toList

/-- Keeps a finished block. It takes the place of another one of the same identifier. -/
def register (library : Library) (block : Block) : Library :=
  { library with
    finished := library.finished.insert block
    bound := library.bound.insert (block.identifier, block) }

/-- The slot of a file. -/
def slot? (library : Library) (identifier : String) : Option Slot :=
  (library.slots.find? identifier).map Prod.snd

/-- The slot of a file, or an unused one. -/
def slot (library : Library) (identifier : String) : Slot :=
  (library.slot? identifier).getD .unused

/-- Replaces the slot of a file. -/
def setSlot (library : Library) (identifier : String) (slot : Slot) : Library :=
  { library with slots := library.slots.insert (identifier, slot) }

/-- Notes what a file waits for, if the file has a slot. -/
def setAwaiting (library : Library) (identifier : String) (awaiting : Option String) : Library :=
  match library.slot? identifier with
  | some slot => library.setSlot identifier { slot with awaiting }
  | none => library

/-- Puts the block of a file into its slot. Nobody has to queue for it any more. -/
def fill (library : Library) (identifier : String) (block : Block) : Library :=
  library.setSlot identifier
    { library.slot identifier with block := some block, filler := none, queue := [] }

/-- Gives the slot of a file, whose filler has failed, to the first task in the queue. -/
def handOver (library : Library) (identifier : String) : Library :=
  let slot := library.slot identifier
  library.setSlot identifier { slot with filler := slot.queue.head?, queue := slot.queue.tail }

end Library

end BlockStyles
