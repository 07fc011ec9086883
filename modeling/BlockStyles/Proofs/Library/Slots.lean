import BlockStyles.Library.Task
import BlockStyles.Proofs.SortedList

/-!
# `BlockStyles.Proofs.Library.Slots`: what the operations on slots change

`Library.slot` gives every file a slot, an unused one if nobody has asked for
the file. Each operation on slots changes this function at one file or two; it
leaves the finished blocks alone. `Library.register` does the opposite.

* `slot_setSlot`, `slot_handOver`, `slot_fill`: the slot of one file changes.
* `slot_release`, `slot_waitFor`: only what the innermost waiting file waits for changes.
* `SameBlocks`: what all of these leave alone.
* `blockFor?_register`: a registered block is bound to its identifier.
* `lookup_waits`: the edges that a trail follows are what the slots say.
-/

set_option autoImplicit false

namespace BlockStyles

/-- Those whose business the slot is: the task whose turn it is, and the queue
behind it. -/
def Slot.line (slot : Slot) : List TaskId :=
  slot.filler.toList ++ slot.queue

namespace Library

/-- The identifier of the innermost waiting file. It is the one whose slot says what
is waited for. -/
def innermost? (waiting : List WaitingFile) : Option String :=
  waiting.head?.map (·.file.identifier)

/-- It is one of the waiting files. Files wait in a pile, and the innermost is on top
of it. -/
theorem mem_of_innermost? {waiting : List WaitingFile} {file : String}
    (h : innermost? waiting = some file) : file ∈ waiting.map (·.file.identifier) := by
  obtain ⟨w, hw, rfl⟩ := Option.map_eq_some_iff.1 h
  exact List.mem_map_of_mem (List.mem_of_head? hw)

variable (library : Library) (waiting : List WaitingFile) (file target : String)

/-! ### Reading slots -/

/-- At first no slot is in use. -/
@[simp]
theorem slot_empty : empty.slot file = .unused := rfl

/-- Writing a slot changes that of one file. All the operations on slots are written
with it, so their lemmas come from this one. -/
theorem slot_setSlot (slot : Slot) (f : String) :
    (library.setSlot file slot).slot f = if f = file then slot else library.slot f := by
  simp only [Library.slot, slot?, setSlot, SortedList.find?_insert]
  by_cases h : file = f
  · simp [h]
  · simp [h, Ne.symm h]

/-- As a change at one file that changes nothing. It brings a library that is the same
into the form in which changes are spoken of. -/
theorem slot_self (f : String) :
    library.slot f = if f = file then library.slot file else library.slot f := by
  split
  · rename_i hf
    rw [hf]
  · rfl

/-- The slot that a file has is the one that is found. -/
theorem slot?_eq_some {slot : Slot} (h : library.slot? file = some slot) :
    library.slot file = slot := by
  simp [Library.slot, h]

/-- A file without a slot counts as having an unused one. -/
theorem slot_eq_unused (h : library.slot? file = none) : library.slot file = .unused := by
  simp [Library.slot, h]

/-- Nobody has to have asked for a file that stops to wait. If it has no slot, there
is nothing to take back. -/
theorem slot_setAwaiting_none (f : String) :
    (library.setAwaiting file none).slot f
      = if f = file then { library.slot file with awaiting := none } else library.slot f := by
  unfold setAwaiting
  split
  · rename_i slot h
    rw [slot_setSlot, slot?_eq_some library file h]
  -- Nothing is written down, and an unused slot awaits nothing as it is.
  · rename_i h
    by_cases hf : f = file
    · simp [hf, slot_eq_unused library file h, Slot.unused]
    · simp [hf]

/-- A file that begins to wait needs a slot to say so. Without one the mark is not
made, so this is asked for. -/
theorem slot_setAwaiting_some (h : library.slot file ≠ .unused) (f : String) :
    (library.setAwaiting file (some target)).slot f
      = if f = file then { library.slot file with awaiting := some target }
        else library.slot f := by
  unfold setAwaiting
  split
  · rename_i slot hslot
    rw [slot_setSlot, slot?_eq_some library file hslot]
  · rename_i hnone
    exact absurd (slot_eq_unused library file hnone) h

/-- Whether the file has a slot or not, nothing else changes. This is for places where
it is not known. -/
theorem slot_setAwaiting_cases (awaiting : Option String) (f : String) :
    (library.setAwaiting file awaiting).slot f = library.slot f
      ∨ file = f ∧ (library.setAwaiting file awaiting).slot f
        = { library.slot f with awaiting } := by
  unfold setAwaiting
  split
  · rename_i slot h
    rw [slot_setSlot]
    split
    · rename_i hf
      subst hf
      exact .inr ⟨rfl, by rw [slot?_eq_some library f h]⟩
    · exact .inl rfl
  · exact .inl rfl

/-- Giving up the wait takes the mark from the slot of the innermost file. Without a
file that waits there is no mark to take. -/
theorem slot_release (f : String) :
    (library.release waiting).slot f
      = if innermost? waiting = some f then { library.slot f with awaiting := none }
        else library.slot f := by
  cases waiting with
  | nil => simp [release, innermost?]
  | cons below waiting =>
    simp only [release, slot_setAwaiting_none, innermost?,
      List.head?_cons, Option.map_some, Option.some.injEq]
    by_cases h : f = below.file.identifier
    · subst h
      simp
    · simp [h, Ne.symm h]

/-- Making an unused slot does not show, since a file without one counts as having it. -/
theorem slot_setSlot_unused (h : library.slot? target = none) (f : String) :
    (library.setSlot target .unused).slot f = library.slot f := by
  rw [slot_setSlot]
  split
  · rename_i hf
    rw [hf, slot_eq_unused library target h]
  · rfl

/-- Where no file waits, nothing changes. There is no file that could be marked as
waiting. -/
theorem slot_waitFor_nil (f : String) : (library.waitFor [] target).slot f = library.slot f := by
  unfold waitFor
  dsimp only
  split
  · rfl
  · rename_i hnone
    exact slot_setSlot_unused _ _ hnone f

/-- The target may get an unused slot, which does not show. What shows is the mark at
the file that waits. -/
theorem slot_waitFor_cons (below : WaitingFile) (f : String) :
    (library.waitFor (below :: waiting) target).slot f
      = (library.setAwaiting below.file.identifier (some target)).slot f := by
  unfold waitFor
  dsimp only
  split
  · rfl
  · rename_i hnone
    exact slot_setSlot_unused _ _ hnone f

/-- Beginning to wait puts a mark into the slot of the innermost file, which must be
in use. -/
theorem slot_waitFor (f : String)
    (h : ∀ below, innermost? waiting = some below → library.slot below ≠ .unused) :
    (library.waitFor waiting target).slot f
      = if innermost? waiting = some f then { library.slot f with awaiting := some target }
        else library.slot f := by
  cases waiting with
  | nil => simp [slot_waitFor_nil, innermost?]
  | cons below waiting =>
    have hbelow := h below.file.identifier rfl
    simp only [slot_waitFor_cons, slot_setAwaiting_some _ _ _ hbelow, innermost?,
      List.head?_cons, Option.map_some, Option.some.injEq]
    by_cases hf : f = below.file.identifier
    · subst hf
      simp
    · simp [hf, Ne.symm hf]

/-- Whether or not the innermost file has a slot, nothing else changes. The mark says
which file is waited for. It is set only where there is a slot to set it in. -/
theorem slot_waitFor_cases (f : String) :
    (library.waitFor waiting target).slot f = library.slot f
      ∨ innermost? waiting = some f ∧ (library.waitFor waiting target).slot f
        = { library.slot f with awaiting := some target } := by
  cases waiting with
  | nil => exact .inl (library.slot_waitFor_nil target f)
  | cons below waiting =>
    rw [slot_waitFor_cons]
    exact (library.slot_setAwaiting_cases below.file.identifier (some target) f).imp_right
      (And.imp_left (congrArg some))

/-- When a block goes into a slot, its line ends, and what the file waits for stays.
The mark is taken away by a release, which comes after it. -/
theorem slot_fill (block : Block) (f : String) :
    (library.fill file block).slot f
      = if f = file then
          { library.slot file with block := some block, filler := none, queue := [] }
        else library.slot f :=
  slot_setSlot library file _ f

/-- When a slot is handed over, the first of its queue becomes the filler. Without a
queue the slot is free again. -/
theorem slot_handOver (f : String) :
    (library.handOver file).slot f
      = if f = file then
          { library.slot file with
            filler := (library.slot file).queue.head?, queue := (library.slot file).queue.tail }
        else library.slot f :=
  slot_setSlot library file _ f

/-! ### What stays -/

/-- The finished blocks are the same, in the slots and elsewhere, and so is the id that the next
block gets. -/
structure SameBlocks (library library' : Library) : Prop where
  finished : library'.finished = library.finished
  bound : library'.bound = library.bound
  nextId : library'.nextId = library.nextId
  slot : ∀ f, (library'.slot f).block = (library.slot f).block

namespace SameBlocks

variable {library} {library' library'' : Library}

/-- A library has the blocks that it has. -/
theorem refl : library.SameBlocks library := ⟨rfl, rfl, rfl, fun _ => rfl⟩

/-- Two operations that change no blocks change none together. So it can be shown of
each operation on its own. -/
theorem trans (h : library.SameBlocks library') (h' : library'.SameBlocks library'') :
    library.SameBlocks library'' where
  finished := h'.finished.trans h.finished
  bound := h'.bound.trans h.bound
  nextId := h'.nextId.trans h.nextId
  slot f := (h'.slot f).trans (h.slot f)

/-- The registered blocks are the same. -/
theorem blocks (h : library.SameBlocks library') : library'.blocks = library.blocks :=
  congrArg SortedList.toList h.finished

/-- What is bound is the same. -/
theorem blockFor? (h : library.SameBlocks library') (f : String) :
    library'.blockFor? f = library.blockFor? f := by
  rw [Library.blockFor?, h.bound, Library.blockFor?]

end SameBlocks

/-- Writing a slot changes no blocks, if the block in it stays. Filler, queue and mark
may change in any way. -/
theorem sameBlocks_setSlot {slot : Slot} (h : slot.block = (library.slot file).block) :
    library.SameBlocks (library.setSlot file slot) := by
  refine ⟨rfl, rfl, rfl, fun f => ?_⟩
  rw [slot_setSlot]
  split
  · rename_i hf
    rw [hf, h]
  · rfl

/-- Handing a slot over changes no blocks. It is about who may fill the slot next. -/
theorem sameBlocks_handOver : library.SameBlocks (library.handOver file) :=
  library.sameBlocks_setSlot file rfl

/-- Marking what a file waits for changes no blocks. -/
theorem sameBlocks_setAwaiting (awaiting : Option String) :
    library.SameBlocks (library.setAwaiting file awaiting) := by
  unfold setAwaiting
  split
  · rename_i slot hslot
    refine library.sameBlocks_setSlot file ?_
    rw [library.slot?_eq_some file hslot]
  · exact .refl

/-- Giving up a wait changes no blocks. Only a mark in the slot of the innermost file
changes. -/
theorem sameBlocks_release : library.SameBlocks (library.release waiting) := by
  cases waiting with
  | nil => exact .refl
  | cons below waiting => exact library.sameBlocks_setAwaiting _ none

/-- Beginning to wait changes no blocks. The slot that the target may get has none.
This is part of every step that asks for a file. -/
theorem sameBlocks_waitFor : library.SameBlocks (library.waitFor waiting target) := by
  -- A slot that is created is empty, as is the one that is read where there is none.
  have hcreate : ∀ l : Library, l.slot? target = none →
      l.SameBlocks (l.setSlot target .unused) := by
    intro l hnone
    refine l.sameBlocks_setSlot target ?_
    rw [l.slot_eq_unused target hnone]
  unfold waitFor
  cases waiting with
  | nil =>
    dsimp only
    split
    · exact .refl
    · rename_i hnone
      exact hcreate _ hnone
  | cons below waiting =>
    have hawaits := library.sameBlocks_setAwaiting below.file.identifier (some target)
    dsimp only
    split
    · exact hawaits
    · rename_i hnone
      exact hawaits.trans (hcreate _ hnone)

/-- The end of the work on a file, for an error, changes no blocks. The slot is handed
over to the next in line, which has to begin anew. -/
theorem sameBlocks_close_error (file : OpenFile) (error : Error) :
    library.SameBlocks (library.close waiting file (.error error)) := by
  unfold close
  split
  · exact (library.sameBlocks_handOver file.identifier).trans (sameBlocks_release _ waiting)
  · exact .refl

/-- A file that is finished gets its block into its slot. What else is done then
changes no blocks. -/
theorem sameBlocks_close_ok {file : OpenFile} (h : file.fillsSlot) (block : Block) :
    (library.fill file.identifier block).SameBlocks (library.close waiting file (.ok block)) := by
  rw [close, if_pos h]
  exact sameBlocks_release _ waiting

/-! ### Finished blocks -/

/-- A registered block is bound to its identifier, whatever has been bound to it
before. -/
theorem blockFor?_register (block : Block) (f : String) :
    (library.register block).blockFor? f
      = if block.identifier = f then some block else library.blockFor? f := by
  simp only [blockFor?, register, SortedList.find?_insert]
  split <;> rfl

/-- A registered block comes to the others, and replaces one of the same id if there
is one. -/
theorem mem_blocks_register {block b : Block} :
    b ∈ (library.register block).blocks ↔ b = block ∨ b ∈ library.blocks ∧ b.id ≠ block.id :=
  SortedList.mem_insert_iff

/-! ### Edges -/

/-- A file that waits for another one says so in its slot, and the edges along which a
circle is looked for are made from the slots. -/
theorem lookup_waits : library.waits.lookup file = (library.slot file).awaiting := by
  -- On both sides the first entry of the file decides, which is the only one.
  have hlist : ∀ l : List (String × Slot), (l.map Prod.fst).Nodup →
      (l.filterMap fun entry => entry.2.awaiting.map (entry.1, ·)).lookup file
        = ((l.find? fun entry => compare entry.1 file == .eq).map Prod.snd).bind Slot.awaiting := by
    intro l hl
    induction l with
    | nil => rfl
    | cons entry l ih =>
      obtain ⟨f, slot⟩ := entry
      obtain ⟨hf, hl⟩ := List.nodup_cons.1 hl
      by_cases h : f = file
      · subst h
        cases hawait : slot.awaiting with
        | some next => simp [hawait]
        -- The entry gives no edge, and no other entry is about the file.
        | none =>
          have hnone : (l.find? fun entry => compare entry.1 f == .eq) = none := by
            rw [List.find?_eq_none]
            intro entry hentry heq
            have : entry.1 = f := by simpa using heq
            exact hf (List.mem_map.2 ⟨entry, hentry, this⟩)
          simp [hawait, ih hl, hnone]
      · have hb : (file == f) = false := beq_false_of_ne (Ne.symm h)
        cases hawait : slot.awaiting with
        | some next => simp [hawait, ih hl, List.lookup_cons, h, hb]
        | none => simp [hawait, ih hl, h]
  have := hlist library.slots.toList library.slots.nodup_keys
  rw [waits, this]
  simp only [Library.slot, slot?, SortedList.find?]
  cases library.slots.toList.find? fun entry => compare entry.1 file == .eq <;> rfl

end Library

end BlockStyles
