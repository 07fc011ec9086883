import BlockStyles.Proofs.Library.Consistent
import Mathlib.Data.List.Sort

/-!
# `BlockStyles.Proofs.Library.Openings`: the order of the blocks

The blocks of a library are listed by their ids. A file gets its id when it is opened, and its
block is registered when the file has been finished; in between lies the loading of all that it
refers to. So the list is in the order in which files have been opened, and this is not the order
in which the blocks have been registered: a block is registered after the blocks it refers to, but
it is listed before each of them that has been opened for its sake.

* `Workshop.Opened`: the ids of files in the order in which they have been opened.
* `Workshop.Step.opens`: a step opens one file, under the next id, or none.
* `Workshop.Opened.counted`: so ids have been given out in the order of opening, all through a run.
* `Workshop.blocks_by_opening`: blocks are listed in this order.
* `Workshop.blocks_not_by_registration`: it can be opposite to that of registration.
-/

set_option autoImplicit false

namespace BlockStyles

/-- Of two lists in ascending order one is part of the other if its members are. No
rank occurs twice, so nothing else can come between. -/
theorem sublist_of_ascending {α : Type} {rank : α → Nat} {part whole : List α}
    (hpart : part.Pairwise fun a b => rank a < rank b)
    (hwhole : whole.Pairwise fun a b => rank a < rank b) (h : part ⊆ whole) :
    part.Sublist whole := by
  have : Std.Antisymm fun a b : α => rank a < rank b :=
    ⟨fun a b hab hba => absurd hab (Nat.lt_asymm hba)⟩
  have hnodup : part.Nodup := hpart.imp fun {a b} hlt (heq : a = b) =>
    Nat.lt_irrefl _ (heq ▸ hlt)
  exact List.sublist_of_subperm_of_pairwise (List.subperm_of_subset hnodup h) hpart hwhole

/-- In a list in ascending order one member stands before another if it is lower. The
arena is in ascending order of ids, and lists of blocks are compared as sublists. -/
theorem pair_sublist_iff {α : Type} {rank : α → Nat} {l : List α} {a b : α}
    (h : l.Pairwise fun a b => rank a < rank b) (ha : a ∈ l) (hb : b ∈ l) :
    [a, b].Sublist l ↔ rank a < rank b := by
  constructor
  · intro hsublist
    simpa using h.sublist hsublist
  · intro hlt
    exact sublist_of_ascending (by simpa using hlt) h (by simp [ha, hb])

namespace Workshop

/-- The ids of the files that are open, over all tasks. -/
def openIds (workshop : Workshop) : List Nat :=
  workshop.tasks.flatMap Task.ids

/-- The ids in use are those of the registered blocks and those of open files. Both
parts have to be among the ids that have been given out. -/
theorem ids_eq (workshop : Workshop) :
    workshop.ids = workshop.registered.map Block.id ++ workshop.openIds :=
  rfl

/-- The ids of files that are open later on and are not open yet. For a single step
there is one of them at most. -/
def newIds (workshop after : Workshop) : List Nat :=
  after.openIds.filter (· ∉ workshop.openIds)

/-- The workshop has come about in such a way that files have been opened in this
order. The history is read off the states: a file has been opened when its id is among
the open ones for the first time. -/
inductive Opened (config : Config) : List Nat → Workshop → Prop where
  | start : Opened config [] start
  | step {opened : List Nat} {workshop after : Workshop} (h : Opened config opened workshop)
      (hstep : Step config workshop after) :
      Opened config (opened ++ workshop.newIds after) after

variable {config : Config} {workshop after : Workshop} {opened : List Nat}

/-- A workshop with a history is reachable. The list of ids only records what has
happened and keeps nothing from happening. -/
theorem Opened.reachable (h : Opened config opened workshop) : Reachable config workshop := by
  induction h with
  | start => exact .refl
  | step _ hstep ih => exact ih.tail hstep

/-- Every reachable workshop has a history. The ids are collected step by step, in the
order in which they were given out. -/
theorem exists_opened (h : Reachable config workshop) :
    ∃ opened, Opened config opened workshop := by
  induction h with
  | refl => exact ⟨[], .start⟩
  | tail _ hstep ih =>
    obtain ⟨opened, hopened⟩ := ih
    exact ⟨_, hopened.step hstep⟩

/-! ### What a step opens -/

/-- If no other file is open than before, no file has been opened. This is so of all
steps but those that open a file or take a stylesheet in. -/
theorem newIds_eq_nil (h : after.openIds ⊆ workshop.openIds) : workshop.newIds after = [] := by
  rw [newIds, List.filter_eq_nil_iff]
  intro id hid
  simpa using h hid

/-- What a step can do to ids: no file is opened, or one is, under the next id. In
both cases nothing else comes into use. -/
inductive Opens (workshop after : Workshop) : Prop where
  | none (hnew : workshop.newIds after = []) (hids : after.ids ⊆ workshop.ids)
      (hnext : after.library.nextId = workshop.library.nextId)
  | one (hnew : workshop.newIds after = [workshop.library.nextId])
      (hids : after.ids ⊆ workshop.library.nextId :: workshop.ids)
      (hnext : after.library.nextId = workshop.library.nextId + 1)

/-- No file is opened, and a block is registered for a file that is open. Its id has
been in use, as the id of the file. -/
theorem Opens.of_quiet (hopen : after.openIds ⊆ workshop.openIds)
    (hregistered : ∀ block ∈ after.registered, block ∈ workshop.registered ∨
      block.id ∈ workshop.openIds)
    (hnext : after.library.nextId = workshop.library.nextId) : Opens workshop after := by
  refine .none (newIds_eq_nil hopen) (fun id hid => ?_) hnext
  rw [ids_eq, List.mem_append] at hid ⊢
  rcases hid with hid | hid
  · obtain ⟨block, hblock, rfl⟩ := List.mem_map.1 hid
    exact (hregistered block hblock).imp_left List.mem_map_of_mem
  · exact .inr (hopen hid)

/-- A file more is open, and nothing else has happened. The next id is the id of no open
file, since all of them are lower. -/
theorem Opens.of_opened (h : workshop.Kept) {front back : List Nat}
    (hbefore : workshop.openIds = front ++ back)
    (hafter : after.openIds = front ++ workshop.library.nextId :: back)
    (hregistered : after.registered = workshop.registered)
    (hnext : after.library.nextId = workshop.library.nextId + 1) : Opens workshop after := by
  have hopened : ∀ id ∈ workshop.openIds, id < workshop.library.nextId := fun id hid =>
    h.below id (workshop.ids_eq ▸ List.mem_append_right _ hid)
  have hids : after.ids.Perm (workshop.library.nextId :: workshop.ids) := by
    rw [ids_eq, ids_eq, hregistered, hafter, hbefore]
    exact (List.perm_middle.append_left _).trans List.perm_middle
  refine .one ?_ hids.subset hnext
  -- Of the files that are open now only the new one was not open before.
  rw [newIds, hafter, List.filter_append, List.filter_cons_of_pos,
    List.filter_eq_nil_iff.2, List.filter_eq_nil_iff.2, List.nil_append]
  · intro id hid
    simp [hbefore, hid]
  · intro id hid
    simp [hbefore, hid]
  · exact decide_eq_true fun hin => Nat.lt_irrefl _ (hopened _ hin)

/-- Every step of a workshop opens one file or none. A stylesheet that is submitted is
opened under the next id, and the work of a task does one of the three things that
`Effect` lists. -/
theorem Step.opens (h : workshop.Kept) (hstep : Step config workshop after) :
    Opens workshop after := by
  cases hstep with
  | ask reference =>
    refine .of_quiet (fun id hid => ?_) (fun block => .inl) rfl
    simpa [openIds, Task.ids, Task.files, Task.get, Phase.open?] using hid
  | submit sheet identifier name =>
    exact .of_opened h (List.append_nil _).symm List.flatMap_append rfl rfl
  -- The ids of the other tasks stay where they are, before and behind those of this one.
  | work me library task task' hme hwork =>
    obtain ⟨front, back, htasks, hset⟩ := Task.exists_set_eq hme task'
    have hbefore : workshop.openIds
        = front.flatMap Task.ids ++ (task.ids ++ back.flatMap Task.ids) := by
      rw [openIds, htasks, List.flatMap_append, List.flatMap_cons]
    have hafter : (workshop.tasks.set me task').flatMap Task.ids
        = front.flatMap Task.ids ++ (task'.ids ++ back.flatMap Task.ids) := by
      rw [hset, List.flatMap_append, List.flatMap_cons]
    have hsubset : task'.ids ⊆ task.ids →
        (workshop.tasks.set me task').flatMap Task.ids ⊆ workshop.openIds := by
      intro hids id hid
      rw [hafter] at hid
      rw [hbefore]
      simp only [List.mem_append] at hid ⊢
      exact hid.imp_right (Or.imp_left fun hin => hids hin)
    cases (Task.move_of_step? hwork).effect with
    | quiet hsame hids hhas =>
      refine .of_quiet (hsubset hids.subset) (fun block hblock => .inl ?_) hsame.nextId
      rwa [Library.newBlocks_eq_nil hsame.finished, List.append_nil] at hblock
    | opens hlibrary hids hhas =>
      refine .of_opened h hbefore (hafter.trans (by rw [hids]; rfl)) ?_ (by rw [hlibrary])
      rw [Library.newBlocks_eq_nil (by rw [hlibrary]), List.append_nil]
    | finishes file block hbuilt hregisters hids hreferences hhas =>
      have hfile : block.id ∈ workshop.openIds := by
        have hid : block.id = file.id := (Block.ofRules_keeps hbuilt).id
        rw [hbefore, hids, hid]
        exact List.mem_append_right _ List.mem_cons_self
      refine .of_quiet (hsubset (hids ▸ List.subset_cons_self _ _)) (fun other hother => ?_)
        hregisters.nextId
      rcases List.mem_append.1 hother with hother | hother
      · exact .inl hother
      · have hin : other ∈ (workshop.library.register block).blocks := by
          rw [Library.blocks, ← hregisters.finished]
          exact (List.mem_filter.1 hother).1
        rcases (Library.mem_blocks_register _).1 hin with rfl | ⟨hold, -⟩
        · exact .inr hfile
        · exact .inl ((h.blocks other).1 hold)
  | tick me task hme =>
    obtain ⟨front, back, htasks, hset⟩ := Task.exists_set_eq hme task.tick
    refine .of_quiet (fun id hid => ?_) (fun block => .inl) rfl
    rw [openIds, hset] at hid
    rw [openIds, htasks]
    simpa using hid
  | leave => exact .of_quiet (List.nil_subset _) (fun block => .inl) rfl

/-! ### What has been opened -/

/-- Ids are given out in ascending order, and all that are in use have been given out.
This ties the history to the ids that the library counts. -/
structure Counted (workshop : Workshop) (opened : List Nat) : Prop where
  ascending : opened.Pairwise (· < ·)
  below : ∀ id ∈ opened, id < workshop.library.nextId
  ids : workshop.ids ⊆ opened

/-- A step that opens a file gives out the next id, which is higher than all before.
Every other step leaves the count as it is and adds no ids. -/
theorem Counted.step (h : workshop.Counted opened) (hopens : Opens workshop after) :
    after.Counted (opened ++ workshop.newIds after) := by
  cases hopens with
  | none hnew hids hnext =>
    rw [hnew, List.append_nil]
    exact ⟨h.ascending, hnext ▸ h.below, fun id hid => h.ids (hids hid)⟩
  | one hnew hids hnext =>
    rw [hnew]
    constructor
    -- The new id is the next one, and all that have been given out are below it.
    case ascending =>
      refine List.pairwise_append.2 ⟨h.ascending, List.pairwise_singleton _ _, ?_⟩
      intro id hid next hmem
      exact List.mem_singleton.1 hmem ▸ h.below id hid
    case below =>
      intro id hid
      rw [hnext]
      rcases List.mem_append.1 hid with hid | hid
      · exact Nat.lt_succ_of_lt (h.below id hid)
      · exact List.mem_singleton.1 hid ▸ Nat.lt_succ_self _
    case ids =>
      intro id hid
      rcases List.mem_cons.1 (hids hid) with rfl | hid
      · exact List.mem_append_right _ (List.mem_singleton_self _)
      · exact List.mem_append_left _ (h.ids hid)

/-- Ids are counted throughout a history. The induction is on the history itself. Each
step opens one file at most, or hands in one sheet. -/
theorem Opened.counted (h : Opened config opened workshop) : workshop.Counted opened := by
  induction h with
  | start => exact ⟨.nil, nofun, nofun⟩
  | step hopened hstep ih => exact ih.step (hstep.opens (kept_of_reachable hopened.reachable))

/-! ### The order of the blocks -/

/-- The blocks are those that have been registered, in the order in which their files have been
opened. -/
structure ListsByOpening (opened : List Nat) (workshop : Workshop) : Prop where
  /-- No file is opened under an id that has been given out. -/
  opened_once : opened.Nodup
  /-- Every registered block is listed, and once. -/
  perm : workshop.library.blocks.Perm workshop.registered
  sublist : (workshop.library.blocks.map Block.id).Sublist opened
  /-- Of two blocks that one is listed first whose file has been opened first. -/
  pair_iff : ∀ first ∈ workshop.library.blocks, ∀ second ∈ workshop.library.blocks,
    [first, second].Sublist workshop.library.blocks ↔ [first.id, second.id].Sublist opened
  /-- A block is registered after its base and after all blocks that it refers to. -/
  registered_later : ∀ block ∈ workshop.library.blocks, ∀ other,
    (∃ localName, (localName, other) ∈ block.references) ∨ block.base = some other →
      [other, block].Sublist workshop.registered
  /-- The list is in the order of registration if files have been finished in the order in which
  they have been opened. -/
  eq_registered_iff : workshop.library.blocks = workshop.registered ↔
    (workshop.registered.map Block.id).Sublist opened

/-- A block refers to its base, and what it refers to has been registered before. So
in the order of registration a block stands behind its base and its references. -/
theorem Kept.sublist_registered (h : workshop.Kept) {block other : Block}
    (hblock : block ∈ workshop.registered)
    (hother : (∃ localName, (localName, other) ∈ block.references) ∨ block.base = some other) :
    [other, block].Sublist workshop.registered := by
  obtain ⟨localName, hreference⟩ : ∃ localName, (localName, other) ∈ block.references := by
    rcases hother with hreference | hbase
    · exact hreference
    · obtain ⟨id, name, identifier, rules, hbuilt⟩ := h.built block hblock
      exact (Block.wellFormed_of_ofRules hbuilt).base other hbase
  obtain ⟨before, later, hlog⟩ := List.append_of_mem hblock
  have hin : other ∈ before := h.earlier before block later hlog _ hreference
  rw [hlog]
  exact (List.singleton_sublist.2 hin).append (List.singleton_sublist.2 List.mem_cons_self)

/-- In a workshop with a history, blocks are listed in the order in which their files
have been opened. The list is in the order of ids, and so is the history; all that is
left is to compare the two. -/
theorem Opened.listsByOpening (h : Opened config opened workshop) :
    workshop.ListsByOpening opened := by
  have hkept := kept_of_reachable h.reachable
  have hcounted := h.counted
  -- Both the blocks and the files that have been opened are in the order of their ids.
  have hblocks : workshop.library.blocks.Pairwise fun a b => a.id < b.id :=
    workshop.library.finished.ascending.imp Nat.compare_eq_lt.1
  have hmem : ∀ block ∈ workshop.registered, block.id ∈ opened := fun block hblock =>
    hcounted.ids (List.mem_append_left _ (List.mem_map_of_mem hblock))
  have hopened : opened.Pairwise fun a b => id a < id b := hcounted.ascending
  have hperm : workshop.library.blocks.Perm workshop.registered :=
    (List.perm_ext_iff_of_nodup (.of_map Block.id workshop.library.finished.nodup_keys)
      (.of_map Block.id hkept.ids_nodup)).2 hkept.blocks
  have hsublist : (workshop.library.blocks.map Block.id).Sublist opened := by
    refine sublist_of_ascending (List.pairwise_map.2 hblocks) hcounted.ascending ?_
    intro id hid
    obtain ⟨block, hblock, rfl⟩ := List.mem_map.1 hid
    exact hmem block ((hkept.blocks block).1 hblock)
  exact {
    opened_once := hcounted.ascending.imp Nat.ne_of_lt
    perm := hperm
    sublist := hsublist
    pair_iff := fun first hfirst second hsecond => by
      have hids := pair_sublist_iff hopened (hmem first ((hkept.blocks first).1 hfirst))
        (hmem second ((hkept.blocks second).1 hsecond))
      exact (pair_sublist_iff hblocks hfirst hsecond).trans hids.symm
    registered_later := fun block hblock other =>
      hkept.sublist_registered ((hkept.blocks block).1 hblock)
    eq_registered_iff := by
      refine ⟨fun heq => heq ▸ hsublist, fun hlog => ?_⟩
      have hregistered : workshop.registered.Pairwise fun a b => a.id < b.id :=
        List.pairwise_map.1 (hcounted.ascending.sublist hlog)
      exact hperm.eq_of_pairwise
        (fun a b _ _ hab hba => absurd hab (Nat.lt_asymm hba)) hblocks hregistered }

/-- Whatever has been done with a library, its blocks are listed in the order in which
their files have been opened. There is a history, and it is so for every one of them.
Ids are given out when files are opened, and the list is one by ids. So a block stands
before one that was opened for its sake, although that one is registered first. -/
theorem blocks_by_opening (h : Reachable config workshop) :
    (∃ opened, Opened config opened workshop)
      ∧ ∀ opened, Opened config opened workshop → workshop.ListsByOpening opened :=
  ⟨exists_opened h, fun _ hopened => hopened.listsByOpening⟩

/-- A block is listed behind one that it refers to, which had been there, and before
another one, which has been opened for its sake. So the list follows neither the
references nor their reverse. Only the times at which the files were opened tell where
the blocks stand. -/
theorem blocks_by_opening_reused :
    let config : Config := ⟨[("/r/a.css",
        "@block-reference b from \"./b.css\"; @block-reference c from \"./c.css\";"),
      ("/r/b.css", ""), ("/r/c.css", "")], "/r", 32, []⟩
    let library := ((Library.get config .empty "b.css").1.get config "a.css").1
    ∃ registered opened, Reachable config ⟨library, [], registered⟩
      ∧ library.blocks.map Block.identifier = ["/r/b.css", "/r/a.css", "/r/c.css"]
      ∧ Opened config opened ⟨library, [], registered⟩
      ∧ ListsByOpening opened ⟨library, [], registered⟩ := by
  intro config library
  obtain ⟨registered, hreachable⟩ : library.Made config :=
    (Library.Made.empty.get "b.css").get "a.css"
  obtain ⟨⟨opened, hopened⟩, hlists⟩ := blocks_by_opening hreachable
  exact ⟨registered, opened, hreachable, by decide +kernel, hopened, hlists opened hopened⟩

/-- A file that refers to another one is opened first and finished last. So its block
is listed before the other one, and registered after it. The log of the workshop is
the order of registration. -/
theorem blocks_not_by_registration :
    let config : Config := ⟨[("/r/a.css", "@block-reference b from \"./b.css\";"),
      ("/r/b.css", "")], "/r", 32, []⟩
    let library := (Library.get config .empty "a.css").1
    ∃ registered, Reachable config ⟨library, [], registered⟩
      ∧ library.blocks.map Block.identifier = ["/r/a.css", "/r/b.css"]
      ∧ registered.map Block.identifier = ["/r/b.css", "/r/a.css"]
      ∧ library.blocks ≠ registered := by
  intro config library
  obtain ⟨registered, hreachable⟩ : library.Made config := Library.Made.empty.get "a.css"
  obtain ⟨opened, hopened⟩ := exists_opened hreachable
  have hlists := hopened.listsByOpening
  have hlisted : library.blocks.map (fun block => (block.identifier,
      block.references.map (·.2.identifier))) = [("/r/a.css", ["/r/b.css"]), ("/r/b.css", [])] := by
    decide +kernel
  obtain ⟨a, others, hblocks, ha, hothers⟩ := List.map_eq_cons_iff.1 hlisted
  obtain ⟨haIdentifier, haReferences⟩ := Prod.mk.inj ha
  obtain ⟨⟨localName, b⟩, more, hreferences, hb, -⟩ := List.map_eq_cons_iff.1 haReferences
  -- The reference has been registered before, and there is no third block.
  have hlog : [b, a].Sublist registered :=
    hlists.registered_later a (by simp [hblocks]) b (.inl ⟨localName, by simp [hreferences]⟩)
  have hlength : registered.length = 2 := by
    rw [← hlists.perm.length_eq, ← List.length_map, hlisted]
    rfl
  have hregistered : [b, a] = registered := hlog.eq_of_length hlength.symm
  have hfirst : library.blocks.map Block.identifier = ["/r/a.css", "/r/b.css"] := by
    decide +kernel
  have hlast : registered.map Block.identifier = ["/r/b.css", "/r/a.css"] := by
    rw [← hregistered, List.map_cons, List.map_singleton, haIdentifier, hb]
  refine ⟨registered, hreachable, hfirst, hlast, fun heq => ?_⟩
  rw [heq, hlast] at hfirst
  exact absurd hfirst (by decide)

end Workshop

end BlockStyles
