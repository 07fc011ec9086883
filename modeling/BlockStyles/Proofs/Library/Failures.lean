import BlockStyles.Proofs.Library.Rest

/-!
# `BlockStyles.Proofs.Library.Failures`: what is left of a request that has failed

An order to a library asks for a file, or hands a stylesheet in. On the way to its block the
references are loaded, one inside the other, and any of them can fail. Then the blocks that are
finished stay: they belong to files that the order leads to, and that had no blocks. Nothing else
is left of it. Nothing that was bound is bound anew, and no slot waits for anything.

`Task.Serves` says where the task of an order can be: its files lie on each other, each led to by
the one below, from the file or the stylesheet of the order up to the one that is worked on. All
but the lowest have had no block when the order came in, and none has the identifier that the
order is about. So a block of this identifier is only registered as the answer.

* `Task.Pile`: the files that wait for each other on behalf of an order.
* `Task.Serves.step`: a step keeps where the task of an order is.
* `Library.Order.run`: what is registered for an order.
* `Library.Order.rested`: an order that has been answered leaves nothing under way.
* `Library.Order.failure_leaves`: so it is with orders that fail.
-/

set_option autoImplicit false

namespace BlockStyles

open Relation (TransGen ReflTransGen)

namespace Library

/-! ### Orders -/

/-- What a library can be asked for. -/
inductive Order where
  /-- The block that a reference means. -/
  | get (reference : String)
  /-- The block of a stylesheet. -/
  | addSheet (sheet : Stylesheet) (identifier name : String)
  /-- The block of a source. -/
  | addSource (source identifier name : String)

namespace Order

/-- What comes of an order when nothing else is done meanwhile. There may be no
answer, if the order waits for a file that nobody will finish. -/
def perform (config : Config) (library : Library) :
    Order → Library × Option (Except Error Block)
  | get reference => library.get config reference
  | addSheet sheet identifier name => library.addSheet config sheet identifier name
  | addSource source identifier name => library.addSource config source identifier name

variable (config : Config)

/-- The identifier that the block is to have. For a reference it is where the
reference leads, and for a stylesheet it is given. -/
def identifier : Order → String
  | get reference => Path.resolve none reference config.root
  | addSheet _ identifier _ => identifier
  | addSource _ identifier _ => identifier

/-- The references that the file or the stylesheet makes. A source that cannot be read
makes none. -/
def references : Order → List (String × String)
  | get reference => config.referencesOf (Path.resolve none reference config.root)
  | addSheet sheet identifier _ => config.targets identifier sheet.atRules
  | addSource source identifier _ =>
    match Stylesheet.ofSource source with
    | .ok sheet => config.targets identifier sheet.atRules
    | .error _ => []

/-- By way of references an order leads to a file. The file or the stylesheet of the
order itself is where the way starts, and is not among these files unless references
lead back to it. -/
def LeadsTo (order : Order) (file : String) : Prop :=
  ∃ first ∈ order.references config, ReflTransGen config.RefersTo first.2 file

/-- A file that had no block when the order came in, and whose block the order is not
about. Only such a file is opened on the way. -/
structure Brings (start : Library) (order : Order) (file : String) : Prop where
  unbound : start.blockFor? file = none
  other : file ≠ order.identifier config

end Order

end Library

/-- The block has been built from the whole of its file, with all references that the file
makes. -/
def Block.IsOfFile (config : Config) (block : Block) : Prop :=
  ∃ source sheet, config.source? block.identifier = some source
    ∧ Stylesheet.ofSource source = .ok sheet
    ∧ block.references.map (fun (name, target) => (name, target.identifier))
      = config.referencesOf block.identifier
    ∧ Block.ofRules block.id (Path.defaultBlockName block.identifier) block.identifier
        block.references sheet.rules = .ok block

/-- A block that an order adds: that of a file to which it leads and which had no
block. It is complete, with all references that its source makes. -/
structure Library.Order.Adds (config : Config) (start : Library) (order : Order)
    (block : Block) : Prop where
  brings : order.Brings config start block.identifier
  leads : order.LeadsTo config block.identifier
  built : block.IsOfFile config

/-! ### Tasks of orders -/

namespace OpenFile

variable {config : Config} {order : Library.Order} {file after : OpenFile} {localName : String}
  {request : Request} {block : Block}

/-- The file or stylesheet that an order is about. What it still refers to is what the
order leads to. -/
structure Outer (config : Config) (order : Library.Order) (file : OpenFile) : Prop where
  identifier : file.identifier = order.identifier config
  references : ∃ passed,
    order.references config = passed ++ config.targets file.identifier file.pending

/-- When a reference of the file is taken up, what is left of its references is the
rest behind it. -/
theorem Outer.refers (h : file.Outer config order)
    (hrefers : file.Refers config after localName request) : after.Outer config order := by
  obtain ⟨passed, hpassed⟩ := h.references
  refine ⟨hrefers.identifier.trans h.identifier, passed ++ [(localName, request.target)], ?_⟩
  rw [hpassed, hrefers.targets, List.append_assoc, List.singleton_append]

/-- An at-rule that is no reference takes nothing from the references that are left.
What the order leads to is told from the references only. -/
theorem Outer.skipped {atRule : AtRule} {pending : List AtRule} (h : file.Outer config order)
    (hpending : file.pending = atRule :: pending)
    (hname : atRule.name ≠ BlockReference.atRuleName) :
    Outer config order { file with pending } := by
  obtain ⟨passed, hpassed⟩ := h.references
  have hnone : atRule.reference? = none := if_neg hname
  refine ⟨h.identifier, passed, ?_⟩
  simpa [hpending, Config.targets, hnone] using hpassed

/-- A file that has been read to its end is built as a whole. Its references are all
that its source makes, since nothing is pending any more, and the rules are those of
the source. -/
theorem Reads.isOfFile (h : file.Reads config) (hpending : file.pending = [])
    (hbuilt : Block.ofRules file.id file.name file.identifier file.references file.rules
      = .ok block) : block.IsOfFile config := by
  obtain ⟨source, sheet, hsource, hsheet, hname, hrules, -⟩ := h.sheet
  obtain ⟨passed, hreferences, hanswered⟩ := h.referencesOf
  have hkeeps := Block.ofRules_keeps hbuilt
  have hid : block.id = file.id := hkeeps.id
  have hidentifier : block.identifier = file.identifier := hkeeps.identifier
  have hsame : block.references = file.references := hkeeps.references
  have hall : config.targets file.identifier passed = config.referencesOf file.identifier := by
    rw [hreferences, hpending]
    exact (List.append_nil _).symm
  rw [Block.IsOfFile, hid, hidentifier, hsame]
  refine ⟨source, sheet, hsource, hsheet, hanswered.trans hall, ?_⟩
  rwa [← hname, ← hrules]

end OpenFile

namespace Task

/-- The files that wait, from the file or stylesheet of an order down to the request
that is worked on now. It is a `Stack` whose lowest file may be a stylesheet, and
which remembers that all files above that one had no block when the order came in. -/
inductive Pile (config : Config) (start : Library) (order : Library.Order) :
    List WaitingFile → Request → Prop where
  /-- The file of the order itself is asked for. -/
  | entry (request : Request) (htarget : request.target = order.identifier config)
      (hreferences : order.references config = config.referencesOf request.target) :
      Pile config start order [] request
  /-- The stylesheet of the order refers to a file. -/
  | sheet (request : Request) (file after : OpenFile) (localName : String)
      (houter : file.Outer config order) (hrefers : file.Refers config after localName request) :
      Pile config start order [⟨after, localName⟩] request
  /-- A file that has been asked for refers to another one. -/
  | push (waiting : List WaitingFile) (lower request : Request) (file after : OpenFile)
      (localName : String) (hbelow : Pile config start order waiting lower)
      (hbrings : waiting ≠ [] → order.Brings config start lower.target)
      (hreads : file.Reads config) (hfile : file.identifier = lower.target)
      (hrefers : file.Refers config after localName request) :
      Pile config start order (⟨after, localName⟩ :: waiting) request

variable {config : Config} {start : Library} {order : Library.Order} {me : TaskId}
  {library library' : Library} {task task' : Task} {waiting : List WaitingFile}
  {request : Request}

namespace Pile

/-- Whatever waits, waits above what the order is about. So no file on the way can be
the one of the order: it would be refused as part of the chain. -/
theorem identifier_mem (h : Pile config start order waiting request) (hwaiting : waiting ≠ []) :
    order.identifier config ∈ chain waiting := by
  rw [mem_chain]
  induction h with
  | entry => exact absurd rfl hwaiting
  | sheet request file after localName houter hrefers =>
    exact List.mem_singleton.2 (hrefers.identifier.trans houter.identifier).symm
  | push waiting lower request file after localName hbelow _ hreads hfile hrefers ih =>
    -- The lowest file is the one of the order, and the others stand above it.
    by_cases hempty : waiting = []
    · subst hempty
      cases hbelow with
      | entry _ htarget =>
        exact List.mem_singleton.2 ((hrefers.identifier.trans hfile).trans htarget).symm
    · exact List.mem_cons_of_mem _ (ih hempty)

/-- What is asked for is what the order leads to. The induction goes up the pile, and
each file adds one reference to the way. -/
theorem leadsTo (h : Pile config start order waiting request) (hwaiting : waiting ≠ []) :
    order.LeadsTo config request.target := by
  induction h with
  | entry => exact absurd rfl hwaiting
  | sheet request file after localName houter hrefers =>
    obtain ⟨passed, hpassed⟩ := houter.references
    refine ⟨(localName, request.target), ?_, .refl⟩
    rw [hpassed, hrefers.targets]
    exact List.mem_append_right _ List.mem_cons_self
  | push waiting lower request file after localName hbelow _ hreads hfile hrefers ih =>
    have hrefersTo := hrefers.refersTo hreads
    rw [hfile] at hrefersTo
    -- If the file below is the one that the order is for, the way begins here.
    by_cases hempty : waiting = []
    · subst hempty
      cases hbelow with
      | entry _ _ hreferences =>
        obtain ⟨name, hin⟩ := hrefersTo
        exact ⟨(name, request.target), hreferences ▸ hin, .refl⟩
    · obtain ⟨first, hfirst, hreach⟩ := ih hempty
      exact ⟨first, hfirst, hreach.tail hrefersTo⟩

end Pile

/-- Where the task of an order can be. In the first case it may work on the file of
the order itself or on one above; the second is the stylesheet of an order, which no
request asks for. -/
inductive Serves (config : Config) (start : Library) (order : Library.Order) : Task → Prop where
  /-- It works on a request. Once a file other than that of the order is claimed, it is known to
  have had no block. -/
  | inner (waiting : List WaitingFile) (request : Request) (phase : Phase)
      (hpile : Pile config start order waiting request) (hphase : phase.IsFor config request)
      (hbrings : waiting ≠ [] → phase.awaited?.isSome → order.Brings config start request.target) :
      Serves config start order ⟨waiting, phase⟩
  /-- It compiles the stylesheet of the order. -/
  | outer (file : OpenFile) (houter : file.Outer config order) :
      Serves config start order ⟨[], .compiling file⟩
  /-- It has its answer. -/
  | answered (answer : Except Error Block) : Serves config start order ⟨[], .returning answer⟩

namespace Serves

/-- While a delay goes by a task stays where it is. Delays belong to the innermost
file, while the order is told from the files that wait. -/
theorem tick (h : task.Serves config start order) : task.tick.Serves config start order := by
  cases h with
  | inner waiting request phase hpile hphase hbrings =>
    cases phase with
    | importing r delay =>
      cases delay with
      | zero => exact .inner _ _ _ hpile hphase hbrings
      | succ delay => exact .inner _ _ _ hpile hphase hbrings
    | _ => exact .inner _ _ _ hpile hphase hbrings
  | outer file houter => exact .outer file houter
  | answered answer => exact .answered answer

/-- A step keeps where the task of an order is. What has to be shown each time a file
is claimed is that it had no block when the order came in: blocks stay, so it is
enough that it has none now. -/
theorem step (h : task.Serves config start order) (hnamed : library.Named)
    (hbound : ∀ f, library.blockFor? f = none → start.blockFor? f = none)
    (hmove : Move config me library task library' task') : task'.Serves config start order := by
  cases h with
  | answered answer => cases hmove
  -- The stylesheet of the order is compiled by a task with nothing below it.
  | outer file houter =>
    cases hmove with
    | skipped _ _ atRule pending hpending hname =>
      exact .outer _ (houter.skipped hpending hname)
    | refers _ _ after localName request hrefers =>
      exact .inner _ request _ (.sheet request file after localName houter hrefers) rfl nofun
    | faulty => exact .answered _
    | built => exact .answered _
  | inner waiting request phase hpile hphase hbrings =>
    -- A file is claimed if it has no block and is not in the chain, where that of the order is.
    have hclaimed : request.Claims config library waiting → waiting ≠ [] →
        order.Brings config start request.target := fun hclaims hwaiting =>
      ⟨hbound _ hclaims.unknown, fun hsame =>
        hclaims.new (hsame ▸ hpile.identifier_mem hwaiting)⟩
    cases hmove with
    | refused _ r cause => exact .inner _ _ _ hpile nofun nofun
    | known _ r block _ _ hblock =>
      cases hphase
      refine .inner _ _ _ hpile (fun b hb => ?_) nofun
      cases hb
      exact hnamed.bound _ _ hblock
    | found _ r block _ hslot =>
      cases hphase
      refine .inner _ _ _ hpile (fun b hb => ?_) nofun
      cases hb
      rw [(library.sameBlocks_waitFor waiting _).slot] at hslot
      exact hnamed.slot _ _ hslot
    | takes _ r hclaims =>
      cases hphase
      exact .inner _ _ _ hpile rfl fun hwaiting _ => hclaimed hclaims hwaiting
    | queues _ r other hclaims =>
      cases hphase
      exact .inner _ _ _ hpile rfl fun hwaiting _ => hclaimed hclaims hwaiting
    | served _ r block hslot =>
      cases hphase
      refine .inner _ _ _ hpile (fun b hb => ?_) nofun
      cases hb
      exact hnamed.slot _ _ hslot
    | called _ r => exact .inner _ _ _ hpile hphase hbrings
    | unreadable _ r error => exact .inner _ _ _ hpile nofun nofun
    -- The file has been claimed already, when its slot was taken.
    | opened _ r source sheet hsource hsheet =>
      cases hphase
      exact .inner _ _ _ hpile ⟨.opened _ _ source sheet hsource hsheet, rfl⟩ hbrings
    | skipped _ file atRule pending hpending hname =>
      obtain ⟨hreads, hfile⟩ := hphase
      exact .inner _ _ _ hpile ⟨.skipped file atRule pending hreads hpending hname, hfile⟩ hbrings
    | refers _ file after localName r hrefers =>
      obtain ⟨hreads, hfile⟩ := hphase
      exact .inner _ r _ (.push waiting request r file after localName hpile
        (fun hwaiting => hbrings hwaiting rfl) hreads hfile hrefers) rfl nofun
    | faulty _ file error => exact .inner _ _ _ hpile nofun nofun
    | built _ file block _ hbuilt =>
      refine .inner _ _ _ hpile (fun b hb => ?_) nofun
      cases hb
      exact (Block.ofRules_keeps hbuilt).identifier.trans hphase.2
    | gained waiting below block =>
      -- The pile says what the file below is: that of the order, or one that has been claimed.
      cases hpile with
      | sheet _ file after localName houter hrefers =>
        have hafter := houter.refers hrefers
        exact .outer _ ⟨hafter.identifier, hafter.references⟩
      | push _ lower _ file after localName hbelow hlower hreads hfile hrefers =>
        have hread := OpenFile.Reads.referred file after localName request block hreads hrefers
          (hphase block rfl)
        exact .inner _ lower _ hbelow ⟨hread, hrefers.identifier.trans hfile⟩
          fun hwaiting _ => hlower hwaiting
    | lost waiting below error =>
      cases hpile with
      | sheet => exact .answered _
      | push _ lower _ file after localName hbelow => exact .inner _ lower _ hbelow nofun nofun

/-- A block that is finished is one that the order adds, or it is what the order is
about. The latter is so if nothing waits for it. -/
theorem adds_of_built {file : OpenFile} {block : Block}
    (h : Serves config start order ⟨waiting, .compiling file⟩) (hpending : file.pending = [])
    (hbuilt : Block.ofRules file.id file.name file.identifier file.references file.rules
      = .ok block) : waiting = [] ∨ order.Adds config start block := by
  cases h with
  | outer => exact .inl rfl
  | inner _ request _ hpile hphase hbrings =>
    by_cases hwaiting : waiting = []
    · exact .inl hwaiting
    · obtain ⟨hreads, hfile⟩ := hphase
      have hidentifier := (Block.ofRules_keeps hbuilt).identifier.trans hfile
      exact .inr ⟨hidentifier ▸ hbrings hwaiting rfl, hidentifier ▸ hpile.leadsTo hwaiting,
        hreads.isOfFile hpending hbuilt⟩

end Serves

end Task

/-! ### Runs -/

namespace Library

variable {config : Config} {start library library' : Library} {order : Order}
  {registered : List Block}

/-- Of the blocks of a library that has got one more, only this one is new. The new
blocks are told by their ids, and the others kept theirs. -/
theorem Registers.eq_of_mem_newBlocks {block other : Block} (h : library.Registers library' block)
    (hother : other ∈ library.newBlocks library') : other = block := by
  obtain ⟨hin, hnew⟩ := List.mem_filter.1 hother
  rw [blocks, h.finished] at hin
  rcases (mem_blocks_register library).1 hin with rfl | ⟨hin, -⟩
  · rfl
  · rw [block?_eq_some_iff.2 ⟨hin, rfl⟩] at hnew
    cases hnew

namespace Order

/-- An order is being carried out: what has been registered since it came in is what
it adds, and in the end its answer. Once the answer is there the task does not move,
so it is registered last. -/
structure Running (config : Config) (start : Library) (registered : List Block) (order : Order)
    (library : Library) (task : Task) : Prop where
  serves : task.Serves config start order
  log : ∃ more, Workshop.Attended config ⟨library, [task], registered ++ more⟩
    ∧ ∀ block ∈ more, order.Adds config start block ∨ task = ⟨[], .returning (.ok block)⟩

namespace Running

variable {task task' : Task}

/-- While a delay goes by nothing is registered. The log and the library stay, and the
task still serves the same order. -/
theorem tick (h : Running config start registered order library task) :
    Running config start registered order library task.tick := by
  obtain ⟨more, hattended, hmore⟩ := h.log
  refine ⟨h.serves.tick, more, hattended.tail ⟨.tick _ 0 task rfl, nofun⟩, fun block hblock => ?_⟩
  refine (hmore block hblock).imp_right ?_
  rintro rfl
  rfl

/-- A step of the task of an order keeps this. If it registers a block, the block is
one that the order adds, or the task has its answer now. -/
theorem step (h : Running config start registered order library task)
    (hstart : ∀ f, start.blockFor? f = Workshop.lastOf? registered f)
    (hstep : task.step? config 0 library = some (library', task')) :
    Running config start registered order library' task' := by
  obtain ⟨more, hattended, hmore⟩ := h.log
  have hmove := Task.move_of_step? hstep
  have hlater : Workshop.Attended config _ :=
    hattended.tail ⟨.work _ 0 library' task task' rfl hstep, nofun⟩
  -- Blocks only come, so a file that is not bound now has not been bound before.
  have hbound : ∀ f, library.blockFor? f = none → start.blockFor? f = none := by
    intro f hnone
    rw [(Workshop.kept_of_reachable hattended.reachable).bound, Workshop.lastOf?_append] at hnone
    rw [hstart]
    exact (Option.or_eq_none_iff.1 hnone).2
  refine ⟨h.serves.step (Workshop.named_of_attended hattended) hbound hmove,
    more ++ library.newBlocks library', List.append_assoc .. ▸ hlater, ?_⟩
  have hbefore : ∀ block ∈ more, order.Adds config start block := by
    intro block hblock
    refine (hmore block hblock).resolve_right ?_
    -- With its answer a task does not move any more.
    rintro rfl
    cases hmove
  refine List.forall_mem_append.2 ⟨fun block hblock => .inl (hbefore block hblock), ?_⟩
  intro block hblock
  rcases hmove.same_or_built with
    ⟨hfinished, -⟩ | ⟨waiting, file, new, rfl, rfl, hpending, hbuilt, rfl⟩
  · rw [newBlocks_eq_nil hfinished] at hblock
    cases hblock
  · cases (Task.registers_close library waiting file new).eq_of_mem_newBlocks hblock
    refine (h.serves.adds_of_built hpending hbuilt).symm.imp_right ?_
    rintro rfl
    rfl

/-- When the task of an order has been completed, what has been registered is what the
order adds, and its answer. -/
theorem complete (h : Running config start registered order library task)
    (hstart : ∀ f, start.blockFor? f = Workshop.lastOf? registered f) {after : Library}
    {answer : Except Error Block}
    (hcomplete : library.complete config task = (after, some answer)) :
    ∃ more, Workshop.Attended config ⟨after, [], registered ++ more⟩
      ∧ ∀ block ∈ more, order.Adds config start block ∨ answer = .ok block := by
  -- The only task goes on until it cannot move, and nothing but its steps changes the library.
  obtain ⟨last, task', heq, hrunning, -⟩ := complete_keeps
    (P := Running config start registered order)
    (fun l t l' t' hrunning hstep => hrunning.step hstart hstep)
    (fun l t hrunning => hrunning.tick) h
  rw [hcomplete] at heq
  obtain ⟨rfl, hanswer⟩ := Prod.mk.inj heq
  cases Task.answer?_eq_some.1 hanswer.symm
  obtain ⟨more, hattended, hmore⟩ := hrunning.log
  refine ⟨more, hattended.tail ⟨.leave _, fun _ task htask => ?_⟩, fun block hblock => ?_⟩
  · cases List.mem_singleton.1 htask
    rfl
  · refine (hmore block hblock).imp_right fun htask => ?_
    cases htask
    rfl

end Running

/-- An order that is answered adds blocks to the log, and in the end its answer. The
three kinds of orders start with different tasks, and go on in the same way. -/
theorem run (h : Workshop.Attended config ⟨library, [], registered⟩) {after : Library}
    {answer : Except Error Block} (hperform : order.perform config library = (after, some answer)) :
    ∃ more, Workshop.Attended config ⟨after, [], registered ++ more⟩
      ∧ ∀ block ∈ more, order.Adds config library block ∨ answer = .ok block := by
  have hstart := (Workshop.kept_of_reachable h.reachable).bound
  -- A stylesheet is submitted, whether or not it has been read from a source.
  have hsheet : ∀ (sheet : Stylesheet) (identifier name : String),
      order.identifier config = identifier →
      order.references config = config.targets identifier sheet.atRules →
      library.addSheet config sheet identifier name = (after, some answer) →
        ∃ more, Workshop.Attended config ⟨after, [], registered ++ more⟩
          ∧ ∀ block ∈ more, order.Adds config library block ∨ answer = .ok block := by
    rintro sheet identifier name rfl hreferences hadded
    have hsubmitted : Workshop.Attended config _ :=
      h.tail ⟨.submit _ sheet (order.identifier config) name, by simp⟩
    have hrunning : Running config library registered order
        { library with nextId := library.nextId + 1 }
        ⟨[], .compiling (.ofSheet library.nextId sheet (order.identifier config) name)⟩ :=
      ⟨.outer _ ⟨rfl, [], hreferences⟩, [], by rw [List.append_nil]; exact hsubmitted, nofun⟩
    exact hrunning.complete hstart hadded
  cases order with
  -- The task of a request starts with an empty pile.
  | get reference =>
    have hasked : Workshop.Attended config _ := h.tail ⟨.ask _ reference, by simp⟩
    have hserves : Task.Serves config library (.get reference) (.get config reference) :=
      .inner [] (config.request reference) _ (.entry _ rfl rfl) rfl nofun
    have hrunning : Running config library registered (.get reference) library
        (.get config reference) :=
      ⟨hserves, [], by rw [List.append_nil]; exact hasked, nofun⟩
    exact hrunning.complete hstart hperform
  | addSheet sheet identifier name => exact hsheet sheet identifier name rfl rfl hperform
  | addSource source identifier name =>
    cases hsource : Stylesheet.ofSource source with
    | ok sheet =>
      rw [perform, Library.addSource, hsource] at hperform
      exact hsheet sheet identifier name rfl (by simp only [references, hsource]) hperform
    | error fault =>
      rw [perform, Library.addSource, hsource] at hperform
      cases hperform
      exact ⟨[], by rwa [List.append_nil], nofun⟩

/-- An order that is answered leaves the library at rest. Nothing but its task has
been under way, and that is at its end. -/
theorem rested (h : library.Rested config) {after : Library} {answer : Except Error Block}
    (hperform : order.perform config library = (after, some answer)) : after.Rested config := by
  obtain ⟨registered, hattended⟩ := h
  obtain ⟨more, hlater, -⟩ := run hattended hperform
  exact ⟨_, hlater⟩

/-- What an order has added is bound, and for the rest everything is bound as before.
The table of identifiers follows the log. -/
theorem blockFor?_of_log {registered more : List Block} {after : Library}
    (hbefore : Workshop.Kept ⟨library, [], registered⟩)
    (hkept : Workshop.Kept ⟨after, [], registered ++ more⟩) (f : String) :
    after.blockFor? f = (Workshop.lastOf? more f).or (library.blockFor? f) := by
  have hlast := hkept.bound f
  rw [Workshop.lastOf?_append, ← hbefore.bound f] at hlast
  exact hlast

/-- A block whose identifier has not been bound is new. If it had been there, its
identifier would have been bound to some block. -/
theorem Adds.not_mem {registered : List Block} {block : Block}
    (h : order.Adds config library block)
    (hbefore : Workshop.Kept ⟨library, [], registered⟩) : block ∉ library.blocks := by
  intro hold
  have hunbound := (hbefore.bound block.identifier).symm.trans h.brings.unbound
  exact Workshop.lastOf?_eq_none_iff.1 hunbound block ((hbefore.blocks block).1 hold) rfl

/-- Of an order that fails nothing is left but finished references. In a library at rest, whatever
has been done with it before,

- the block of the identifier that the order is about is the same as before, or missing as before;
- so is every other block that is bound to its identifier, and every block of an id;
- a block that is new is the whole of a file to which the order leads by way of references, and
  which had no block before; its references are there too;
- what is bound has been so before, or it is such a new block;
- no file waits for another one, no slot has a filler or a queue, and a block in the slot of a file
  is a registered block of the file;
- so the library is at rest again. -/
theorem failure_leaves (h : library.Rested config) (order : Order) {after : Library} {error : Error}
    (hfails : order.perform config library = (after, some (.error error))) :
    after.blockFor? (order.identifier config) = library.blockFor? (order.identifier config)
      ∧ (∀ f block, library.blockFor? f = some block → after.blockFor? f = some block)
      ∧ (∀ id block, library.block? id = some block → after.block? id = some block)
      ∧ (∀ block ∈ after.blocks, block ∉ library.blocks → order.Adds config library block
        ∧ ∀ reference ∈ block.references, reference.2 ∈ after.blocks)
      ∧ (∀ f block, after.blockFor? f = some block →
        library.blockFor? f = some block ∨ block ∈ after.blocks ∧ block ∉ library.blocks)
      ∧ (∀ f, (after.slot f).awaiting = none ∧ (after.slot f).line = []
        ∧ ∀ block, (after.slot f).block = some block →
          block ∈ after.blocks ∧ block.identifier = f)
      ∧ after.Rested config := by
  have hrested := rested h hfails
  obtain ⟨registered, hattended⟩ := h
  obtain ⟨more, hlater, hmore⟩ := run hattended hfails
  -- The answer is no block, so all that has been added is on the way.
  have hadds : ∀ block ∈ more, order.Adds config library block :=
    fun block hblock => (hmore block hblock).resolve_right nofun
  have hbefore := Workshop.kept_of_reachable hattended.reachable
  have hkept := Workshop.kept_of_reachable hlater.reachable
  have hmanned := Workshop.manned_of_attended hlater
  have hbound := blockFor?_of_log hbefore hkept
  -- An identifier that no added block has is bound as before.
  have hkeeps : ∀ f, (∀ block ∈ more, block.identifier ≠ f) →
      after.blockFor? f = library.blockFor? f := by
    intro f hother
    rw [hbound, Workshop.lastOf?_eq_none_iff.2 hother, Option.none_or]
  refine ⟨?_, fun f block hblock => ?_, fun id block hblock => ?_, fun block hblock hnew => ?_,
    fun f block hblock => ?_, fun f => ?_, hrested⟩
  · exact hkeeps _ fun block hblock => (hadds block hblock).brings.other
  -- No block has been added of a file that had one.
  · rw [hkeeps f fun other hother heq => ?_, hblock]
    have hunbound := (hadds other hother).brings.unbound
    rw [heq, hblock] at hunbound
    cases hunbound
  · obtain ⟨hin, hid⟩ := block?_eq_some_iff.1 hblock
    refine block?_eq_some_iff.2 ⟨(hkept.blocks block).2 ?_, hid⟩
    exact List.mem_append_left _ ((hbefore.blocks block).1 hin)
  · have hin := (hkept.blocks block).1 hblock
    have hadded := (List.mem_append.1 hin).resolve_left fun hold =>
      hnew ((hbefore.blocks block).2 hold)
    exact ⟨hadds block hadded, fun reference hreference =>
      (hkept.blocks _).2 (hkept.reference_mem hin hreference)⟩
  · rw [hbound, Option.or_eq_some_iff] at hblock
    rcases hblock with hnew | ⟨-, hold⟩
    · have hadded := (Workshop.mem_of_lastOf? hnew).1
      exact .inr ⟨(hkept.blocks block).2 (List.mem_append_right _ hadded),
        (hadds block hadded).not_mem hbefore⟩
    · exact .inl hold
  -- With no task left, nobody stands in line and no file waits.
  · obtain ⟨hawaiting, hline⟩ := hmanned.slot_at_rest f
    exact ⟨hawaiting, hline, fun block hslot =>
      ⟨(hkept.blocks block).2 (hkept.slot f block hslot), hmanned.named f block hslot⟩⟩

/-- A file is asked for whose first reference is finished before the second one fails,
which refers to a file that is missing. The block of the first reference stays. It is
whole, and there is a way of references to it. Of the file itself there is neither a
block nor a mark. -/
theorem failure_leaves_half :
    let config : Config := ⟨[("/r/a.css",
        "@block-reference b from \"./b.css\"; @block-reference c from \"./c.css\";"),
      ("/r/b.css", ""), ("/r/c.css", "@block-reference e from \"./e.css\";"),
      ("/r/d.css", "")], "/r", 32, []⟩
    let library := (Library.empty.get config "d.css").1
    ∃ after error, library.Rested config
      ∧ (Order.get "a.css").perform config library = (after, some (.error error))
      ∧ after.blockFor? "/r/a.css" = none
      ∧ (after.slot "/r/a.css").awaiting = none
      ∧ ∃ block ∈ after.blocks, block.identifier = "/r/b.css"
        ∧ (Order.get "a.css").Adds config library block := by
  intro config library
  have hloaded : (Library.empty.get config "d.css").2.map (Except.map Block.identifier)
      = some (.ok "/r/d.css") := by
    decide +kernel
  obtain ⟨answer, hanswer, -⟩ := Option.map_eq_some_iff.1 hloaded
  have hperform : (Order.get "d.css").perform config .empty = (library, some answer) :=
    Prod.ext rfl hanswer
  have hrested : library.Rested config := rested ⟨[], .refl⟩ hperform
  have hfails : (library.get config "a.css").2.map (Except.map Block.identifier)
      = some (.error (.located ⟨"/r/c.css", ⟨1, 1⟩⟩ (.missingFile "/r/e.css"))) := by
    decide +kernel
  have hfailure := some_map_eq_error.1 hfails
  have hblocks : library.blocks.map Block.identifier = ["/r/d.css"] := by decide +kernel
  have hunbound : library.blockFor? "/r/a.css" = none := by
    have hsome : (library.blockFor? "/r/a.css").isSome = false := by decide +kernel
    simpa using hsome
  have hadded : (library.get config "a.css").1.blocks.map Block.identifier
      = ["/r/d.css", "/r/b.css"] := by
    decide +kernel
  have htarget : (Order.get "a.css").identifier config = "/r/a.css" := by decide +kernel
  have hall : (Order.get "a.css").perform config library
      = ((library.get config "a.css").1, some (.error _)) := Prod.ext rfl hfailure
  obtain ⟨hsame, -, -, hnew, -, hslots, -⟩ := failure_leaves hrested (.get "a.css") hall
  -- The block is found by its identifier, since blocks themselves cannot be computed with
  -- here.
  have hin : "/r/b.css" ∈ (library.get config "a.css").1.blocks.map Block.identifier := by
    rw [hadded]
    decide
  obtain ⟨block, hblock, hidentifier⟩ := List.mem_map.1 hin
  have hout : block ∉ library.blocks := by
    intro hold
    have hold' := List.mem_map_of_mem (f := Block.identifier) hold
    rw [hblocks, hidentifier] at hold'
    exact absurd hold' (by decide)
  rw [htarget, hunbound] at hsame
  exact ⟨_, _, hrested, hall, hsame, (hslots "/r/a.css").1, block, hblock, hidentifier,
    (hnew block hblock hout).1⟩

end Order

end Library

end BlockStyles
