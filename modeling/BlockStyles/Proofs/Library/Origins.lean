import BlockStyles.Library.Weight
import BlockStyles.Proofs.Block.Edits
import BlockStyles.Proofs.Library.Awaits

/-!
# `BlockStyles.Proofs.Library.Origins`: where the files of a task come from

A file is open because somebody has asked for it, and what has been read of it is
what its source says. `OpenFile.Reads` follows the reading of a file, and
`Task.Stack` the way from the request that started a task through the files that
wait, down to the request that is worked on now. A task of which both hold is
`Task.From` that first request.

* `OpenFile.Reads.sheet`: the references of an open file are those that its source makes.
* `Task.Stack.refersTo_of_mem_awaits`: a file only waits for files that it refers to.
* `Task.From.step`: a step keeps where a task comes from.
-/

set_option autoImplicit false

namespace BlockStyles

/-! ### What files refer to -/

/-- The reference that an at-rule makes. Other at-rules make none, and neither does
one that is malformed. -/
def AtRule.reference? (atRule : AtRule) : Option BlockReference :=
  if atRule.name = BlockReference.atRuleName then BlockReference.ofPrelude? atRule.prelude
  else none

namespace Config

/-- The references that at-rules of a file make: their aliases, and the files they mean. -/
def targets (config : Config) (identifier : String) (atRules : List AtRule) :
    List (String × String) :=
  (atRules.filterMap AtRule.reference?).map fun reference =>
    (reference.localName, Path.resolve (some identifier) reference.path config.root)

/-- The references that the source of a file makes; none if it cannot be read. -/
def referencesOf (config : Config) (identifier : String) : List (String × String) :=
  match config.source? identifier with
  | none => []
  | some source =>
    match Stylesheet.ofSource source with
    | .error _ => []
    | .ok sheet => config.targets identifier sheet.atRules

/-- The references of a source that can be read are those of its at-rules. At-rules
that are no references, or malformed ones, are passed over here. -/
theorem referencesOf_eq {config : Config} {identifier source : String} {sheet : Stylesheet}
    (hsource : config.source? identifier = some source)
    (hsheet : Stylesheet.ofSource source = .ok sheet) :
    config.referencesOf identifier = config.targets identifier sheet.atRules := by
  simp [referencesOf, hsource, hsheet]

/-- A file makes a reference to another one, under some alias. -/
def RefersTo (config : Config) (file target : String) : Prop :=
  ∃ localName, (localName, target) ∈ config.referencesOf file

/-- The request that a task for a reference starts with. -/
def request (config : Config) (reference : String) : Request :=
  let target := Path.resolve none reference config.root
  ⟨target, .ofFile target⟩

end Config

namespace OpenFile

/-- What becomes of a file while it is read: its at-rules are passed one by one, and each
reference has been answered by the block of the file that it means. -/
inductive Reads (config : Config) : OpenFile → Prop where
  | opened (id : Nat) (identifier source : String) (sheet : Stylesheet)
      (hsource : config.source? identifier = some source)
      (h : Stylesheet.ofSource source = .ok sheet) : Reads config (opened id identifier sheet)
  | skipped (file : OpenFile) (atRule : AtRule) (pending : List AtRule)
      (hreads : Reads config file) (hpending : file.pending = atRule :: pending)
      (h : atRule.name ≠ BlockReference.atRuleName) : Reads config { file with pending }
  | referred (file after : OpenFile) (localName : String) (request : Request) (block : Block)
      (hreads : Reads config file) (hrefers : file.Refers config after localName request)
      (h : block.identifier = request.target) : Reads config (after.refer localName block)

variable {config : Config} {file after : OpenFile} {localName : String} {request : Request}

/-- An open file is a prefix of its source: the at-rules that are not pending have
made its references. The induction follows the reading, and the at-rules that have
been passed grow with it. -/
theorem Reads.sheet (h : file.Reads config) :
    ∃ source sheet, config.source? file.identifier = some source
      ∧ Stylesheet.ofSource source = .ok sheet
      ∧ file.name = Path.defaultBlockName file.identifier ∧ file.rules = sheet.rules
      ∧ ∃ passed, sheet.atRules = passed ++ file.pending
        ∧ file.references.map (fun (name, block) => (name, block.identifier))
          = config.targets file.identifier passed := by
  induction h with
  | opened id identifier source sheet hsource hsheet =>
    exact ⟨source, sheet, hsource, hsheet, rfl, rfl, [], rfl, rfl⟩
  | skipped file atRule pending _ hpending hname ih =>
    obtain ⟨source, sheet, hsource, hsheet, hdefault, hrules, passed, hatRules, htargets⟩ := ih
    refine ⟨source, sheet, hsource, hsheet, hdefault, hrules, passed ++ [atRule], ?_, ?_⟩
    · rw [hatRules, hpending, List.append_assoc, List.singleton_append]
    · have hnone : atRule.reference? = none := if_neg hname
      simpa [Config.targets, hnone] using htargets
  | referred file after localName request block _ hrefers hblock ih =>
    obtain ⟨source, sheet, hsource, hsheet, hdefault, hrules, passed, hatRules, htargets⟩ := ih
    obtain ⟨atRule, pending, reference, hpending, hname, hreference, -⟩ := hrefers
    refine ⟨source, sheet, hsource, hsheet, hdefault, hrules, passed ++ [atRule], ?_, ?_⟩
    · rw [hatRules, hpending, List.append_assoc, List.singleton_append]
      rfl
    -- The at-rule that has been passed has made one more reference, and it has been answered.
    · have hsome : atRule.reference? = some reference := (if_pos hname).trans hreference
      simp only [refer, List.map_append, htargets, List.map_cons, List.map_nil, hblock]
      simp [Config.targets, hsome]

/-- The references that the source makes are those that have been answered and those
still to come. -/
theorem Reads.referencesOf (h : file.Reads config) :
    ∃ passed, config.referencesOf file.identifier
        = config.targets file.identifier passed ++ config.targets file.identifier file.pending
      ∧ file.references.map (fun (name, block) => (name, block.identifier))
        = config.targets file.identifier passed := by
  obtain ⟨source, sheet, hsource, hsheet, -, -, passed, hatRules, htargets⟩ := h.sheet
  refine ⟨passed, ?_, htargets⟩
  simp [Config.referencesOf_eq hsource hsheet, hatRules, Config.targets]

/-- What a file refers to next is the first of what it still refers to. At-rules that
are no references have been passed by then, and are not counted. -/
theorem Refers.targets (h : file.Refers config after localName request) :
    config.targets file.identifier file.pending
      = (localName, request.target) :: config.targets after.identifier after.pending := by
  obtain ⟨atRule, pending, reference, hpending, hname, hreference, -⟩ := h
  have hsome : atRule.reference? = some reference := (if_pos hname).trans hreference
  simp [hpending, Config.targets, hsome]

/-- A reference that is taken up is one that the source makes. What a file still
refers to is the end of the list of what its source refers to. -/
theorem Refers.refersTo (h : file.Refers config after localName request)
    (hreads : file.Reads config) : config.RefersTo file.identifier request.target := by
  obtain ⟨passed, hreferences, -⟩ := hreads.referencesOf
  refine ⟨localName, ?_⟩
  rw [hreferences, h.targets]
  exact List.mem_append_right _ List.mem_cons_self

/-- A file that has passed a reference has the identifier that it had. It differs from
what it was in the at-rules that are left, and in nothing else. -/
theorem Refers.identifier (h : file.Refers config after localName request) :
    after.identifier = file.identifier := by
  cases h
  rfl

end OpenFile

/-! ### From request to request -/

namespace Task

/-- The files that wait, from the first request down to the one that is worked on now. Each of
them is the file of a request, and has led to the next request. -/
inductive Stack (config : Config) (first : Request) : List WaitingFile → Request → Prop where
  | bottom : Stack config first [] first
  | push (waiting : List WaitingFile) (lower request : Request) (file after : OpenFile)
      (localName : String) (hbelow : Stack config first waiting lower)
      (hreads : file.Reads config) (hfile : file.identifier = lower.target)
      (hrefers : file.Refers config after localName request) :
      Stack config first (⟨after, localName⟩ :: waiting) request

/-- A file only waits for files that it refers to. Each file of a stack waits for the
one above it, which it has asked for. -/
theorem Stack.refersTo_of_mem_awaits {config : Config} {first request : Request}
    {waiting : List WaitingFile} (h : Stack config first waiting request) {file next : String}
    (hmem : (file, next) ∈ awaitsFrom (some request.target) waiting) :
    config.RefersTo file next := by
  induction h with
  | bottom => cases hmem
  | push waiting lower request before after localName _ hreads hfile hrefers ih =>
    rw [awaitsFrom, hrefers.identifier] at hmem
    rcases List.mem_append.1 hmem with hmem | hmem
    · cases List.mem_singleton.1 hmem
      exact hrefers.refersTo hreads
    -- Further down the stack, the edge ends at the file that the request below was for.
    · exact ih (hfile ▸ hmem)

end Task

/-- What a phase has to do with a request: it is about to get the file of the request, it
compiles the file, or it brings its block. -/
def Phase.IsFor (config : Config) (request : Request) : Phase → Prop
  | entering r => r = request
  | importing r _ => r = request
  | queued r => r = request
  | compiling file => file.Reads config ∧ file.identifier = request.target
  | returning answer => ∀ block, answer = .ok block → block.identifier = request.target

/-- The task has come from a request. What it works on now is the last of a stack of
requests, each of which has led to the next. -/
def Task.From (config : Config) (first : Request) (task : Task) : Prop :=
  ∃ request, Task.Stack config first task.waiting request ∧ task.phase.IsFor config request

/-- The blocks that can be found under an identifier have this identifier. It is
needed where a task takes over a block that another one has built. -/
structure Library.Named (library : Library) : Prop where
  bound : ∀ f block, library.blockFor? f = some block → block.identifier = f
  slot : ∀ f block, (library.slot f).block = some block → block.identifier = f

namespace Task.From

variable {config : Config} {first : Request} {task task' : Task} {me : TaskId}
  {library library' : Library}

/-- A task that has just been made comes from its request. Nothing waits for it, so it
stands at the bottom of the stack. -/
theorem get (config : Config) (reference : String) :
    Task.From config (config.request reference) (.get config reference) :=
  ⟨config.request reference, .bottom, rfl⟩

/-- While a delay goes by a task works on the same request. A delay changes neither
the files that wait nor the request that the innermost one is for. -/
theorem tick (h : task.From config first) : task.tick.From config first := by
  obtain ⟨request, hstack, hphase⟩ := h
  refine ⟨request, ?_, ?_⟩
  · rw [Task.tick]
    split <;> exact hstack
  · rw [Task.tick]
    split
    · rename_i hdelayed
      rw [hdelayed] at hphase
      exact hphase
    · exact hphase

/-- A step keeps where a task comes from. A reference that is taken up puts one more
request on the stack, and an answer takes one off; otherwise the request stays the
same. -/
theorem step (h : task.From config first) (hnamed : library.Named)
    (hmove : Task.Move config me library task library' task') : task'.From config first := by
  obtain ⟨request, hstack, hphase⟩ := h
  cases hmove with
  | refused waiting r cause => exact ⟨request, hstack, fun block hblock => by cases hblock⟩
  | known waiting r block _ _ hbound =>
    cases hphase
    refine ⟨request, hstack, fun b hb => ?_⟩
    cases hb
    exact hnamed.bound _ _ hbound
  | found waiting r block _ hslot =>
    cases hphase
    refine ⟨request, hstack, fun b hb => ?_⟩
    cases hb
    rw [(library.sameBlocks_waitFor waiting _).slot] at hslot
    exact hnamed.slot _ _ hslot
  | takes waiting r => exact ⟨request, hstack, hphase⟩
  | queues waiting r => exact ⟨request, hstack, hphase⟩
  | served waiting r block hslot =>
    cases hphase
    refine ⟨request, hstack, fun b hb => ?_⟩
    cases hb
    exact hnamed.slot _ _ hslot
  | called waiting r => exact ⟨request, hstack, hphase⟩
  | unreadable waiting r error => exact ⟨request, hstack, fun block hblock => by cases hblock⟩
  | opened waiting r source sheet hsource hsheet =>
    cases hphase
    exact ⟨request, hstack, .opened _ _ source sheet hsource hsheet, rfl⟩
  | skipped waiting file atRule pending hpending hname =>
    obtain ⟨hreads, hfile⟩ := hphase
    exact ⟨request, hstack, .skipped file atRule pending hreads hpending hname, hfile⟩
  | refers waiting file after localName r hrefers =>
    obtain ⟨hreads, hfile⟩ := hphase
    exact ⟨r, .push waiting request r file after localName hstack hreads hfile hrefers, rfl⟩
  | faulty waiting file error => exact ⟨request, hstack, fun block hblock => by cases hblock⟩
  -- The block has the identifier of its file, which is the one that has been asked for.
  | built waiting file block _ hbuilt =>
    refine ⟨request, hstack, fun b hb => ?_⟩
    cases hb
    exact (Block.ofRules_keeps hbuilt).identifier.trans hphase.2
  -- The file below has been a request's, and goes on with it.
  | gained waiting below block =>
    obtain _ | ⟨_, lower, _, file, after, localName, hbelow, hreads, hfile, hrefers⟩ := hstack
    exact ⟨lower, hbelow, .referred file after localName request block hreads hrefers
      (hphase block rfl), hrefers.identifier.trans hfile⟩
  | lost waiting below error =>
    obtain _ | ⟨_, lower, _, file, after, localName, hbelow, hreads, hfile, hrefers⟩ := hstack
    exact ⟨lower, hbelow, fun block hblock => by cases hblock⟩

end Task.From

end BlockStyles
