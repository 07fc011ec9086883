import BlockStyles.Proofs.Block.Relabel
import BlockStyles.Proofs.Library.Origins

/-!
# `BlockStyles.Proofs.Library.Sequential`: loading as a plain recursion

`Config.load` is what loading comes to without a library: a file is read, and each
of its references is loaded in turn before the next. There are no slots and no
circles to look out for, only a depth that bounds the recursion. The ids of the
blocks come from a numbering of the identifiers.

With growing depth the outcome of a request may settle; then this is what the
request *means*. A block that has been built means the same at all depths from
some depth on, since the files below it have been read to their ends.

* `Config.Means.unique`: a request means one outcome at most.
* `OpenFile.Reads.load`: what is left of an open file decides what it means.
-/

set_option autoImplicit false

namespace BlockStyles

namespace Config

variable (config : Config) (number : String → Nat)

/-- Goes through the at-rules of a file that are left, with `load` for its references,
and builds the block. The function for references is a parameter, so that the
recursion is on the depth alone. -/
def compileWith (load : Request → Except Error Block) (identifier : String) (rules : List Rule)
    (references : List (String × Block)) : List AtRule → Except Error Block
  | [] =>
    Block.ofRules (number identifier) (Path.defaultBlockName identifier) identifier references rules
  | atRule :: pending =>
    let location : Location := ⟨identifier, atRule.position⟩
    if atRule.name ≠ BlockReference.atRuleName then
      compileWith load identifier rules references pending
    else
      match BlockReference.ofPrelude? atRule.prelude with
      | none => .error (.located location (.malformedReference atRule.prelude))
      | some reference =>
        if (references.lookup reference.localName).isSome then
          .error (.located location (.repeatedAlias reference.localName))
        else
          match load ⟨Path.resolve (some identifier) reference.path config.root, location⟩ with
          | .error error => .error error
          | .ok block =>
            compileWith load identifier rules (references ++ [(reference.localName, block)]) pending

/-- Loads a file, with up to `depth` files on the way from it. -/
def load : Nat → Request → Except Error Block
  | 0, request => .error (.located request.location (.tooDeep config.maxDepth))
  | depth + 1, request =>
    match config.source? request.target with
    | none => .error (.located request.location (.missingFile request.target))
    | some source =>
      match Stylesheet.ofSource source with
      | .error fault => .error (.located ⟨request.target, fault.position⟩ (.unreadable fault))
      | .ok sheet =>
        compileWith config number (load depth) request.target sheet.rules [] sheet.atRules

/-- What a request comes to at every depth that is large enough. Files in a circle may
come to nothing, since their outcome could depend on the depth. -/
def Means (request : Request) (answer : Except Error Block) : Prop :=
  ∃ depth, ∀ more, depth ≤ more → config.load number more request = answer

variable {config : Config} {number : String → Nat} {request : Request}

/-- A request means one outcome at most. Two outcomes are compared at a depth that is
enough for both. -/
theorem Means.unique {answer answer' : Except Error Block} (h : config.Means number request answer)
    (h' : config.Means number request answer') : answer = answer' := by
  obtain ⟨depth, hdepth⟩ := h
  obtain ⟨depth', hdepth'⟩ := h'
  rw [← hdepth _ (Nat.le_max_left depth depth'), hdepth' _ (Nat.le_max_right depth depth')]

/-- An outcome from some depth on may be given for the depth below. Loading a file
takes one from the depth, and this is where that is put right. -/
theorem Means.of_succ {answer : Except Error Block} (depth : Nat)
    (h : ∀ more, depth ≤ more → config.load number (more + 1) request = answer) :
    config.Means number request answer := by
  refine ⟨depth + 1, fun more hmore => ?_⟩
  obtain ⟨less, rfl⟩ := Nat.exists_eq_add_of_lt hmore
  exact h (depth + less) (Nat.le_add_right _ _)

/-- A file that cannot be imported is an error at every depth. Importing comes before
anything that the depth could be needed for. -/
theorem means_of_unreadable {error : Error} (h : request.Unreadable config error) :
    config.Means number request (.error error) := by
  refine Means.of_succ 0 fun more _ => ?_
  cases h with
  | missing hsource => rw [load, hsource]
  | invalid source fault hsource hfault =>
    rw [load, hsource]
    dsimp only
    rw [hfault]

end Config

namespace OpenFile

variable {config : Config} {number : String → Nat} {file after : OpenFile}

/-- What is left of an open file to be done, at a depth for its references. Those that
it has are numbered like the blocks that loading makes. -/
def rest (config : Config) (number : String → Nat) (depth : Nat) (file : OpenFile) :
    Except Error Block :=
  config.compileWith number (config.load number depth) file.identifier file.rules
    (file.references.map (Block.relabelEntry number)) file.pending

/-- The references of a file mean the blocks that they have been answered by. Where a
reference stands does not matter for a block, so this is asked for all locations. -/
def Grounded (config : Config) (number : String → Nat) (file : OpenFile) : Prop :=
  ∀ reference ∈ file.references, ∀ location,
    config.Means number ⟨reference.2.identifier, location⟩ (.ok (reference.2.relabel number))

/-- What is referred to next is no reference of the file yet. Being grounded is about
those that have been answered, and these are the same. -/
theorem Refers.grounded {localName : String} {request : Request}
    (h : file.Refers config after localName request) (hafter : after.Grounded config number) :
    file.Grounded config number := by
  cases h
  exact hafter

/-- At a reference, the file that is referred to decides. Its error is the error of
the file, and its block is one more reference. -/
theorem Refers.rest {localName : String} {request : Request}
    (h : file.Refers config after localName request) (depth : Nat) :
    file.rest config number depth
      = match config.load number depth request with
        | .error error => .error error
        | .ok block =>
          config.compileWith number (config.load number depth) after.identifier after.rules
            (after.references.map (Block.relabelEntry number) ++ [(localName, block)])
            after.pending := by
  obtain ⟨atRule, pending, reference, hpending, hname, hreference, hnew⟩ := h
  rw [OpenFile.rest, hpending, Config.compileWith]
  dsimp only
  rw [if_neg (not_not_intro hname), hreference]
  dsimp only
  rw [Block.lookup_relabelEntry, hnew, if_neg (by simp)]

/-- What an open file means is decided by what is left of it. The induction follows
the reading of the file: the at-rules that have been passed have had the outcome that
loading gives them. -/
theorem Reads.load (h : file.Reads config) (hgrounded : file.Grounded config number) :
    ∃ depth, ∀ more, depth ≤ more → ∀ location,
      config.load number (more + 1) ⟨file.identifier, location⟩ = file.rest config number more := by
  induction h with
  | opened id identifier source sheet hsource hsheet =>
    refine ⟨0, fun more _ location => ?_⟩
    rw [Config.load]
    -- The file that is requested is the one that has been opened.
    change (match config.source? identifier with | none => _ | some source => _) = _
    rw [hsource]
    dsimp only
    rw [hsheet]
    rfl
  -- An at-rule of another kind is passed over at every depth.
  | skipped file atRule pending _ hpending hname ih =>
    obtain ⟨depth, hdepth⟩ := ih hgrounded
    refine ⟨depth, fun more hmore location => (hdepth more hmore location).trans ?_⟩
    rw [OpenFile.rest, hpending, Config.compileWith, if_pos hname]
    rfl
  | referred file after localName request block _ hrefers hblock ih =>
    have hreferences : after.references = file.references := by
      cases hrefers
      rfl
    obtain ⟨depth, hdepth⟩ := ih fun reference hreference =>
      hgrounded reference (List.mem_append_left _ (hreferences ▸ hreference))
    obtain ⟨depth', hdepth'⟩ := hgrounded (localName, block)
      (List.mem_append_right _ List.mem_cons_self) request.location
    -- Deep enough for what has come before, and for the block that has come in.
    refine ⟨max depth depth', fun more hmore location => ?_⟩
    have hload := hdepth' more (Nat.le_trans (Nat.le_max_right _ _) hmore)
    rw [hblock] at hload
    have hfile := hdepth more (Nat.le_trans (Nat.le_max_left _ _) hmore) location
    rw [← hrefers.identifier, hrefers.rest, hload] at hfile
    refine hfile.trans ?_
    rw [OpenFile.rest, refer, List.map_append]
    rfl

/-- A file fails for what is wrong with it. At each depth the work comes to the same
place, with the same references. -/
theorem Reads.means_of_faulty {error : Error} (h : file.Reads config)
    (hgrounded : file.Grounded config number)
    (hids : (Block.bare file.id file.name file.identifier file.references).Grounded number)
    (hfaulty : file.Faulty error) (location : Location) :
    config.Means number ⟨file.identifier, location⟩ (.error error) := by
  obtain ⟨depth, hdepth⟩ := h.load hgrounded
  refine .of_succ depth fun more hmore => (hdepth more hmore location).trans ?_
  cases hfaulty with
  | malformed atRule pending hpending hname hnone =>
    rw [OpenFile.rest, hpending, Config.compileWith, if_neg (not_not_intro hname), hnone]
  | repeated atRule pending reference hpending hname hreference hsome =>
    rw [OpenFile.rest, hpending, Config.compileWith, if_neg (not_not_intro hname), hreference]
    dsimp only
    rw [Block.lookup_relabelEntry, Option.isSome_map, if_pos hsome]
  -- Building commutes with numbering, so the rules fail in the same way.
  | unbuilt _ hpending hunbuilt =>
    obtain ⟨_, _, _, _, hname, -⟩ := h.sheet
    rw [OpenFile.rest, hpending, Config.compileWith, ← hname, Block.ofRules_relabel _ hids,
      hunbuilt]
    rfl

/-- A file without at-rules left means the block that it is built into, numbered like
all others. -/
theorem Reads.means_of_built {block : Block} (h : file.Reads config)
    (hgrounded : file.Grounded config number)
    (hids : (Block.bare file.id file.name file.identifier file.references).Grounded number)
    (hpending : file.pending = [])
    (hbuilt : Block.ofRules file.id file.name file.identifier file.references file.rules
      = .ok block) (location : Location) :
    config.Means number ⟨file.identifier, location⟩ (.ok (block.relabel number)) := by
  obtain ⟨depth, hdepth⟩ := h.load hgrounded
  obtain ⟨_, _, _, _, hname, -⟩ := h.sheet
  refine .of_succ depth fun more hmore => (hdepth more hmore location).trans ?_
  rw [OpenFile.rest, hpending, Config.compileWith, ← hname, Block.ofRules_relabel _ hids, hbuilt]
  rfl

/-- A file fails for what is wrong with a file that it refers to. The depth has to be
enough for both. -/
theorem Refers.means_of_error {localName : String} {request : Request} {error : Error}
    (h : file.Refers config after localName request) (hreads : file.Reads config)
    (hgrounded : file.Grounded config number)
    (herror : config.Means number request (.error error)) (location : Location) :
    config.Means number ⟨file.identifier, location⟩ (.error error) := by
  obtain ⟨depth, hdepth⟩ := hreads.load hgrounded
  obtain ⟨depth', hdepth'⟩ := herror
  refine .of_succ (max depth depth') fun more hmore => ?_
  rw [hdepth more (Nat.le_trans (Nat.le_max_left _ _) hmore) location, h.rest,
    hdepth' more (Nat.le_trans (Nat.le_max_right _ _) hmore)]

end OpenFile

end BlockStyles
