import BlockStyles.Proofs.Library.Alone
import BlockStyles.Proofs.Library.Locations
import BlockStyles.Proofs.Path.Canonical

/-!
# `BlockStyles.Proofs.Library.Identifiers`: blocks by their identifiers

A block has the identifier of its file, which some reference has been resolved to: the one that was
asked for, or one in a file on the way from there. With an empty root directory the identifier is a
reference to itself. So whoever asks for the identifier of a registered block asks for its file, and
is given the block at once, whatever else is under way.

* `Session.resolved_of_reachable`: where the identifiers of registered blocks come from.
* `Task.step?_get_of_bound`, `Library.get_of_bound`: a block that is bound to an identifier is the
  answer to requests for it.
* `Session.identifiers_are_canonical`: an identifier leads to its block.
-/

set_option autoImplicit false

namespace BlockStyles

/-- Whatever a task works on, there is a reference that is resolved to it. It is the
one of the first request, or it stands in the file below. -/
theorem Task.Stack.exists_resolve {config : Config} {reference : String}
    {waiting : List WaitingFile} {request : Request}
    (h : Stack config (config.request reference) waiting request) :
    ∃ referrer written, request.target = Path.resolve referrer written config.root := by
  cases h with
  | bottom => exact ⟨none, reference, rfl⟩
  | push waiting lower _ file after localName _ _ _ hrefers =>
    obtain ⟨atRule, pending, written, -, -, -, -⟩ := hrefers
    exact ⟨some file.identifier, written.path, rfl⟩

section

variable {config : Config} {library : Library} {reference : String} {block : Block}

/-- A request for a file with a block is answered in one step. The chain is empty, so
only the limit could speak against it. -/
theorem Task.step?_get_of_bound (me : TaskId) (hdepth : 0 < config.maxDepth)
    (h : library.blockFor? (Path.resolve none reference config.root) = some block) :
    (Task.get config reference).step? config me library
      = some (library, ⟨[], .returning (.ok block)⟩) := by
  have hlimit : ¬ config.maxDepth ≤ 0 := Nat.not_le_of_lt hdepth
  simp [Task.get, Task.step?, Task.enter, Task.chain, hlimit, h]

/-- A request for a file with a block is answered at once when it is the only one, and
the library is left as it was. -/
theorem Library.get_of_bound (hdepth : 0 < config.maxDepth)
    (h : library.blockFor? (Path.resolve none reference config.root) = some block) :
    library.get config reference = (library, some (.ok block)) := by
  rw [get, complete_of_step (Task.step?_get_of_bound 0 hdepth h), complete_of_still rfl]
  rfl

end

namespace Session

variable {config : Config} {session : Session}

/-- A registered block has the identifier that some reference has been resolved to,
and the limit for chains of files allows for at least one file. Both are known of the
task that has built it. -/
theorem resolved_of_reachable (h : Reachable config session) :
    ∀ block ∈ session.library.blocks,
      (∃ referrer written, block.identifier = Path.resolve referrer written config.root)
        ∧ 0 < config.maxDepth := by
  refine blocks_keep (fun s i reference waiting file block hs hi hpending hbuilt => ?_) h
  obtain ⟨request, hstack, -, hfile⟩ := (settled_of_reachable hs).origins i reference _ hi
  have hlimit : Task.KeepsLimit config ⟨waiting, .compiling file⟩ :=
    tasks_keep (fun _ => Nat.zero_le _) (fun _ _ _ _ _ hkeeps => hkeeps.step)
      (fun _ hkeeps => hkeeps.tick) hs i reference _ hi
  obtain ⟨referrer, written, htarget⟩ := hstack.exists_resolve
  have hidentifier : block.identifier = file.identifier := (Block.ofRules_keeps hbuilt).identifier
  exact ⟨⟨referrer, written, hidentifier.trans (hfile.trans htarget)⟩,
    Nat.lt_of_lt_of_le (Nat.succ_pos _) hlimit⟩

/-- Identifiers are canonical.

- What normalizing makes of a path it leaves alone afterwards; it is absolute if and only if the
  path is, no segment of it is empty or `.`, and there is no `..` but in front.
- With an empty root directory, an identifier is resolved to itself.
- So in every reachable session, whatever requests are under way, one for the identifier of a
  registered block is answered by this very block in its first step, and nothing is loaded. -/
theorem identifiers_are_canonical (hroot : config.root = "") (h : Reachable config session) :
    (∀ path, Path.normalize (Path.normalize path) = Path.normalize path
        ∧ Path.isAbsolute (Path.normalize path) = Path.isAbsolute path
        ∧ Path.IsCanonical (Path.normalize path))
      ∧ (∀ referrer reference,
        Path.resolve none (Path.resolve referrer reference "") ""
          = Path.resolve referrer reference "")
      ∧ ∀ block ∈ session.library.blocks,
        (∀ me, (Task.get config block.identifier).step? config me session.library
            = some (session.library, ⟨[], .returning (.ok block)⟩))
          ∧ session.library.get config block.identifier
            = (session.library, some (.ok block)) := by
  refine ⟨fun path => ?_, fun referrer reference => Path.resolve_resolve referrer reference "",
    fun block hblock => ?_⟩
  · exact ⟨Path.normalize_of_isCanonical (Path.isCanonical_normalize path),
      (Path.segmentsOf_normalize path).2, Path.isCanonical_normalize path⟩
  · obtain ⟨⟨referrer, written, hidentifier⟩, hdepth⟩ := resolved_of_reachable h block hblock
    have harena := (settled_of_reachable h).arena
    -- With an empty root, resolving the identifier once more changes nothing.
    have hself : Path.resolve none block.identifier config.root = block.identifier := by
      rw [hidentifier, hroot, Path.resolve_resolve]
    have hbound : session.library.blockFor? (Path.resolve none block.identifier config.root)
        = some block := by
      rw [hself]
      exact (harena.bound _).trans ((harena.slot _ block).2 ⟨hblock, rfl⟩)
    exact ⟨fun me => Task.step?_get_of_bound me hdepth hbound, Library.get_of_bound hdepth hbound⟩

/-- A file is asked for with a detour, and its reference leads above the root
directory. Both blocks are had by their identifiers. Being relative to an empty root
directory, the identifiers need no resolving any more. -/
theorem identifiers_are_canonical_above :
    let config : Config := ⟨[("x/b.css", "@block-reference c from \"../../c.css\";"),
      ("../c.css", "")], "", 2, []⟩
    let library := (Library.get config .empty "./x//y/../b.css").1
    ∃ b ∈ library.blocks, ∃ c ∈ library.blocks, b.identifier = "x/b.css"
      ∧ c.identifier = "../c.css" ∧ b.references = [("c", c)]
      ∧ library.get config "x/b.css" = (library, some (.ok b))
      ∧ library.get config "../c.css" = (library, some (.ok c)) := by
  intro config library
  have hanswer : (Library.get config .empty "./x//y/../b.css").2.map (Except.map fun block =>
      (block.identifier, block.references.map fun entry => (entry.1, entry.2.identifier)))
        = some (.ok ("x/b.css", [("c", "../c.css")])) := by
    decide +kernel
  obtain ⟨b, hb, hshape⟩ := some_map_eq_ok.1 hanswer
  obtain ⟨hidentifier, hreferences⟩ := Prod.mk.inj hshape
  obtain ⟨⟨name, c⟩, hc, hnamed⟩ := List.map_eq_singleton_iff.1 hreferences
  obtain ⟨rfl, hidentifier'⟩ := Prod.mk.inj hnamed
  have hreach : Reachable config _ := reachable_getAll .refl ["./x//y/../b.css"]
  have hsettled := settled_of_reachable hreach
  -- A single request is a run of one request, of which more is known.
  have hgiven : (Library.getAll config .empty ["./x//y/../b.css"]).2[0]?
      = some (some (.ok b)) := by
    rw [Library.get_eq_getAll, Option.join_eq_some_iff, List.head?_eq_getElem?] at hb
    exact hb
  have hin : b ∈ library.blocks := (hsettled.mem_answers (mem_answers_of_getAll [] rfl hgiven)).1
  have hin' : c ∈ library.blocks := hsettled.arena.closed b hin ("c", c) (by simp [hc])
  obtain ⟨-, -, hself⟩ := identifiers_are_canonical rfl hreach
  refine ⟨b, hin, c, hin', hidentifier, hidentifier', hc, ?_, ?_⟩
  · exact hidentifier ▸ (hself b hin).2
  · exact hidentifier' ▸ (hself c hin').2

end Session

end BlockStyles
