import BlockStyles.Proofs.Library.Agreement
import BlockStyles.Proofs.Library.Errors

/-!
# `BlockStyles.Proofs.Library.Circles`: circles of references are found

Files that refer to each other in a circle cannot be had. A circle is found in one of two ways:
the chain of a request comes back to one of its own files, or the file that is asked for leads,
through files that others are loading, back to the chain. Either way the walk that is reported
follows references that the files make, and ends where it has been before.

That no circle is missed is seen from the blocks. The references of a registered block are the
blocks of the files that its source refers to, and a block is larger than its references; so
references lead from it down to an end, and no circle is among them.

* `Task.Stack.isCircle_of_refused`: what is reported as a circle is one.
* `Arena.not_leadsIntoCircle`: no block is registered of a file that leads into a circle.
* `Session.circles_are_found`: so it is in every reachable session.
-/

set_option autoImplicit false

namespace BlockStyles

open Relation (TransGen ReflTransGen)

namespace Config

/-- A walk along references that ends in a file where it has been before. -/
structure IsCircle (config : Config) (walk : List String) : Prop where
  references : walk.IsChain config.RefersTo
  returns : ∃ front last, walk = front ++ [last] ∧ last ∈ front

/-- From a file references lead into a circle. -/
def LeadsIntoCircle (config : Config) (target : String) : Prop :=
  ∃ file, ReflTransGen config.RefersTo target file ∧ TransGen config.RefersTo file file

end Config

/-! ### What is reported -/

/-- A file and its trail are a walk along the edges. The trail goes on with fewer
edges, and what is an edge among them is one among all. -/
theorem isChain_cons_trail (edges : List (String × String)) (file : String) :
    (file :: trail edges file).IsChain fun a b => edges.lookup a = some b := by
  fun_induction trail edges file with
  | case1 => exact .singleton _
  | case2 edges file next hsome _ ih =>
    refine List.isChain_cons_cons.2 ⟨hsome, ih.imp fun a b hab => ?_⟩
    rw [lookup_edgesWithout] at hab
    split at hab
    · cases hab
    · exact hab

/-- A list up to one of its elements, the element, and what comes behind it. The walk
that is reported is cut with `takeWhile` and `dropWhile`, and here is what comes of
that. -/
theorem exists_eq_takeWhile_append {l : List String} {a : String} (h : a ∈ l) :
    ∃ rest, l.dropWhile (· != a) = a :: rest ∧ l = l.takeWhile (· != a) ++ a :: rest := by
  have hdrop : ∃ rest, l.dropWhile (· != a) = a :: rest := by
    induction l with
    | nil => cases h
    | cons b l ih =>
      by_cases hb : b = a
      · exact ⟨l, by simp [hb]⟩
      · obtain ⟨rest, hrest⟩ := ih ((List.mem_cons.1 h).resolve_left (Ne.symm hb))
        exact ⟨rest, by simp [hb, hrest]⟩
  obtain ⟨rest, hrest⟩ := hdrop
  refine ⟨rest, hrest, ?_⟩
  rw [← hrest, List.takeWhile_append_dropWhile]

/-- The walk that is found follows the chain to the target, and then what the files
wait for. It starts at the file of the chain where the trail meets it, and so it ends where
it has started. -/
theorem Library.isCircle_of_circle {config : Config} {library : Library} {chain walk : List String}
    {target : String} (hchain : (chain ++ [target]).IsChain config.RefersTo)
    (hawaits : ∀ file next, library.Awaits file next → config.RefersTo file next)
    (h : library.circle? chain target = some walk) : config.IsCircle walk := by
  unfold circle? at h
  dsimp only at h
  split at h
  -- From here the walk is the chain from `meeting` on, the target, and its trail up to
  -- `meeting`.
  · cases h
  · rename_i meeting hmeet
    cases h
    have hin : meeting ∈ chain := List.contains_iff_mem.1 (List.find?_some hmeet)
    obtain ⟨onward, -, hpath⟩ := exists_eq_takeWhile_append (List.mem_of_find?_eq_some hmeet)
    obtain ⟨rest, hdrop, hsplit⟩ := exists_eq_takeWhile_append hin
    have htrail : (target :: trail library.waits target).IsChain config.RefersTo :=
      (isChain_cons_trail library.waits target).imp fun a b hab =>
        hawaits a b (library.awaits_eq_lookup ▸ hab)
    refine ⟨?_, _, meeting, rfl, ?_⟩
    -- The target is where the way down the chain meets the way along the trail.
    · rw [List.append_assoc, List.cons_append, List.isChain_split]
      refine ⟨hchain.suffix ⟨chain.takeWhile (· != meeting), ?_⟩, htrail.prefix ⟨onward, ?_⟩⟩
      · rw [← List.append_assoc, List.takeWhile_append_dropWhile]
      · rw [List.cons_append, List.append_assoc, List.singleton_append, ← hpath]
    · rw [hdrop]
      exact List.mem_cons_self

/-- What is refused for a circle closes one. Either the chain itself contains the file
that is asked for, or the files that others are loading lead back to it. -/
theorem Task.Stack.isCircle_of_refused {config : Config} {library : Library}
    {first request : Request} {waiting : List WaitingFile} {walk : List String}
    (h : Stack config first waiting request)
    (hawaits : ∀ file next, library.Awaits file next → config.RefersTo file next)
    (hrefused : request.Refused config library waiting (.cyclicReference walk)) :
    config.IsCircle walk := by
  obtain ⟨rest, hrest, hchain⟩ := h.chain
  rw [← hrest] at hchain
  cases hrefused with
  | inChain hin => exact ⟨hchain, _, _, rfl, hin⟩
  | circle _ hnew hdepth hunknown hcircle => exact Library.isCircle_of_circle hchain hawaits hcircle

/-! ### What is registered -/

/-- A reference is smaller than the block that has it. Blocks hold the blocks that
they refer to, and so they cannot hold each other. -/
theorem Block.sizeOf_reference_lt {block : Block} {reference : String × Block}
    (h : reference ∈ block.references) : sizeOf reference.2 < sizeOf block := by
  have hlt := List.sizeOf_lt_of_mem h
  obtain ⟨name, target⟩ := reference
  obtain ⟨id, name', identifier, base, references, root, others⟩ := block
  simp only [Prod.mk.sizeOf_spec, Block.mk.sizeOf_spec] at hlt ⊢
  omega

namespace Arena

variable {config : Config} {library : Library} {tasks : List Task} {block : Block}
  {file target : String}

/-- What the file of a registered block refers to is registered, as one of its
references. -/
theorem exists_reference (h : Arena config library tasks) (hblock : block ∈ library.blocks)
    (hrefers : config.RefersTo block.identifier target) :
    ∃ reference ∈ block.references, reference.2 ∈ library.blocks
      ∧ reference.2.identifier = target := by
  obtain ⟨localName, hin⟩ := hrefers
  rw [← h.written block hblock] at hin
  obtain ⟨reference, hreference, heq⟩ := List.mem_map.1 hin
  cases heq
  exact ⟨reference, hreference, h.closed block hblock reference hreference, rfl⟩

/-- What the file of a registered block leads to is registered, too, by a smaller
block. The induction goes along the walk, and sizes go down at each of its references. -/
theorem exists_smaller (h : Arena config library tasks) (hblock : block ∈ library.blocks)
    (hreach : TransGen config.RefersTo block.identifier target) :
    ∃ other ∈ library.blocks, other.identifier = target ∧ sizeOf other < sizeOf block := by
  induction hreach with
  | single hrefers =>
    obtain ⟨reference, hreference, hin, htarget⟩ := h.exists_reference hblock hrefers
    exact ⟨_, hin, htarget, Block.sizeOf_reference_lt hreference⟩
  | tail _ hrefers ih =>
    obtain ⟨middle, hmiddle, rfl, hlt⟩ := ih
    obtain ⟨reference, hreference, hin, htarget⟩ := h.exists_reference hmiddle hrefers
    exact ⟨_, hin, htarget, Nat.lt_trans (Block.sizeOf_reference_lt hreference) hlt⟩

/-- The file of a registered block does not lead into a circle. A file on the circle
would have a block as well, which would be smaller than itself. -/
theorem not_leadsIntoCircle (h : Arena config library tasks) (hblock : block ∈ library.blocks) :
    ¬ config.LeadsIntoCircle block.identifier := by
  rintro ⟨file, hreach, hcircle⟩
  -- The file where the circle is reached has a block, as it is the file itself or is led
  -- to.
  have hmember : ∃ member ∈ library.blocks, member.identifier = file := by
    rcases Relation.reflTransGen_iff_eq_or_transGen.1 hreach with rfl | hreach
    · exact ⟨block, hblock, rfl⟩
    · obtain ⟨member, hmember, hfile, -⟩ := h.exists_smaller hblock hreach
      exact ⟨member, hmember, hfile⟩
  obtain ⟨member, hmember, rfl⟩ := hmember
  -- Around the circle there would be a smaller block of the same file.
  obtain ⟨other, hother, hsame, hlt⟩ := h.exists_smaller hmember hcircle
  rw [h.eq_of_identifier hother hmember hsame] at hlt
  exact Nat.lt_irrefl _ hlt

end Arena

/-! ### Reachable sessions -/

namespace Session

variable {config : Config} {session : Session}

/-- An error that begins with a walk is one about a circle. Of all places where an
error can begin, only a refused request has such a cause. -/
theorem isCircle_of_raises (h : Reachable config session) {i : TaskId} {reference : String}
    {task : Task} {error : Error} (hi : session.requests[i]? = some (reference, task))
    (hraises : task.Raises config session.library error) {walk : List String}
    (hwalk : error.cause = .cyclicReference walk) : config.IsCircle walk := by
  have hsettled := settled_of_reachable h
  have hchain : error.cause.OfChain := hwalk ▸ .cyclicReference walk
  obtain ⟨waiting, r, rfl, hrefused⟩ := hraises.refused_of_cause hchain
  obtain ⟨request, hstack, rfl⟩ := hsettled.origins i reference _ hi
  rw [hwalk] at hrefused
  exact hstack.isCircle_of_refused
    (fun _ _ => refersTo_of_awaits (orderly_of_reachable h) hsettled) hrefused

/-- Circles of references are reported where they are, and none is missed. In every reachable
session, whatever requests have been made and however they are interleaved:

- if a request is answered by the error that files refer to each other in a circle, now or
  before, the walk that the error reports is one along references, and its last file is also an
  earlier one;
- of a file from which references lead into a circle there is no block, registered or as an
  answer;
- if no request is under way, every such file among references that are then loaded together is
  answered by an error. -/
theorem circles_are_found (h : Reachable config session) :
    (∀ reference error walk, (reference, .error error) ∈ session.answered ++ session.answers →
        error.cause = .cyclicReference walk → config.IsCircle walk)
      ∧ (∀ target, config.LeadsIntoCircle target →
        session.library.blockFor? target = none
          ∧ (∀ block ∈ session.library.blocks, block.identifier ≠ target)
          ∧ ∀ reference block, Path.resolve none reference config.root = target →
            (reference, .ok block) ∉ session.answered ++ session.answers)
      ∧ (session.requests = [] → ∀ (references : List String) (i : Nat) (reference : String),
        references[i]? = some reference →
          config.LeadsIntoCircle (Path.resolve none reference config.root) →
            ∃ error,
              (session.library.getAll config references).2[i]? = some (some (.error error))) := by
  -- An answer is a registered block of the file that the reference means.
  have hnone : ∀ {s : Session}, Reachable config s → ∀ reference block,
      (reference, .ok block) ∈ s.answered ++ s.answers →
        ¬ config.LeadsIntoCircle (Path.resolve none reference config.root) := by
    intro s hs reference block hanswer
    have hsettled := settled_of_reachable hs
    obtain ⟨hblock, hidentifier⟩ : block ∈ s.library.blocks
        ∧ block.identifier = (config.request reference).target :=
      (List.mem_append.1 hanswer).elim (hsettled.answered reference block) hsettled.mem_answers
    have hleads := hsettled.arena.not_leadsIntoCircle hblock
    rwa [hidentifier] at hleads
  refine ⟨fun reference error walk hanswer => ?_, fun target hcircle => ?_,
    fun hidle references i reference hreference hcircle => ?_⟩
  -- Reported walks are looked at where the errors begin, and from there the errors are only
  -- passed on.
  · have hkeep := errors_keep (P := fun _ error => ∀ walk, error.cause = .cyclicReference walk →
      config.IsCircle walk) h fun s i reference task error hs hi hraises walk =>
        isCircle_of_raises hs hi hraises
    exact hkeep.of_mem hanswer walk
  · have hblocks : ∀ block ∈ session.library.blocks, block.identifier ≠ target := by
      rintro block hblock rfl
      exact (settled_of_reachable h).arena.not_leadsIntoCircle hblock hcircle
    refine ⟨Option.eq_none_iff_forall_ne_some.2 fun block hbound => ?_, hblocks, ?_⟩
    · have harena := (settled_of_reachable h).arena
      obtain ⟨hblock, hidentifier⟩ := (harena.slot _ _).1 (harena.bound _ ▸ hbound)
      exact hblocks block hblock hidentifier
    · rintro reference block rfl hanswer
      exact hnone h reference block hanswer hcircle
  · obtain ⟨library, requests, answered⟩ := session
    cases hidle
    -- Every request of a run is answered, and a block is excluded.
    obtain ⟨answer, hanswer⟩ := exists_answer h hreference
    cases answer with
    | error error => exact ⟨error, hanswer⟩
    | ok block =>
      have hmem := mem_answers_of_getAll answered hreference hanswer
      exact absurd hcircle (hnone (reachable_getAll h references) reference block
        (List.mem_append_right _ hmem))

/-- Two files that refer to each other are asked for together, and one of them takes a
while. The two requests meet in the middle, and the circle is found by what the files
wait for. Neither request alone has been round the circle by then. -/
theorem circles_are_found_crossed :
    let config : Config := ⟨[("/r/a.css", "@block-reference b from \"./b.css\";"),
      ("/r/b.css", "@block-reference a from \"./a.css\";")], "/r", 32, [("/r/b.css", 1)]⟩
    let walk := ["/r/a.css", "/r/b.css", "/r/a.css"]
    (Library.getAll config .empty ["a.css", "b.css"]).2[0]?
        = some (some (.error (.located ⟨"/r/b.css", ⟨1, 1⟩⟩ (.cyclicReference walk))))
      ∧ config.IsCircle walk
      ∧ (Library.getAll config .empty ["a.css", "b.css"]).1.blockFor? "/r/a.css" = none := by
  intro config walk
  -- Blocks cannot be compared by computation, but identifiers can, and here the answer is
  -- an error.
  have hanswers : (Library.getAll config .empty ["a.css", "b.css"]).2[0]?.map
      (Option.map (Except.map Block.identifier))
        = some (some (.error (.located ⟨"/r/b.css", ⟨1, 1⟩⟩ (.cyclicReference walk)))) := by
    decide +kernel
  obtain ⟨answer, hanswer, hmapped⟩ := Option.map_eq_some_iff.1 hanswers
  cases some_map_eq_error.1 hmapped
  have hstart : Reachable config start := .refl
  have hrun := reachable_getAll hstart ["a.css", "b.css"]
  obtain ⟨hsound, hcomplete, -⟩ := circles_are_found hrun
  have hcircle : config.IsCircle walk := by
    have hmem := mem_answers_of_getAll [] rfl hanswer
    exact hsound "a.css" _ walk (List.mem_append_right _ hmem) rfl
  obtain ⟨hab, hrest⟩ := List.isChain_cons_cons.1 hcircle.references
  obtain ⟨hba, -⟩ := List.isChain_cons_cons.1 hrest
  exact ⟨hanswer, hcircle, (hcomplete "/r/a.css" ⟨_, .refl, .tail (.single hab) hba⟩).1⟩

end Session

end BlockStyles
