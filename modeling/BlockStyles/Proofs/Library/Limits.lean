import BlockStyles.Proofs.Library.Circles

/-!
# `BlockStyles.Proofs.Library.Limits`: files that can be had but for the limit

A reference *builds* if a block comes of it in a library of its own, provided that the limit for
chains of references is large enough. Then every file that it leads to can be read and built, and
there is no circle among them. So whatever has happened in a library before, and whatever else is
asked for at the same time, nothing can stand in the way of its block but the limit.

* `Config.Builds.means`: what builds means a block.
* `Session.tooDeep_of_builds`: what builds fails for nothing but the limit.
-/

set_option autoImplicit false

namespace BlockStyles

open Relation (TransGen ReflTransGen)

namespace Config

/-- The same files with another limit for chains of references. -/
def withLimit (config : Config) (limit : Nat) : Config := { config with maxDepth := limit }

/-- A block comes of a reference, in a library of its own and with a limit that is
large enough. So this is about the files, and not about a library or its limit. -/
def Builds (config : Config) (reference : String) : Prop :=
  ∃ limit block, (Library.get (config.withLimit limit) .empty reference).2 = some (.ok block)

variable {config : Config} {number : String → Nat} {limit : Nat}

/-! ### Other limits -/

/-- Another limit is no other root directory. So references are resolved alike under
every limit. -/
@[simp]
theorem root_withLimit : (config.withLimit limit).root = config.root := rfl

/-- What a file becomes does not depend on the limit, if its references are loaded
without it. The induction is on the at-rules that are left, since the references
before them have been collected. -/
theorem compileWith_withLimit {load load' : Request → Except Error Block}
    (hload : ∀ request block, load request = .ok block → load' request = .ok block)
    {identifier : String} {rules : List Rule} {references : List (String × Block)}
    {pending : List AtRule} {block : Block}
    (h : (config.withLimit limit).compileWith number load identifier rules references pending
      = .ok block) :
    config.compileWith number load' identifier rules references pending = .ok block := by
  induction pending generalizing references with
  | nil => exact h
  | cons atRule pending ih =>
    rw [compileWith] at h ⊢
    split at h
    · rename_i hname
      rw [if_pos hname]
      -- The reference is there in both, so the rest is the same.
      exact ih h
    · rename_i hname
      rw [if_neg hname]
      split at h
      · cases h
      · split at h
        · cases h
        · rename_i hnew
          rw [if_neg hnew]
          split at h
          · cases h
          · rename_i loaded hloaded
            have hloaded' := hload _ _ hloaded
            rw [root_withLimit] at hloaded'
            rw [hloaded']
            exact ih h

/-- A block that is loaded with one limit is loaded with any other. The depth that is
left is a number of its own here, on which the induction is, and the limit does not
come in. -/
theorem load_withLimit {depth : Nat} {request : Request} {block : Block}
    (h : (config.withLimit limit).load number depth request = .ok block) :
    config.load number depth request = .ok block := by
  induction depth generalizing request block with
  | zero => cases h
  | succ depth ih =>
    -- The limit does not change the files.
    have hsame : (config.withLimit limit).source? request.target
        = config.source? request.target := rfl
    rw [load, hsame] at h
    rw [load]
    cases hsource : config.source? request.target with
    | none =>
      rw [hsource] at h
      cases h
    | some source =>
      rw [hsource] at h
      dsimp only at h ⊢
      cases hsheet : Stylesheet.ofSource source with
      | error fault =>
        rw [hsheet] at h
        cases h
      | ok sheet =>
        rw [hsheet] at h
        -- References are loaded with one less of depth, for which the induction speaks.
        exact compileWith_withLimit (fun _ _ => ih) h

/-- What a reference means does not depend on the limit, as long as it means a block.
An error may depend on it, since the limit is a reason to refuse a file. -/
theorem Means.of_withLimit {request : Request} {block : Block}
    (h : (config.withLimit limit).Means number request (.ok block)) :
    config.Means number request (.ok block) := by
  obtain ⟨depth, hdepth⟩ := h
  exact ⟨depth, fun more hmore => load_withLimit (hdepth more hmore)⟩

namespace Builds

variable {reference : String}

/-- The block of a reference that builds is registered in some session of the same
files. So what is known of registered blocks can be used for it. -/
theorem exists_registered (h : config.Builds reference) :
    ∃ limit session block, Session.Reachable (config.withLimit limit) session
      ∧ block ∈ session.library.blocks ∧ block.identifier = (config.request reference).target := by
  obtain ⟨limit, block, hblock⟩ := h
  have hstart : Session.Reachable (config.withLimit limit) ⟨.empty, [], []⟩ := .refl
  have hreference : [reference][0]? = some reference := rfl
  obtain ⟨answer, hanswer⟩ := Session.exists_answer hstart hreference
  rw [Library.get_eq_getAll, List.head?_eq_getElem?, hanswer] at hblock
  cases hblock
  have hrun := Session.reachable_getAll hstart [reference]
  have hmem := Session.mem_answers_of_getAll [] rfl hanswer
  obtain ⟨hregistered, hidentifier⟩ := (Session.settled_of_reachable hrun).mem_answers hmem
  exact ⟨limit, _, block, hrun, hregistered, hidentifier⟩

/-- What builds means a block, whatever the limit is. In the session where it is
registered it agrees with its meaning, and this does not depend on the limit. -/
theorem means (h : config.Builds reference) (hnumber : Function.Injective number) :
    ∃ block, config.Means number (config.request reference) (.ok block) := by
  obtain ⟨limit, session, block, hreachable, hblock, hidentifier⟩ := h.exists_registered
  have hmeans := (Session.agreeing_of_reachable hnumber hreachable).blocks block hblock
    (config.request reference).location
  rw [hidentifier] at hmeans
  exact ⟨_, hmeans.of_withLimit⟩

/-- What builds leads into no circle. The files are the same for all limits, and so
are their references. -/
theorem not_leadsIntoCircle (h : config.Builds reference) :
    ¬ config.LeadsIntoCircle (config.request reference).target := by
  obtain ⟨limit, session, block, hreachable, hblock, hidentifier⟩ := h.exists_registered
  have hleads := (Session.settled_of_reachable hreachable).arena.not_leadsIntoCircle hblock
  rwa [hidentifier] at hleads

end Builds

end Config

/-! ### What can go wrong -/

/-- If a request in a stack means an error, so does the first one. The induction goes
down the stack: the error of a reference is an error of the file that makes it. -/
theorem Task.Stack.means_of_error {config : Config} {number : String → Nat}
    {first request : Request} {waiting : List WaitingFile} {error : Error}
    (h : Stack config first waiting request)
    (hgrounded : ∀ below ∈ waiting, below.file.Grounded config number)
    (herror : config.Means number request (.error error)) :
    config.Means number first (.error error) := by
  induction h with
  | bottom => exact herror
  | push waiting lower request file after localName _ hreads hfile hrefers ih =>
    obtain ⟨hafter, hothers⟩ := List.forall_mem_cons.1 hgrounded
    have hlower := hrefers.means_of_error hreads (hrefers.grounded hafter) herror lower.location
    rw [hfile] at hlower
    exact ih hothers hlower

namespace Session

variable {config : Config} {session : Session}

/-- An error on behalf of a reference that builds begins where the limit is reached.
Where it would begin otherwise, the request that is worked on would mean an error, and
so would the first one. -/
theorem tooDeep_of_raises (h : Reachable config session) {i : TaskId} {reference : String}
    {task : Task} {error : Error} (hi : session.requests[i]? = some (reference, task))
    (hraises : task.Raises config session.library error) (hbuilds : config.Builds reference) :
    error.cause = .tooDeep config.maxDepth := by
  obtain ⟨number, hnumber⟩ := exists_number
  have hsettled := settled_of_reachable h
  have hagreeing := agreeing_of_reachable hnumber h
  have htask := getElem?_tasks hi
  obtain ⟨block, hmeans⟩ := hbuilds.means hnumber
  obtain ⟨request, hstack, hphase⟩ := hsettled.origins i reference task hi
  have hgrounded : ∀ file ∈ task.files, file.Grounded config number :=
    fun file hfile => hagreeing.grounded hsettled htask hfile
  -- An error that the request means is one that the first request would mean.
  have hnone : ∀ error, ¬ config.Means number request (.error error) := by
    intro error herror
    have hfirst := hstack.means_of_error (fun below hbelow => hgrounded below.file
      (List.mem_append_right _ (List.mem_map_of_mem hbelow))) herror
    cases hmeans.unique hfirst
  cases hraises with
  -- There is no circle on the way, which leaves the limit.
  | refused waiting r cause hrefused =>
    cases hphase
    exact hstack.tooDeep_of_refused
      (fun file hreach hcircle => hbuilds.not_leadsIntoCircle ⟨file, hreach, hcircle⟩)
      (fun _ _ => refersTo_of_awaits (orderly_of_reachable h) hsettled) hrefused
  | unreadable waiting r error hunreadable =>
    cases hphase
    exact absurd (Config.means_of_unreadable hunreadable) (hnone error)
  -- What is wrong with a file with these references is wrong with it on its own.
  | faulty waiting file error hfaulty =>
    obtain ⟨hreads, hfile⟩ := hphase
    have hin : file ∈ Task.files ⟨waiting, .compiling file⟩ := List.mem_cons_self
    have hwrong := hreads.means_of_faulty (hgrounded file hin)
      (hsettled.bare_grounded hnumber htask hin) hfaulty request.location
    rw [hfile] at hwrong
    exact absurd hwrong (hnone error)

/-- A reference that builds fails for nothing but the limit, in whatever way requests
have been made and interleaved. It is enough to look at where errors begin. -/
theorem tooDeep_of_builds (h : Reachable config session) {reference : String} {error : Error}
    (hanswer : (reference, .error error) ∈ session.answered ++ session.answers)
    (hbuilds : config.Builds reference) : error.cause = .tooDeep config.maxDepth := by
  have hkeep := errors_keep (P := fun reference error => config.Builds reference →
    error.cause = .tooDeep config.maxDepth) h fun s i reference task error hs hi hraises =>
      tooDeep_of_raises hs hi hraises
  exact hkeep.of_mem hanswer hbuilds

end Session

end BlockStyles
