import BlockStyles.Proofs.Library.Circles
import BlockStyles.Proofs.Stylesheet.Places
import BlockStyles.Proofs.Text.Positions

/-!
# `BlockStyles.Proofs.Library.Locations`: where errors are located

What is wrong with a file is located in it. That a file cannot be had is located at the reference
that asks for it; if it is the file that the request itself is for, no reference asks for it, and
the file is named without a place.

Many files can be waited for at once, and a file can be given up by one task and imported by
another. Still each error is located on the way that has led to it, since a request carries the
place of its reference along, and that place is in the file on top of those that wait.

* `Task.Stack.origin`: a request is the first one, or it comes from a reference.
* `Traces.of_denies`, `Traces.of_fault`, `Traces.of_obstructs`: the three kinds of locations, which
  are a file without a place, a place in a file that is wrong, and the place of a reference.
* `Session.exists_traces_of_raises`: where an error begins, its location can be traced back.
* `Session.errors_are_located`: so all errors have one.
-/

set_option autoImplicit false

namespace BlockStyles

open BlockStyles.Text
open Relation (ReflTransGen)

/-! ### Locations -/

namespace Config

/-- The file that is asked for cannot be had itself: there is none, or no chain may hold any. -/
inductive Denies (config : Config) (target : String) : Cause → Prop where
  | missing (h : config.source? target = none) : Denies config target (.missingFile target)
  | noDepth (h : config.maxDepth = 0) : Denies config target (.tooDeep 0)

/-- The location is a place in the source of its file. Its line is known, unless the number of
the line is lost in 32 bits. -/
def IsPlace (config : Config) (location : Location) : Prop :=
  ∃ source before rest, config.source? location.file = some source
    ∧ Stands source.toList location.position before rest
    ∧ (location.position.isKnown = true ↔ ¬ 2 ^ 32 ∣ before.count '\n' + 1)

/-- At the location an at-rule refers to another file. The at-rule stands in the
source of the file that the location names. -/
structure RefersAt (config : Config) (location : Location) (atRule : AtRule) (next : String) :
    Prop where
  position : location.position = atRule.position
  written : ∃ source sheet, config.source? location.file = some source
    ∧ Stylesheet.ofSource source = .ok sheet ∧ atRule ∈ sheet.atRules
  refers : ∃ reference, atRule.reference? = some reference
    ∧ Path.resolve (some location.file) reference.path config.root = next

/-- Why the reference of a file to the next one fails, on the way from a target. There
are three reasons: there is no such file, the chain up to the referring file has its
full length, or the reference is part of a circle. -/
inductive Obstructs (config : Config) (target file next : String) : Cause → Prop where
  | missing (h : config.source? next = none) : Obstructs config target file next (.missingFile next)
  | tooDeep (chain : List String) (hstart : chain.head? = some target)
      (hstop : chain.getLast? = some file) (hchain : chain.IsChain config.RefersTo)
      (hlength : chain.length = config.maxDepth) :
      Obstructs config target file next (.tooDeep config.maxDepth)
  | circle (walk : List String) (hcircle : config.IsCircle walk) (hstep : [file, next] <:+: walk) :
      Obstructs config target file next (.cyclicReference walk)

/-- An error on behalf of a target, and a location from which it is seen how it has come about. -/
structure Traces (config : Config) (target : String) (error : Error) (location : Location) :
    Prop where
  located : error.location = some location
  kind : error.cause.kind = .ofStylesheet ∨ error.cause.kind = .ofImport
  /-- References lead from the target to the file. -/
  reach : ReflTransGen config.RefersTo target location.file
  /-- Only what is about the target itself has no place. -/
  denied : config.Denies target error.cause → location = .ofFile target
  placed : ¬ config.Denies target error.cause → config.IsPlace location
  /-- If a file cannot be had, a reference to it stands there; or a base is not even referred to. -/
  obstructed : ¬ config.Denies target error.cause → error.cause.kind = .ofImport →
    (∃ localName, error.cause = .unknownBase localName)
      ∨ ∃ atRule next, config.RefersAt location atRule next
        ∧ config.Obstructs target location.file next error.cause

variable {config : Config} {target : String} {location : Location} {cause : Cause}

/-- What stands in a source stands at a place. The number of a line is known unless it
is a multiple of what a counter can hold. -/
theorem isPlace_of_stands {source : String} {before rest : List Char}
    (hsource : config.source? location.file = some source)
    (hstands : Stands source.toList location.position before rest) : config.IsPlace location := by
  refine ⟨source, before, rest, hsource, hstands, ?_⟩
  rw [← Position.isKnown_after, Position.isKnown, Position.isKnown, hstands.line_eq]

section
variable {source : String} {sheet : Stylesheet}
  (hsource : config.source? location.file = some source)
  (hsheet : Stylesheet.ofSource source = .ok sheet)
include hsource hsheet

/-- At-rules stand at places. That the statements of a source stand where their
positions say is a result about stylesheets. -/
theorem isPlace_of_atRule {atRule : AtRule} (hatRule : atRule ∈ sheet.atRules)
    (hposition : location.position = atRule.position) : config.IsPlace location := by
  obtain ⟨before, c, rest, hstands, -⟩ :=
    (Stylesheet.isPlaced_of_ofSource hsheet).atRules atRule hatRule
  exact isPlace_of_stands hsource (hposition ▸ hstands)

/-- Rules and declarations stand at places. The position of a fault in the rules is
one of these. -/
theorem isPlace_of_standsAt {rule : Rule} (hrule : rule ∈ sheet.rules)
    (hposition : rule.StandsAt location.position) : config.IsPlace location := by
  have hplaced := Stylesheet.isPlaced_of_ofSource hsheet
  rcases hposition with hposition | ⟨declaration, hdeclaration, hposition⟩
  · obtain ⟨before, c, rest, hstands, -⟩ := hplaced.rules rule hrule
    exact isPlace_of_stands hsource (hposition ▸ hstands)
  · obtain ⟨before, c, rest, hstands, -⟩ :=
      hplaced.declarations rule hrule declaration hdeclaration
    exact isPlace_of_stands hsource (hposition ▸ hstands)

end

/-- Where an at-rule refers to another file there is a place. The source of the file
can be read there, or no at-rule would be known. -/
theorem RefersAt.isPlace {atRule : AtRule} {next : String}
    (h : config.RefersAt location atRule next) : config.IsPlace location := by
  obtain ⟨source, sheet, hsource, hsheet, hatRule⟩ := h.written
  exact isPlace_of_atRule hsource hsheet hatRule h.position

/-- A file that there is not makes no references. So from a missing target nothing
else can be reached. -/
theorem eq_of_reach_of_missing {file : String} (hmissing : config.source? target = none)
    (hreach : ReflTransGen config.RefersTo target file) : file = target := by
  rcases hreach.cases_head with rfl | ⟨next, ⟨localName, hin⟩, -⟩
  · rfl
  · rw [referencesOf, hmissing] at hin
    cases hin

/-- What is in the way of a reference is not about the target itself. The file with
the reference is there, and there is a chain of at least one file. -/
theorem Obstructs.not_denies {file next : String} (h : config.Obstructs target file next cause)
    (hreach : ReflTransGen config.RefersTo target file) (hfile : config.source? file ≠ none) :
    ¬ config.Denies target cause := by
  intro hdenies
  cases hdenies with
  | missing hmissing => exact hfile (eq_of_reach_of_missing hmissing hreach ▸ hmissing)
  | noDepth hnone =>
    generalize hcause : Cause.tooDeep 0 = cause at h
    cases h with
    | tooDeep chain hstart hstop hchain hlength =>
      rw [hnone, List.length_eq_zero_iff] at hlength
      rw [hlength] at hstart
      cases hstart
    | _ => cases hcause

namespace Traces

/-- The file that is asked for cannot be had. The error is located at the file,
without a place in it. -/
theorem of_denies (h : config.Denies target cause) :
    config.Traces target (.located (.ofFile target) cause) (.ofFile target) where
  located := rfl
  kind := by cases h <;> exact .inr rfl
  reach := .refl
  denied := fun _ => rfl
  placed := absurd h
  obstructed := absurd h

/-- Something is wrong with a file. The error is located in this file, and it is one
about a stylesheet or about a base that no reference brings. -/
theorem of_fault (hreach : ReflTransGen config.RefersTo target location.file)
    (hplace : config.IsPlace location)
    (hcause : cause.kind = .ofStylesheet ∨ ∃ localName, cause = .unknownBase localName) :
    config.Traces target (.located location cause) location where
  located := rfl
  kind := hcause.imp id fun ⟨_, h⟩ => h ▸ rfl
  reach := hreach
  denied := by
    intro hdenies
    cases hdenies <;> rcases hcause with h | ⟨_, h⟩ <;> cases h
  placed := fun _ => hplace
  obstructed := fun _ hkind => hcause.elim (fun h => nomatch hkind.symm.trans h) .inl

/-- A file refers to one that cannot be had. The error is located at the reference,
and not in the file that cannot be had. -/
theorem of_obstructs {atRule : AtRule} {next : String}
    (hreach : ReflTransGen config.RefersTo target location.file)
    (hrefers : config.RefersAt location atRule next)
    (h : config.Obstructs target location.file next cause) :
    config.Traces target (.located location cause) location where
  located := rfl
  kind := by cases h <;> exact .inr rfl
  reach := hreach
  denied := by
    obtain ⟨source, sheet, hsource, -⟩ := hrefers.written
    have hfile : config.source? location.file ≠ none := by simp [hsource]
    exact fun hdenies => absurd hdenies (h.not_denies hreach hfile)
  placed := fun _ => hrefers.isPlace
  obstructed := fun _ _ => .inr ⟨atRule, next, hrefers, h⟩

end Traces

end Config

/-! ### Chains within the limit -/

/-- How many files a phase has open on top of those that wait, or is about to open. -/
def Phase.opens : Phase → Nat
  | entering _ => 0
  | importing _ _ => 1
  | queued _ => 1
  | compiling _ => 1
  | returning _ => 0

/-- A task has no more files open than a chain may have. -/
def Task.KeepsLimit (config : Config) (task : Task) : Prop :=
  task.waiting.length + task.phase.opens ≤ config.maxDepth

namespace Task.KeepsLimit

variable {config : Config} {me : TaskId} {library library' : Library} {task task' : Task}

/-- The number of open files does not change while a delay goes by. Only a request
that is let in makes them more. -/
theorem tick (h : task.KeepsLimit config) : task.tick.KeepsLimit config := by
  unfold Task.tick
  split
  · rename_i hphase
    rwa [KeepsLimit, hphase] at h
  · exact h

/-- A file is only opened below the limit. The slot is taken or the queue joined after
the chain has been measured, and from then on the file is counted. -/
theorem step (h : task.KeepsLimit config)
    (hmove : Task.Move config me library task library' task') : task'.KeepsLimit config := by
  have hclaims : ∀ {library : Library} {waiting : List WaitingFile} {request : Request},
      request.Claims config library waiting → waiting.length + 1 ≤ config.maxDepth := by
    intro library waiting request hclaims
    have hdepth := hclaims.depth
    rwa [length_chain] at hdepth
  cases hmove with
  | takes waiting request hclaim | queues waiting request other hclaim => exact hclaims hclaim
  -- No other move opens a file that has not been counted before.
  | _ =>
    simp only [KeepsLimit, Phase.opens, List.length_cons] at h ⊢
    omega

end Task.KeepsLimit

/-! ### Where requests come from -/

namespace Task.Stack

variable {config : Config} {first request : Request} {waiting : List WaitingFile}

/-- A request is the first one, or it comes from a reference in the last file of the
chain, which starts at the file of the first request. -/
theorem origin (h : Stack config first waiting request) :
    waiting = [] ∧ request = first
      ∨ ∃ atRule, config.RefersAt request.location atRule request.target
        ∧ (Task.chain waiting).head? = some first.target
        ∧ (Task.chain waiting).getLast? = some request.location.file
        ∧ (Task.chain waiting).IsChain config.RefersTo
        ∧ ReflTransGen config.RefersTo first.target request.location.file := by
  cases h with
  | bottom => exact .inl ⟨rfl, rfl⟩
  | push waiting lower _ file after localName hbelow hreads hfile hrefers =>
    obtain ⟨rest, hrest, hchain⟩ := hbelow.chain
    have hreach := hbelow.reach
    obtain ⟨source, sheet, hsource, hsheet, -, -, passed, hatRules, -⟩ := hreads.sheet
    obtain ⟨atRule, pending, reference, hpending, hname, hreference, -⟩ := hrefers
    have hin : atRule ∈ sheet.atRules := by simp [hatRules, hpending]
    -- The file that refers is the last one of the chain.
    have heq : Task.chain (⟨{ file with pending }, reference.localName⟩ :: waiting)
        = Task.chain waiting ++ [lower.target] := by
      simp [Task.chain, hfile]
    refine .inr ⟨atRule, ⟨rfl, ⟨source, sheet, hsource, hsheet, hin⟩, reference, ?_, rfl⟩,
      ?_, ?_, ?_, ?_⟩
    · exact (if_pos hname).trans hreference
    · rw [heq, hrest]
      rfl
    · rw [heq, hfile]
      exact List.getLast?_concat
    · rw [heq, hrest]
      exact hchain
    · rw [hfile]
      exact hreach

end Task.Stack

/-- The circle that is found goes from the last file of the chain to the target. So
the reference that is refused is one of its steps. -/
theorem Library.infix_of_circle {library : Library} {chain walk : List String}
    {target file : String} (hlast : chain.getLast? = some file)
    (h : library.circle? chain target = some walk) : [file, target] <:+: walk := by
  unfold circle? at h
  dsimp only at h
  split at h
  · cases h
  · rename_i meeting hmeet
    cases h
    obtain ⟨rest, hdrop, hsplit⟩ :=
      exists_eq_takeWhile_append (List.contains_iff_mem.1 (List.find?_some hmeet))
    have hend : (chain.dropWhile (· != meeting)).getLast? = some file := by
      rw [hsplit, List.getLast?_append_of_ne_nil _ (List.cons_ne_nil _ _)] at hlast
      rw [hdrop, hlast]
    obtain ⟨front, hfront⟩ := List.getLast?_eq_some_iff.1 hend
    exact ⟨front, _, by rw [hfront, List.append_assoc, List.append_assoc, List.append_assoc]; rfl⟩

/-- Nothing is a circle if there is no chain that it could lead back to. A file that
is asked for from outside has no files waiting for it. -/
theorem Library.circle?_nil (library : Library) (target : String) :
    library.circle? [] target = none := by
  unfold circle?
  dsimp only
  have hnone : (trail library.waits target).find? ([] : List String).contains = none :=
    List.find?_eq_none.2 fun file _ => by simp
  rw [hnone]

namespace Task.Stack

variable {config : Config} {first request : Request} {waiting : List WaitingFile}
  {library : Library} {cause : Cause}

/-- What is refused is refused for itself, or something is in the way of its
reference. The first is so if no chain leads to the request, and then only a limit of
zero can refuse it. -/
theorem traces_of_refused (h : Stack config first waiting request)
    (hfirst : first.location = .ofFile first.target)
    (hlimit : waiting.length ≤ config.maxDepth)
    (hawaits : ∀ file next, library.Awaits file next → config.RefersTo file next)
    (hrefused : request.Refused config library waiting cause) :
    config.Traces first.target (.located request.location cause) request.location := by
  rcases h.origin with ⟨rfl, rfl⟩ | ⟨atRule, hrefers, hstart, hstop, hchain, hreach⟩
  · rw [hfirst]
    refine .of_denies ?_
    cases hrefused with
    | inChain hin => cases hin
    -- The chain is never longer than the limit, so here it has just this length.
    | tooDeep hnew hdeep =>
      have hnone : config.maxDepth = 0 := Nat.le_zero.1 hdeep
      exact hnone ▸ .noDepth hnone
    | circle walk hnew hdepth hunknown hcircle =>
      rw [Task.chain, List.map_nil, List.reverse_nil, library.circle?_nil] at hcircle
      cases hcircle
  · refine .of_obstructs hreach hrefers ?_
    cases hrefused with
    | inChain hin =>
      refine .circle _ (h.isCircle_of_refused hawaits (.inChain hin)) ?_
      obtain ⟨front, hfront⟩ := List.getLast?_eq_some_iff.1 hstop
      exact ⟨front, [], by rw [hfront]; simp⟩
    | tooDeep hnew hdeep =>
      refine .tooDeep _ hstart hstop hchain (Nat.le_antisymm ?_ hdeep)
      rwa [length_chain]
    | circle walk hnew hdepth hunknown hcircle =>
      refine .circle _ (h.isCircle_of_refused hawaits ?_) (Library.infix_of_circle hstop hcircle)
      exact .circle walk hnew hdepth hunknown hcircle

/-- What cannot be imported is missing itself, or as the target of a reference; or its
source is wrong. In the last case the error is located at the fault in the source. -/
theorem traces_of_unreadable (h : Stack config first waiting request)
    (hfirst : first.location = .ofFile first.target) {error : Error}
    (hunreadable : request.Unreadable config error) :
    ∃ location, config.Traces first.target error location := by
  cases hunreadable with
  | missing hmissing =>
    rcases h.origin with ⟨rfl, rfl⟩ | ⟨atRule, hrefers, -, -, -, hreach⟩
    · rw [hfirst]
      exact ⟨_, .of_denies (.missing hmissing)⟩
    · exact ⟨_, .of_obstructs hreach hrefers (.missing hmissing)⟩
  | invalid source fault hsource hfault =>
    obtain ⟨before, rest, kind, hstands, -⟩ := Stylesheet.exists_stands_of_ofSource hfault
    exact ⟨_, .of_fault h.reach (Config.isPlace_of_stands hsource hstands) (.inl rfl)⟩

/-- What is wrong with a file is located at one of its at-rules, rules and
declarations. -/
theorem traces_of_faulty (h : Stack config first waiting request) {file : OpenFile} {error : Error}
    (hreads : file.Reads config) (hfile : file.identifier = request.target)
    (hfaulty : file.Faulty error) : ∃ location, config.Traces first.target error location := by
  obtain ⟨source, sheet, hsource, hsheet, -, hrules, passed, hatRules, -⟩ := hreads.sheet
  have hreach : ReflTransGen config.RefersTo first.target file.identifier := hfile ▸ h.reach
  -- The at-rules that are pending are at-rules of the source.
  have hatRule : ∀ {atRule : AtRule} {pending : List AtRule}, file.pending = atRule :: pending →
      config.IsPlace ⟨file.identifier, atRule.position⟩ := by
    intro atRule pending hpending
    exact Config.isPlace_of_atRule hsource hsheet (by simp [hatRules, hpending]) rfl
  cases hfaulty with
  | malformed atRule pending hpending =>
    exact ⟨_, .of_fault hreach (hatRule hpending) (.inl rfl)⟩
  | repeated atRule pending reference hpending =>
    exact ⟨_, .of_fault hreach (hatRule hpending) (.inl rfl)⟩
  | unbuilt _ _ hunbuilt =>
    obtain ⟨rule, position, cause, hrule, hposition, hcause⟩ := Block.inRules_of_ofRules hunbuilt
    have hplace : config.IsPlace ⟨file.identifier, position⟩ :=
      Config.isPlace_of_standsAt hsource hsheet (hrules ▸ hrule) hposition
    refine ⟨_, .of_fault hreach hplace ?_⟩
    cases hcause with
    | unknownBase localName => exact .inr ⟨localName, rfl⟩
    | _ => exact .inl rfl

end Task.Stack

/-! ### Reachable sessions -/

namespace Session

variable {config : Config} {session : Session}

/-- Where an error begins it can be traced back to the file that has been asked for.
There is one lemma for each of the three places where errors begin. -/
theorem exists_traces_of_raises (h : Reachable config session) {i : TaskId} {reference : String}
    {task : Task} {error : Error} (hi : session.requests[i]? = some (reference, task))
    (hraises : task.Raises config session.library error) :
    ∃ location, config.Traces (Path.resolve none reference config.root) error location := by
  have hsettled := settled_of_reachable h
  -- A pile never gets higher than the limit, which is what an error about the limit says.
  have hlimit : task.KeepsLimit config :=
    tasks_keep (fun _ => Nat.zero_le _) (fun _ _ _ _ _ hkeeps => hkeeps.step)
      (fun _ hkeeps => hkeeps.tick) h i reference task hi
  obtain ⟨request, hstack, hphase⟩ := hsettled.origins i reference task hi
  cases hraises with
  | refused waiting r cause hrefused =>
    cases hphase
    exact ⟨_, hstack.traces_of_refused rfl hlimit
      (fun _ _ => refersTo_of_awaits (orderly_of_reachable h) hsettled) hrefused⟩
  | unreadable waiting r error hunreadable =>
    cases hphase
    exact hstack.traces_of_unreadable rfl hunreadable
  | faulty waiting file error hfaulty =>
    exact hstack.traces_of_faulty hphase.1 hphase.2 hfaulty

/-- Errors are located on the way of references that has led to them. In every reachable session,
whatever requests have been made and however they are interleaved:

- if a request is answered by an error, now or before, the error has a location that can be traced
  back to the file that the request is for;
- if no request is under way, so it is with every error by which references that are then loaded
  together are answered. -/
theorem errors_are_located (h : Reachable config session) :
    (∀ reference error, (reference, .error error) ∈ session.answered ++ session.answers →
        ∃ location, config.Traces (Path.resolve none reference config.root) error location)
      ∧ (session.requests = [] → ∀ (references : List String) (i : Nat) (reference : String)
        (error : Error), references[i]? = some reference →
          (session.library.getAll config references).2[i]? = some (some (.error error)) →
            ∃ location,
              config.Traces (Path.resolve none reference config.root) error location) := by
  -- Both parts are about answers in reachable sessions, a run being one of them.
  have htraces : ∀ {s : Session}, Reachable config s → ∀ {reference : String} {error : Error},
      (reference, .error error) ∈ s.answered ++ s.answers →
        ∃ location, config.Traces (Path.resolve none reference config.root) error location := by
    intro s hs reference error hanswer
    have hkeep := errors_keep (P := fun reference error =>
      ∃ location, config.Traces (Path.resolve none reference config.root) error location) hs
        fun s i reference task error hs hi hraises => exists_traces_of_raises hs hi hraises
    exact hkeep.of_mem hanswer
  refine ⟨fun _ _ hanswer => htraces h hanswer,
    fun hidle references i reference error hreference hanswer => ?_⟩
  obtain ⟨library, requests, answered⟩ := session
  cases hidle
  have hmem := mem_answers_of_getAll answered hreference hanswer
  exact htraces (reachable_getAll h references) (List.mem_append_right _ hmem)

/-- Of two files that are asked for together, the first one refers to the second,
which refers to a file that there is not. Each request imports the second file; both
errors are located there. So the location is that of the reference which fails, and
not of the one that was asked for. -/
theorem errors_are_located_shared :
    let config : Config := ⟨[("/r/a.css", "@block-reference b from \"./b.css\";"),
      ("/r/b.css", "@block-reference c from \"./c.css\";")], "/r", 32, [("/r/b.css", 2)]⟩
    let location : Location := ⟨"/r/b.css", ⟨1, 1⟩⟩
    let error : Error := .located location (.missingFile "/r/c.css")
    (Library.getAll config .empty ["a.css", "b.css"]).2[0]? = some (some (.error error))
      ∧ (Library.getAll config .empty ["a.css", "b.css"]).2[1]? = some (some (.error error))
      ∧ config.Traces "/r/a.css" error location ∧ config.Traces "/r/b.css" error location := by
  intro config location error
  have hanswer : ∀ i ∈ [0, 1],
      (Library.getAll config .empty ["a.css", "b.css"]).2[i]? = some (some (.error error)) := by
    -- Answers with blocks cannot be compared, so each block is replaced by its identifier.
    have hanswers : ∀ i ∈ [0, 1], (Library.getAll config .empty ["a.css", "b.css"]).2[i]?.map
        (Option.map (Except.map Block.identifier)) = some (some (.error error)) := by
      decide +kernel
    intro i hi
    obtain ⟨answer, hanswer, hmapped⟩ := Option.map_eq_some_iff.1 (hanswers i hi)
    cases some_map_eq_error.1 hmapped
    exact hanswer
  have hfirst := hanswer 0 (by simp)
  have hsecond := hanswer 1 (by simp)
  have hresolve : Path.resolve none "a.css" config.root = "/r/a.css"
      ∧ Path.resolve none "b.css" config.root = "/r/b.css" := by decide +kernel
  have hstart : Reachable config start := .refl
  have hlocated := (errors_are_located hstart).2 rfl ["a.css", "b.css"]
  obtain ⟨place, ha⟩ := hlocated 0 "a.css" error rfl hfirst
  obtain ⟨place', hb⟩ := hlocated 1 "b.css" error rfl hsecond
  -- An error can be traced to one place only, the one that it carries.
  cases ha.located
  cases hb.located
  exact ⟨hfirst, hsecond, hresolve.1 ▸ ha, hresolve.2 ▸ hb⟩

end Session

end BlockStyles
