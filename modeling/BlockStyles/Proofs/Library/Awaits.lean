import BlockStyles.Proofs.Library.Lines
import Mathlib.Logic.Relation

/-!
# `BlockStyles.Proofs.Library.Awaits`: files never wait for each other in a circle

`Library.Awaits` is the relation between files that the slots record: a file
awaits the one that its compilation is held up by. `Awaiting` says that it is
made up of the stacks of the tasks, and that it has no circles.

The only step that adds an edge is the one that takes a slot or a place in its
queue. It is not taken if the trail of the wanted file meets the chain of the
task, and the trail holds everything that the wanted file leads to
(`mem_trail`). So the new edge closes no circle (`acyclic_of_new_edge`).

* `Awaiting.begin`, `Awaiting.finish`: the innermost file of a task begins to wait for
  another one, or waits no longer. All moves of a task are one of these, or neither.
* `Awaiting.step`: a step keeps this.
-/

set_option autoImplicit false

namespace BlockStyles

open Relation (TransGen ReflTransGen)

/-! ### Trails -/

/-- Without the edges from a file, this file leads nowhere and the others lead where
they did. The trail of a file is defined with fewer and fewer edges, so that it ends;
this lemma says what is left of them. -/
theorem lookup_edgesWithout (edges : List (String × String)) (file f : String) :
    (edgesWithout edges file).lookup f = if f = file then none else edges.lookup f := by
  unfold edgesWithout
  -- An edge is kept or dropped by its start, and the lookup meets it only if it starts at
  -- `f`.
  induction edges with
  | nil => simp
  | cons edge edges ih =>
    obtain ⟨first, second⟩ := edge
    by_cases hfirst : first = file
    · subst hfirst
      by_cases hf : f = first
      · subst hf
        simpa using ih
      · have hb : (f == first) = false := beq_false_of_ne hf
        simpa [List.lookup_cons, hb, hf] using ih
    · have hb : (first != file) = true := bne_iff_ne.2 hfirst
      by_cases hf : f = first
      · subst hf
        simp [hb, hfirst]
      · have hb' : (f == first) = false := beq_false_of_ne hf
        simpa [hb, List.lookup_cons, hb'] using ih

/-- A walk that starts behind `file` need not pass `file`: it could only go on as it
has started. So nothing is lost when the edges from `file` are left out. -/
theorem reach_edgesWithout {edges : List (String × String)} {file next f : String}
    (hnext : edges.lookup file = some next)
    (h : ReflTransGen (fun a b => edges.lookup a = some b) next f) :
    ReflTransGen (fun a b => (edgesWithout edges file).lookup a = some b) next f := by
  induction h with
  | refl => exact .refl
  | @tail a b _ hab ih =>
    by_cases ha : a = file
    -- Back at `file` the walk is at `next` again, where it has started.
    · subst ha
      rw [hnext] at hab
      cases hab
      exact .refl
    · exact ih.tail (by rw [lookup_edgesWithout, if_neg ha, hab])

/-- Everything that a file leads to is on its trail. The induction follows the trail,
which drops the edges of each file that it has passed. -/
theorem mem_trail {edges : List (String × String)} {file f : String}
    (h : TransGen (fun a b => edges.lookup a = some b) file f) : f ∈ trail edges file := by
  fun_induction trail edges file with
  | case1 edges file hnone =>
    obtain ⟨next, hnext, -⟩ := TransGen.head'_iff.1 h
    rw [hnone] at hnext
    cases hnext
  | case2 edges file next hsome _ ih =>
    obtain ⟨next', hnext', hreach⟩ := TransGen.head'_iff.1 h
    rw [hsome] at hnext'
    cases hnext'
    -- What the file leads to is the next file, or the next file leads to it.
    rcases (Relation.reflTransGen_iff_eq_or_transGen.1 (reach_edgesWithout hsome hreach)) with
      rfl | hreach
    · exact List.mem_cons_self
    · exact List.mem_cons_of_mem _ (ih hreach)

/-- A trail holds nothing else. Its edges are among those of the whole. Along the
trail edges are taken away, so that it comes to an end. -/
theorem reach_of_mem_trail {edges : List (String × String)} {file f : String}
    (h : f ∈ trail edges file) : TransGen (fun a b => edges.lookup a = some b) file f := by
  fun_induction trail edges file with
  | case1 => cases h
  | case2 edges file next hsome _ ih =>
    rcases List.mem_cons.1 h with rfl | h
    · exact .single hsome
    · refine .head hsome ((ih h).lift id fun a b hab => ?_)
      rw [lookup_edgesWithout] at hab
      split at hab
      · cases hab
      · exact hab

/-! ### Circles -/

/-- An edge to a place from which its start cannot be reached closes no circle. This
is the only way in which edges are added, so it is what keeps the relation free of
circles. -/
theorem acyclic_of_new_edge {α : Type} {r s : α → α → Prop} {start stop : α}
    (hacyclic : ∀ a, ¬ TransGen r a a) (hstop : ¬ ReflTransGen r stop start)
    (hedges : ∀ a b, s a b → r a b ∨ a = start ∧ b = stop) (a : α) : ¬ TransGen s a a := by
  -- A walk with the new edge uses it once, since nothing leads back to its start.
  have hwalk : ∀ {b}, TransGen s a b →
      TransGen r a b ∨ ReflTransGen r a start ∧ ReflTransGen r stop b := by
    intro b h
    induction h with
    | single hab =>
      rcases hedges _ _ hab with hr | ⟨rfl, rfl⟩
      · exact .inl (.single hr)
      · exact .inr ⟨.refl, .refl⟩
    | tail _ hbc ih =>
      rcases hedges _ _ hbc with hr | ⟨rfl, rfl⟩
      · rcases ih with hab | ⟨hstart, hb⟩
        · exact .inl (hab.tail hr)
        · exact .inr ⟨hstart, hb.tail hr⟩
      · rcases ih with hab | ⟨-, hb⟩
        · exact .inr ⟨hab.to_reflTransGen, .refl⟩
        · exact absurd hb hstop
  intro h
  rcases hwalk h with hr | ⟨hstart, ha⟩
  · exact hacyclic a hr
  · exact hstop (ha.trans hstart)

/-! ### What tasks make files wait for -/

namespace Library

/-- A file waits for another one. Each file waits for one other file at most, which
its slot records. -/
def Awaits (library : Library) (file next : String) : Prop :=
  (library.slot file).awaiting = some next

/-- The edges that a circle is looked for along are those of the relation. The trail
of a file, which is computed from these edges, is thereby about the relation itself. -/
theorem awaits_eq_lookup (library : Library) :
    library.Awaits = fun a b => library.waits.lookup a = some b := by
  funext a b
  rw [Awaits, lookup_waits]

/-- A circle is only found where a file leads to a file of the chain. So no request is
refused for a circle that would not be one. -/
theorem reach_of_circle {library : Library} {chain walk : List String} {target : String}
    (h : library.circle? chain target = some walk) :
    ∃ file ∈ chain, TransGen library.Awaits target file := by
  unfold circle? at h
  dsimp only at h
  split at h
  · cases h
  · rename_i file hmeet
    refine ⟨file, List.contains_iff_mem.1 (List.find?_some hmeet), ?_⟩
    rw [awaits_eq_lookup]
    exact reach_of_mem_trail (List.mem_of_find?_eq_some hmeet)

/-- A file that is looked up and claimed leads to no file of the chain. The search for
a circle has been made and has found none, and by `mem_trail` it would have found
every one. -/
theorem not_reach_of_claims {config : Config} {library : Library} {waiting : List WaitingFile}
    {request : Request} (h : request.Claims config library waiting) {file : String}
    (hfile : file ∈ Task.chain waiting) : ¬ ReflTransGen library.Awaits request.target file := by
  intro hreach
  -- Either it is in the chain itself, or its trail meets the chain.
  rcases Relation.reflTransGen_iff_eq_or_transGen.1 hreach with rfl | hreach
  · exact h.new hfile
  · have htrail := mem_trail (library.awaits_eq_lookup ▸ hreach)
    have hcircle := h.circle
    unfold circle? at hcircle
    dsimp only at hcircle
    split at hcircle
    · rename_i hmeet
      exact List.find?_eq_none.1 hmeet file htrail (List.contains_iff_mem.2 hfile)
    · cases hcircle

end Library

/-- The pairs of each file of a stack and the one above it, which it waits for. -/
def awaitsFrom (above : Option String) : List WaitingFile → List (String × String)
  | [] => []
  | below :: waiting =>
    above.toList.map (below.file.identifier, ·) ++ awaitsFrom (some below.file.identifier) waiting

/-- When something is asked for above a stack, its innermost file begins to wait, and
the others wait as they did. -/
theorem awaitsFrom_some (above : String) (waiting : List WaitingFile) :
    awaitsFrom (some above) waiting
      = (Library.innermost? waiting).toList.map (·, above) ++ awaitsFrom none waiting := by
  cases waiting <;> simp [awaitsFrom, Library.innermost?]

/-- Only files of the stack wait on behalf of it. The induction changes what is above,
so this is general. -/
theorem mem_of_mem_awaitsFrom {above : Option String} {waiting : List WaitingFile}
    {file next : String} (h : (file, next) ∈ awaitsFrom above waiting) :
    file ∈ waiting.map (·.file.identifier) := by
  induction waiting generalizing above with
  | nil => cases h
  | cons below waiting ih =>
    rcases List.mem_append.1 h with h | h
    · obtain ⟨_, -, heq⟩ := List.mem_map.1 h
      cases heq
      exact List.mem_cons_self
    · exact List.mem_cons_of_mem _ (ih h)

/-- The innermost file waits for nothing but what is above it. The other pairs start
at files below it, and no file is twice on a stack. -/
theorem innermost_not_mem_awaitsFrom {waiting : List WaitingFile} {file next : String}
    (hinner : Library.innermost? waiting = some file)
    (honce : (waiting.map (·.file.identifier)).Nodup) : (file, next) ∉ awaitsFrom none waiting := by
  cases waiting with
  | nil => cases hinner
  | cons below waiting =>
    cases hinner
    exact fun h => (List.nodup_cons.1 honce).1 (mem_of_mem_awaitsFrom h)

namespace Phase

/-- The file that the innermost waiting file waits for, once it is known to. This is
the file that the task works on, or the one that it stands in line for. -/
def awaited? (phase : Phase) : Option String :=
  phase.held?.or phase.queuedFor?

end Phase

namespace Task

/-- Which files wait for which on behalf of the task. -/
def awaits (task : Task) : List (String × String) :=
  awaitsFrom task.phase.awaited? task.waiting

/-- A task makes only files wait that it holds. These are the files on its stack, so
the task fills their slots. -/
theorem mem_held_of_mem_awaits {task : Task} {file next : String}
    (h : (file, next) ∈ task.awaits) : file ∈ task.held :=
  List.mem_append_right _ (mem_of_mem_awaitsFrom h)

end Task

/-- A file waits for another one on behalf of another task. -/
def OtherAwaits (tasks : List Task) (me : TaskId) (file next : String) : Prop :=
  ∃ (i : TaskId) (task : Task), i ≠ me ∧ tasks[i]? = some task ∧ (file, next) ∈ task.awaits

/-- The files wait for each other as the stacks of the tasks say, and in no circle. -/
structure Awaiting (library : Library) (tasks : List Task) : Prop where
  awaits_iff : ∀ file next, library.Awaits file next ↔
    ∃ (i : TaskId) (task : Task), tasks[i]? = some task ∧ (file, next) ∈ task.awaits
  acyclic : ∀ file, ¬ TransGen library.Awaits file file

namespace Awaiting

variable {library library' : Library} {tasks : List Task} {me : TaskId} {task task' : Task}

/-- The edges are those of one task and those of the others. A step is one of a single
task, so its edges are looked at apart. -/
theorem awaits_iff_or (h : Awaiting library tasks) (hme : tasks[me]? = some task)
    (file next : String) : library.Awaits file next ↔
      (file, next) ∈ task.awaits ∨ OtherAwaits tasks me file next := by
  rw [h.awaits_iff]
  constructor
  · rintro ⟨i, t, ht, hmem⟩
    by_cases hi : i = me
    · subst hi
      rw [hme] at ht
      cases ht
      exact .inl hmem
    · exact .inr ⟨i, t, hi, ht, hmem⟩
  · rintro (hmem | ⟨i, t, -, ht, hmem⟩)
    · exact ⟨me, task, hme, hmem⟩
    · exact ⟨i, t, ht, hmem⟩

/-- When one task has changed, the edges of the others are still to be there. This
turns edges of one task and of the others back into edges of all tasks. -/
theorem of_edges (hme : tasks[me]? = some task)
    (hedges : ∀ file next, library'.Awaits file next ↔
      (file, next) ∈ task'.awaits ∨ OtherAwaits tasks me file next)
    (hacyclic : ∀ file, ¬ TransGen library'.Awaits file file) :
    Awaiting library' (tasks.set me task') := by
  have hset := Task.getElem?_set_self task' hme
  refine ⟨fun file next => (hedges file next).trans ?_, hacyclic⟩
  constructor
  -- An edge of the changed task is found at its place, the others at theirs.
  · rintro (hmem | ⟨i, t, hi, ht, hmem⟩)
    · exact ⟨me, task', by rw [hset, if_pos rfl], hmem⟩
    · exact ⟨i, t, by rw [hset, if_neg hi, ht], hmem⟩
  · rintro ⟨i, t, ht, hmem⟩
    rw [hset] at ht
    split at ht
    · cases ht
      exact .inl hmem
    · rename_i hi
      exact .inr ⟨i, t, hi, ht, hmem⟩

/-- Nothing changes where the edges stay the same, in the slots and on the stack of
the task. -/
theorem of_awaits (h : Awaiting library tasks) (hme : tasks[me]? = some task)
    (hslots : ∀ f, (library'.slot f).awaiting = (library.slot f).awaiting)
    (hawaits : task'.awaits = task.awaits) : Awaiting library' (tasks.set me task') := by
  have hsame : library'.Awaits = library.Awaits := by
    funext f g
    rw [Library.Awaits, Library.Awaits, hslots]
  refine of_edges hme (fun f g => ?_) (hsame ▸ h.acyclic)
  rw [hsame, hawaits]
  exact h.awaits_iff_or hme f g

/-- No other task makes a file wait that a task holds, since no two tasks hold one
file. -/
theorem not_otherAwaits (hlines : Lines library tasks) (hme : tasks[me]? = some task)
    {file : String} (hfile : file ∈ task.held) (next : String) :
    ¬ OtherAwaits tasks me file next := by
  rintro ⟨i, t, hi, ht, hmem⟩
  exact hi (hlines.eq_of_mem_held ht hme (Task.mem_held_of_mem_awaits hmem) hfile)

/-- A file above which nothing has been asked for does not wait. Its own task does not
make it wait, and no other task can. -/
theorem not_awaits_innermost (h : Awaiting library tasks) (hlines : Lines library tasks)
    (hme : tasks[me]? = some task) {file : String}
    (hinner : Library.innermost? task.waiting = some file)
    (hawaits : task.awaits = awaitsFrom none task.waiting) (next : String) :
    ¬ library.Awaits file next := by
  have honce : (task.waiting.map (·.file.identifier)).Nodup :=
    (List.nodup_append.1 (hlines.once me task hme).1).2.1
  rw [h.awaits_iff_or hme, hawaits]
  refine not_or.2 ⟨innermost_not_mem_awaitsFrom hinner honce, ?_⟩
  exact not_otherAwaits hlines hme
    (List.mem_append_right _ (Library.mem_of_innermost? hinner)) next

/-- The innermost waiting file begins to wait for a file that does not lead to it.
This is the one place where an edge comes in. -/
theorem begin (h : Awaiting library tasks) (hlines : Lines library tasks)
    (hme : tasks[me]? = some task) (target : String)
    (hslots : ∀ f, (library'.slot f).awaiting
      = if Library.innermost? task.waiting = some f then some target
        else (library.slot f).awaiting)
    (hawaits : task.awaits = awaitsFrom none task.waiting)
    (hawaits' : task'.awaits = awaitsFrom (some target) task.waiting)
    (hreach : ∀ below, Library.innermost? task.waiting = some below →
      ¬ ReflTransGen library.Awaits target below) :
    Awaiting library' (tasks.set me task') := by
  rw [awaitsFrom_some, ← hawaits] at hawaits'
  cases hinner : Library.innermost? task.waiting with
  -- Without a waiting file there is no edge to add.
  | none =>
    refine h.of_awaits hme (fun f => ?_) ?_
    · rw [hslots, hinner, if_neg (by simp)]
    · rw [hawaits', hinner]
      rfl
  | some below =>
    simp only [hinner, Option.some.injEq] at hslots hreach
    -- The new edge is the only one that starts at `below`.
    have hnew : ∀ f g, library'.Awaits f g ↔ (f, g) = (below, target) ∨ library.Awaits f g := by
      intro f g
      rw [Library.Awaits, hslots]
      by_cases hf : below = f
      · subst hf
        have hnone := h.not_awaits_innermost hlines hme hinner hawaits g
        simp [hnone, eq_comm]
      · simp [hf, Ne.symm hf, Library.Awaits]
    refine of_edges hme (fun f g => ?_) ?_
    · rw [hnew, h.awaits_iff_or hme, hawaits', hinner, ← or_assoc]
      simp
    · refine acyclic_of_new_edge h.acyclic (hreach below rfl) fun f g hfg => ?_
      exact ((hnew f g).1 hfg).elim (fun heq => .inr (Prod.mk.inj heq)) .inl

/-- The innermost waiting file waits no longer. Its edge was the only one that started
there, so all others are as before. -/
theorem finish (h : Awaiting library tasks) (hlines : Lines library tasks)
    (hme : tasks[me]? = some task) {above : String} {waiting : List WaitingFile}
    (hslots : ∀ f, (library'.slot f).awaiting
      = if Library.innermost? waiting = some f then none else (library.slot f).awaiting)
    (hheld : ∃ front, task.held = front ++ waiting.map (·.file.identifier))
    (hawaits : task.awaits = awaitsFrom (some above) waiting)
    (hawaits' : task'.awaits = awaitsFrom none waiting) :
    Awaiting library' (tasks.set me task') := by
  obtain ⟨front, hheld⟩ := hheld
  have honce : (waiting.map (·.file.identifier)).Nodup :=
    (List.nodup_append.1 (hheld ▸ (hlines.once me task hme).1)).2.1
  -- There are only fewer edges than before, so there is no new circle.
  have hless : ∀ f g, library'.Awaits f g ↔
      Library.innermost? waiting ≠ some f ∧ library.Awaits f g := by
    intro f g
    rw [Library.Awaits, hslots]
    by_cases hf : Library.innermost? waiting = some f
    · simp [hf]
    · simp [hf, Library.Awaits]
  refine of_edges hme (fun f g => ?_)
    fun f hf => h.acyclic f (hf.lift id fun a b hab => ((hless a b).1 hab).2)
  rw [hless, h.awaits_iff_or hme, hawaits, hawaits', awaitsFrom_some]
  by_cases hf : Library.innermost? waiting = some f
  -- Its edge is gone, and it had no other one.
  · have hin : f ∈ task.held := hheld ▸ List.mem_append_right _ (Library.mem_of_innermost? hf)
    have hnone : (f, g) ∉ awaitsFrom none waiting := innermost_not_mem_awaitsFrom hf honce
    simp [hf, hnone, not_otherAwaits hlines hme hin g]
  · simp [hf]

/-! ### Steps -/

/-- The innermost waiting file begins to wait for a file that is claimed, whatever
else happens to the slot of that file. The slot may get a filler or one more task in
its line. -/
theorem claim {config : Config} {waiting : List WaitingFile} {request : Request}
    (h : Awaiting library tasks) (hlines : Lines library tasks)
    (hme : tasks[me]? = some ⟨waiting, .entering request⟩)
    (hclaims : request.Claims config library waiting)
    {slot : Slot}
    (hslot : slot.awaiting
      = ((library.waitFor waiting request.target).slot request.target).awaiting)
    (hwaiting : task'.waiting = waiting) (hawaited : task'.phase.awaited? = some request.target) :
    Awaiting ((library.waitFor waiting request.target).setSlot request.target slot)
      (tasks.set me task') := by
  refine h.begin hlines hme request.target (fun f => ?_) rfl ?_ fun below hbelow => ?_
  -- What is put into the slot of the file is not about what this file waits for.
  · rw [Library.slot_setSlot]
    have hwait := Library.slot_waitFor library waiting request.target f (hlines.innermost_used hme)
    split
    · rename_i hf
      subst hf
      rw [hslot, hwait]
      split <;> rfl
    · rw [hwait]
      split <;> rfl
  · rw [Task.awaits, hawaited, hwaiting]
  · exact Library.not_reach_of_claims hclaims
      (Task.mem_chain.2 (Library.mem_of_innermost? hbelow))

/-- The end of the work on the innermost file releases the file below. Whether a block
goes into the slot or the slot is handed over does not matter for what files wait for. -/
theorem close {file : OpenFile} {answer : Except Error Block} {waiting : List WaitingFile}
    {base : Library}
    (h : Awaiting library tasks) (hlines : Lines library tasks) (hme : tasks[me]? = some task)
    (hbase : base.slot = library.slot) (hfills : file.fillsSlot)
    (hheld : ∃ front, task.held = front ++ waiting.map (·.file.identifier))
    (hawaits : task.awaits = awaitsFrom (some file.identifier) waiting)
    (hawaits' : task'.awaits = awaitsFrom none waiting) :
    Awaiting (base.close waiting file answer) (tasks.set me task') := by
  -- It remains that filling and handing over leave alone what each file waits for.
  refine h.finish hlines hme (fun f => ?_) hheld hawaits hawaits'
  cases answer with
  | ok block =>
    rw [Library.close, if_pos hfills, Library.slot_release, Library.slot_fill, hbase]
    split
    · rfl
    · split <;> simp_all
  | error error =>
    rw [Library.close, if_pos hfills, Library.slot_release, Library.slot_handOver, hbase]
    split
    · rfl
    · split <;> simp_all

/-- A step keeps the files waiting as the stacks say, and in no circle. Only `takes`
and `queues` add an edge, and both have looked for a circle before. -/
theorem step {config : Config} (h : Awaiting library tasks) (hlines : Lines library tasks)
    (hme : tasks[me]? = some task) (hmove : Task.Move config me library task library' task') :
    Awaiting library' (tasks.set me task') := by
  have hfills := hlines.fills me task hme
  cases hmove with
  | refused waiting request cause => exact h.of_awaits hme (fun f => rfl) rfl
  | known waiting request block => exact h.of_awaits hme (fun f => rfl) rfl
  | found waiting request block hclaims hblock =>
    -- The edge would be gone again at once, and there was none before.
    refine h.of_awaits hme (fun f => ?_) rfl
    rw [Library.slot_release, Library.slot_waitFor _ _ _ _ (hlines.innermost_used hme)]
    split
    · rename_i hf
      have hnone := h.not_awaits_innermost hlines hme hf rfl
      exact (Option.eq_none_iff_forall_ne_some.2 hnone).symm
    · rfl
  | takes waiting request hclaims => exact h.claim hlines hme hclaims rfl rfl rfl
  | queues waiting request other hclaims => exact h.claim hlines hme hclaims rfl rfl rfl
  -- The file below has been waiting for the file whose block is there now.
  | served waiting request block =>
    refine h.finish hlines hme (fun f => ?_) ⟨[], rfl⟩ rfl rfl
    rw [Library.slot_release]
    split <;> rfl
  | called waiting request => exact h.of_awaits hme (fun f => rfl) rfl
  | unreadable waiting request error =>
    refine h.finish hlines hme (fun f => ?_) ⟨[request.target], rfl⟩ rfl rfl
    rw [Library.slot_release, Library.slot_handOver]
    split
    · rfl
    · split <;> simp_all
  | opened waiting request source sheet => exact h.of_awaits hme (fun f => rfl) rfl
  | skipped waiting file atRule pending => exact h.of_awaits hme (fun f => rfl) rfl
  | refers waiting file after localName request hrefers =>
    obtain ⟨atRule, pending, reference, -, -, -, -⟩ := hrefers
    exact h.of_awaits hme (fun f => rfl) rfl
  -- All files on the stack fill slots by `hfills`, so closing one releases the file below
  -- it.
  | faulty waiting file error =>
    exact h.close hlines hme rfl (hfills file List.mem_cons_self) ⟨[file.identifier], rfl⟩ rfl rfl
  | built waiting file block =>
    exact h.close hlines hme rfl (hfills file List.mem_cons_self) ⟨[file.identifier], rfl⟩ rfl rfl
  | gained waiting below block => exact h.of_awaits hme (fun f => rfl) rfl
  | lost waiting below error =>
    exact h.close hlines hme rfl (hfills below.file List.mem_cons_self)
      ⟨[below.file.identifier], rfl⟩ rfl rfl

end Awaiting

end BlockStyles
