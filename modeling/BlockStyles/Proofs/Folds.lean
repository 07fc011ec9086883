import Mathlib.Data.List.Forall2

/-!
# `BlockStyles.Proofs.Folds`: walks through a list that can fail

What succeeds in the end has succeeded at every step, and what fails has failed at one of them.

* `bind_eq_ok`, `map_eq_ok`, `map_eq_error`: the steps behind a result.
* `foldlM_keeps`: what every step keeps holds in the end.
* `foldlM_keeps_passed`: so does what a step keeps of the elements that have been passed.
* `foldlM_eq_error`: what fails has failed at one of the steps.
* `foldlM_eq_ok`, `mapM_eq_ok`: a walk whose steps all succeed is one that cannot fail.
* `mapM_eq_ok_iff`, `exists_of_forall₂`: a walk gives one result for each element.
* `exists_foldlM_eq_ok_iff`: where each element has to go together with those before it, a walk
  succeeds if and only if they all go together, in whatever order.
-/

set_option autoImplicit false

namespace BlockStyles

variable {α β ε : Type}

/-- Two steps in a row succeed if and only if the first one does and the second one
does with what the first has given. By this the runs of readers and builders are taken
apart. -/
theorem bind_eq_ok {x : Except ε α} {f : α → Except ε β} {b : β} :
    (x >>= f) = .ok b ↔ ∃ a, x = .ok a ∧ f a = .ok b := by
  cases x with
  | error error => exact ⟨nofun, nofun⟩
  | ok a => exact ⟨fun h => ⟨a, rfl, h⟩, fun ⟨_, ha, h⟩ => Except.ok.inj ha ▸ h⟩

/-- A result that is passed on through a function comes from a result. The function
cannot fail, so nothing is lost in either direction. -/
theorem map_eq_ok {x : Except ε α} {f : α → β} {b : β} :
    x.map f = .ok b ↔ ∃ a, x = .ok a ∧ f a = b := by
  cases x with
  | error error => exact ⟨nofun, nofun⟩
  | ok a =>
    exact ⟨fun h => ⟨a, rfl, Except.ok.inj h⟩, fun ⟨_, ha, h⟩ => by rw [ha, ← h]; rfl⟩

/-- Passing results on through a function leaves errors as they are, and makes none.
With `map_eq_ok` it takes a last step that cannot fail off a computation. -/
theorem map_eq_error {x : Except ε α} {f : α → β} {e : ε} :
    x.map f = .error e ↔ x = .error e := by
  cases x <;> simp [Except.map]

/-- `map_eq_ok` for an answer that may be missing: where one is there, it is a result
if and only if there has been one before. -/
theorem some_map_eq_ok {x : Option (Except ε α)} {f : α → β} {b : β} :
    x.map (Except.map f) = some (.ok b) ↔ ∃ a, x = some (.ok a) ∧ f a = b := by
  rcases x with _ | _ | _ <;> simp [Except.map]

/-- `map_eq_error` for an answer that may be missing: an error is an answer, and it
stays the same. -/
theorem some_map_eq_error {x : Option (Except ε α)} {f : α → β} {e : ε} :
    x.map (Except.map f) = some (.error e) ↔ x = some (.error e) := by
  rcases x with _ | _ | _ <;> simp [Except.map]

/-- What holds in the beginning and is kept at every element of a list holds in the end.
It need not be kept by the step as such, only at the elements of this list. -/
theorem foldlM_keeps {P : β → Prop} {f : β → α → Except ε β} {l : List α}
    (hf : ∀ a ∈ l, ∀ b b', f b a = .ok b' → P b → P b') {b b' : β}
    (h : l.foldlM f b = .ok b') (hb : P b) : P b' := by
  induction l generalizing b with
  | nil =>
    cases h
    exact hb
  | cons a l ih =>
    rw [List.foldlM_cons, bind_eq_ok] at h
    obtain ⟨middle, ha, hrest⟩ := h
    exact ih (fun c hc => hf c (List.mem_cons_of_mem a hc)) hrest
      (hf a List.mem_cons_self b middle ha hb)

/-- What holds of the elements that have been passed, and is kept when one more is
passed, holds of all elements in the end. This is the invariant of a walk that builds
up something, where `foldlM_keeps` is that of one that changes something. -/
theorem foldlM_keeps_passed {P : β → List α → Prop} {f : β → α → Except ε β} {l passed : List α}
    (hf : ∀ a ∈ l, ∀ b b' passed, f b a = .ok b' → P b passed → P b' (passed ++ [a])) {b b' : β}
    (h : l.foldlM f b = .ok b') (hb : P b passed) : P b' (passed ++ l) := by
  induction l generalizing b passed with
  | nil =>
    cases h
    rwa [List.append_nil]
  | cons a l ih =>
    rw [List.foldlM_cons, bind_eq_ok] at h
    obtain ⟨middle, ha, hrest⟩ := h
    have hmiddle := hf a List.mem_cons_self b middle passed ha hb
    -- The elements passed are not reset in the recursion, so the step goes to the end of
    -- them.
    rw [List.append_cons]
    exact ih (fun c hc => hf c (List.mem_cons_of_mem a hc)) hrest hmiddle

/-- A walk that fails has failed at one of its elements, up to where every step has
kept what held in the beginning. So an error can be traced to a single step and to a
state that is known. -/
theorem foldlM_eq_error {P : β → Prop} {f : β → α → Except ε β} {l : List α}
    (hf : ∀ a ∈ l, ∀ b b', f b a = .ok b' → P b → P b') {b : β} {e : ε}
    (h : l.foldlM f b = .error e) (hb : P b) : ∃ a ∈ l, ∃ b', P b' ∧ f b' a = .error e := by
  induction l generalizing b with
  | nil => cases h
  | cons a l ih =>
    rw [List.foldlM_cons] at h
    cases ha : f b a with
    | error e' =>
      rw [ha] at h
      cases h
      exact ⟨a, List.mem_cons_self, b, hb, ha⟩
    | ok middle =>
      rw [ha] at h
      -- The first step has kept what held, so the error is one of the rest of the walk.
      obtain ⟨c, hc, b', hb', herror⟩ := ih (fun c hc => hf c (List.mem_cons_of_mem a hc)) h
        (hf a List.mem_cons_self b middle ha hb)
      exact ⟨c, List.mem_cons_of_mem a hc, b', hb', herror⟩

/-- A walk whose steps fail only at an element that does not go together with itself
or with one that has been passed: it succeeds if all elements go together. As the
relation is symmetric, the condition does not speak of an order, and it is the same
for every order of the elements. -/
theorem exists_foldlM_eq_ok_iff {P : β → List α → Prop} {R : α → α → Prop}
    {f : β → α → Except ε β} {l passed : List α} (hsymm : ∀ a a', R a a' → R a' a)
    (hf : ∀ a ∈ l, ∀ b b' passed, f b a = .ok b' → P b passed → P b' (passed ++ [a]))
    (hok : ∀ a ∈ l, ∀ b passed, P b passed →
      ((∃ b', f b a = .ok b') ↔ ∀ a' ∈ passed ++ [a], R a' a))
    {b : β} (hb : P b passed) :
    (∃ b', l.foldlM f b = .ok b') ↔ ∀ a ∈ l, ∀ a' ∈ passed ++ l, R a' a := by
  induction l generalizing b passed with
  | nil => simp [pure, Except.pure]
  | cons a l ih =>
    have hfirst := hok a List.mem_cons_self b passed hb
    have hrest : ∀ {b₁ : β}, f b a = .ok b₁ →
        ((∃ b', l.foldlM f b₁ = .ok b') ↔ ∀ c ∈ l, ∀ a' ∈ passed ++ a :: l, R a' c) := by
      intro b₁ hb₁
      have hpassed := hf a List.mem_cons_self b b₁ passed hb₁ hb
      have htail := ih (fun c hc => hf c (List.mem_cons_of_mem a hc))
        (fun c hc => hok c (List.mem_cons_of_mem a hc)) hpassed
      rwa [← List.append_cons] at htail
    simp only [List.foldlM_cons, bind_eq_ok]
    constructor
    · rintro ⟨b', b₁, hb₁, hb'⟩
      have hpast := hfirst.1 ⟨b₁, hb₁⟩
      have hlater := (hrest hb₁).1 ⟨b', hb'⟩
      have hin : a ∈ passed ++ a :: l := List.mem_append_right _ List.mem_cons_self
      intro c hc a' ha'
      rcases List.mem_cons.1 hc with rfl | hc
      -- What comes behind the first element has been found to go together with it.
      · rw [List.append_cons] at ha'
        rcases List.mem_append.1 ha' with ha' | ha'
        · exact hpast a' ha'
        · exact hsymm _ _ (hlater a' ha' c hin)
      · exact hlater c hc a' ha'
    · intro hall
      have hpast : ∀ a' ∈ passed ++ [a], R a' a := fun a' ha' =>
        hall a List.mem_cons_self a' (List.append_cons passed a l ▸ List.mem_append_left _ ha')
      obtain ⟨b₁, hb₁⟩ := hfirst.2 hpast
      obtain ⟨b', hb'⟩ := (hrest hb₁).2 fun c hc => hall c (List.mem_cons_of_mem a hc)
      exact ⟨b', b₁, hb₁, hb'⟩

/-- A walk succeeds in the same way with steps that succeed whenever its own do. The
other steps may succeed more often, so the converse does not hold. -/
theorem foldlM_eq_ok_of_imp {f g : β → α → Except ε β}
    (hfg : ∀ b b' a, f b a = .ok b' → g b a = .ok b') {l : List α} {b b' : β}
    (h : l.foldlM f b = .ok b') : l.foldlM g b = .ok b' := by
  induction l generalizing b with
  | nil => exact h
  | cons a l ih =>
    rw [List.foldlM_cons, bind_eq_ok] at h ⊢
    obtain ⟨middle, ha, hrest⟩ := h
    exact ⟨middle, hfg b middle a ha, ih hrest⟩

/-- A fold whose steps succeed at every element of a list succeeds, and it is the fold
of what the steps give. That they succeed is asked of the elements of the list only,
but for every state. -/
theorem foldlM_eq_ok {f : β → α → Except ε β} {g : β → α → β} {l : List α}
    (hf : ∀ a ∈ l, ∀ b, f b a = .ok (g b a)) (b : β) : l.foldlM f b = .ok (l.foldl g b) := by
  induction l generalizing b with
  | nil => rfl
  | cons a l ih =>
    rw [List.foldlM_cons, hf a List.mem_cons_self b]
    exact ih (fun c hc => hf c (List.mem_cons_of_mem a hc)) (g b a)

/-- A walk that succeeds at every element gives what it gives there, in the same
order. -/
theorem mapM_eq_ok {f : α → Except ε β} {g : α → β} {l : List α}
    (hf : ∀ a ∈ l, f a = .ok (g a)) : l.mapM f = .ok (l.map g) := by
  induction l with
  | nil => rfl
  | cons a l ih =>
    rw [List.mapM_cons, hf a List.mem_cons_self, ih fun b hb => hf b (List.mem_cons_of_mem a hb)]
    rfl

/-- Of two lists whose elements belong to each other in pairs, every element of the
second belongs to one of the first. The partner is the one at the same place. -/
theorem exists_of_forall₂ {R : α → β → Prop} {l : List α} {bs : List β}
    (h : List.Forall₂ R l bs) {b : β} (hb : b ∈ bs) : ∃ a ∈ l, R a b := by
  obtain ⟨i, hi, rfl⟩ := List.mem_iff_getElem.1 hb
  exact ⟨l.get ⟨i, h.length_eq ▸ hi⟩, List.get_mem _ _, (List.forall₂_iff_get.1 h).2 i _ hi⟩

/-- A walk gives one result for each element. Where `mapM_eq_ok` needs to know the
results beforehand, this tells them apart one by one. -/
theorem mapM_eq_ok_iff {f : α → Except ε β} {l : List α} {bs : List β} :
    l.mapM f = .ok bs ↔ List.Forall₂ (fun a b => f a = .ok b) l bs := by
  induction l generalizing bs with
  | nil =>
    rw [List.forall₂_nil_left_iff]
    exact ⟨fun h => (Except.ok.inj h).symm, fun h => h ▸ rfl⟩
  | cons a l ih =>
    simp only [List.mapM_cons, bind_eq_ok, List.forall₂_cons_left_iff]
    constructor
    · rintro ⟨b, hb, rest, hrest, h⟩
      exact ⟨b, rest, hb, ih.1 hrest, (Except.ok.inj h).symm⟩
    · rintro ⟨b, rest, hb, hrest, rfl⟩
      exact ⟨b, hb, rest, ih.2 hrest, rfl⟩

end BlockStyles
