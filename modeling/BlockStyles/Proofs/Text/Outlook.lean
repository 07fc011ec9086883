import BlockStyles.Proofs.Text.Blanks
import BlockStyles.Proofs.Text.Identifiers
import BlockStyles.Proofs.Text.Values

/-!
# `BlockStyles.Proofs.Text.Outlook`: what the front of a text decides

Of a text only a front part may be known. Then a reader has taken all that it is going to take,
or it has stopped inside of that part, whatever stands behind it, or there is something that can
stand behind it so that the reader gets through. There is no fourth case, and what can be added
never needs a star, so it does not begin a comment.

* `Outlook`: the three cases.
* `Outlook.andThen`: two readers, one behind the other.
* `Identifier.outlook`, `RawValue.outlook`: the cases for identifiers and for raw values.
-/

set_option autoImplicit false

namespace BlockStyles.Text

/-- Something is read off the text, and `rest` is left. -/
abbrev Takes {α : Type} (read : List Char → Reading α) (text rest : List Char) : Prop :=
  ∃ a, read text = .ok (a, rest)

/-- Nothing is read off the text; reading stops where `left` begins. -/
abbrev StopsAt {α : Type} (read : List Char → Reading α) (text left : List Char) : Prop :=
  read text = .error left

/-- What can be told from the front of a text about the reading of all of it. -/
inductive Outlook (takes fails : List Char → List Char → Prop) (stops : List Char → Prop)
    (front : List Char) : Prop where
  /-- What is read ends inside the front. -/
  | taken (rest : List Char) (h : ∀ more, takes (front ++ more) (rest ++ more))
  /-- Reading stops inside the front. -/
  | refused (left : List Char) (hne : left ≠ [])
      (h : ∀ more, fails (front ++ more) (left ++ more))
  /-- With an addition it is read up to whatever stops it. -/
  | unfinished (closing : List Char) (hplain : '*' ∉ closing)
      (h : ∀ behind, stops behind → takes (front ++ (closing ++ behind)) behind)

variable {takes fails first last firstFails lastFails : List Char → List Char → Prop}
  {stops firstStops : List Char → Prop} {front : List Char}

namespace Outlook

/-- What is read from a text can be read from another one, whose front goes over to
the same. Each of the three cases goes over by itself, so the readers need not be
known. -/
theorem shift {inner : List Char} (h : Outlook first firstFails firstStops inner)
    (hstops : ∀ behind, stops behind → firstStops behind)
    (htakes : ∀ more rest, first (inner ++ more) rest → takes (front ++ more) rest)
    (hfails : ∀ more left, firstFails (inner ++ more) left → fails (front ++ more) left) :
    Outlook takes fails stops front := by
  cases h with
  | taken rest h => exact .taken rest fun more => htakes more _ (h more)
  | refused left hne h => exact .refused left hne fun more => hfails more _ (h more)
  | unfinished closing hplain h =>
    exact .unfinished closing hplain fun behind hbehind =>
      htakes _ _ (h behind (hstops behind hbehind))

/-- Two readers, one behind the other. What ends the first one has to begin something
that the second one can take, and where the first one stops has to be seen to. A
failure of the first reader need not be one of both, as it may have been tried only. -/
theorem andThen (hfirst : Outlook first firstFails firstStops front)
    (hrefused : ∀ left, left ≠ [] → (∀ more, firstFails (front ++ more) (left ++ more)) →
      Outlook takes fails stops front)
    (hlast : ∀ middle, (∀ more, first (front ++ more) (middle ++ more)) →
      Outlook last lastFails stops middle)
    (hstops : ∃ joint, '*' ∉ joint ∧ ∀ behind, stops behind →
      firstStops (joint ++ behind) ∧ last (joint ++ behind) behind)
    (htakes : ∀ {text middle rest}, first text middle → last middle rest → takes text rest)
    (hfails : ∀ {text middle left}, first text middle → lastFails middle left → fails text left) :
    Outlook takes fails stops front := by
  cases hfirst with
  | refused left hne h => exact hrefused left hne h
  | unfinished closing hplain h =>
    obtain ⟨joint, hjoint, hstops⟩ := hstops
    -- What finishes the first reader is followed by what leads over to the second one.
    refine .unfinished (closing ++ joint) ?_ fun behind hbehind => ?_
    · exact fun hmem => (List.mem_append.1 hmem).elim hplain hjoint
    · obtain ⟨hend, hread⟩ := hstops behind hbehind
      rw [List.append_assoc]
      exact htakes (h _ hend) hread
  | taken middle h =>
    cases hlast middle h with
    | taken rest hrest => exact .taken rest fun more => htakes (h more) (hrest more)
    | refused left hne hleft => exact .refused left hne fun more => hfails (h more) (hleft more)
    | unfinished closing hplain hclosing =>
      exact .unfinished closing hplain fun behind hbehind =>
        htakes (h _) (hclosing behind hbehind)

/-- What ends the first reader may be nothing to the second one. Then nothing has to
be added between them, and the joint is empty. -/
theorem atOnce (h : ∀ behind, stops behind → last behind behind) :
    ∃ joint, '*' ∉ joint ∧ ∀ behind, stops behind →
      stops (joint ++ behind) ∧ last (joint ++ behind) behind :=
  ⟨[], List.not_mem_nil, fun behind hbehind => ⟨hbehind, h behind hbehind⟩⟩

end Outlook

/-- What is left behind something that is read is shorter. It is a statement about
fronts: what stands behind them is the same on both sides, and drops out. -/
theorem length_lt_of_takes {α : Type} {read : List Char → Reading α} {middle : List Char}
    (hread : ∀ {text rest : List Char} {a : α}, read text = .ok (a, rest) →
      rest.length < text.length)
    (h : ∀ more, Takes read (front ++ more) (middle ++ more)) : middle.length < front.length := by
  obtain ⟨a, ha⟩ := h []
  simpa using hread ha

/-! ### Blanks -/

/-- If there is nothing but blanks in front, skipping goes on with what stands behind
them. -/
theorem skipBlanks_append_of_nil (h : skipBlanks front = []) (more : List Char) :
    skipBlanks (front ++ more) = skipBlanks more := by
  rw [skipBlanks, List.dropWhile_append, ← skipBlanks, h]
  rfl

/-- If something else is in front, skipping ends there, and what stands behind is not
touched. -/
theorem skipBlanks_append_of_ne_nil (h : skipBlanks front ≠ []) (more : List Char) :
    skipBlanks (front ++ more) = skipBlanks front ++ more := by
  rw [skipBlanks, List.dropWhile_append, ← skipBlanks, if_neg (by simpa using h)]

/-- If something else than a blank is in front, it stays in front when more is added.
Readers tell cases apart by this first character. -/
theorem skipBlanks_append_of_cons {c : Char} {after : List Char}
    (h : skipBlanks front = c :: after) (more : List Char) :
    skipBlanks (front ++ more) = c :: (after ++ more) := by
  rw [skipBlanks_append_of_ne_nil (h ▸ List.cons_ne_nil c after), h, List.cons_append]

/-- Behind blanks it is as without them, unless nothing but blanks is there. In that
case the blanks may go on in what is added, so an addition is needed that the reader
takes from its beginning. -/
theorem Outlook.behindBlanks (h : Outlook takes fails stops (skipBlanks front))
    {closing : List Char} (hplain : '*' ∉ closing)
    (hclosing : ∀ behind, stops behind → takes (skipBlanks (closing ++ behind)) behind) :
    Outlook (fun text rest => takes (skipBlanks text) rest)
      (fun text left => fails (skipBlanks text) left) stops front := by
  by_cases hblank : skipBlanks front = []
  · refine .unfinished closing hplain fun behind hbehind => ?_
    rw [skipBlanks_append_of_nil hblank]
    exact hclosing behind hbehind
  · have hskip := skipBlanks_append_of_ne_nil hblank
    exact h.shift (fun _ h => h) (fun more rest h => (hskip more).symm ▸ h)
      fun more left h => (hskip more).symm ▸ h

/-! ### Identifiers -/

/-- A run of characters of identifiers is one if it is not empty. It is stated for
lists, as the front of a text is one. -/
theorem isIdentifier_ofList {text : List Char} (hne : text ≠ [])
    (h : ∀ c ∈ text, isIdentifierChar c) : isIdentifier (.ofList text) := by
  simpa [isIdentifier, hne] using h

/-- What ends an identifier. -/
def EndsName (behind : List Char) : Prop :=
  ∀ c ∈ behind.head?, isIdentifierChar c = false

/-- The whole run of characters is read. So the hypothesis of `Identifier.read_append`
is met by whatever an identifier has been read from. -/
theorem Identifier.endsName_of_read {text rest : List Char} {name : String}
    (h : read text = .ok (name, rest)) : EndsName rest := by
  unfold read at h
  split at h
  · cases h
  · cases h
    have hhead := List.head?_dropWhile_not isIdentifierChar text
    intro c hc
    rw [hc] at hhead
    exact hhead

/-- An identifier that has not ended yet can go on with a letter. The front is split where
its first run ends: if nothing is behind the run, the identifier is open, and
else it has been read or there is none. -/
theorem Identifier.outlook (front : List Char) :
    Outlook (Takes read) (StopsAt read) EndsName front := by
  have hsplit := List.takeWhile_append_dropWhile (p := isIdentifierChar) (l := front)
  have hall : ∀ c ∈ front.takeWhile isIdentifierChar, isIdentifierChar c := fun c hc =>
    List.all_eq_true.1 List.all_takeWhile c hc
  have hhead := List.head?_dropWhile_not isIdentifierChar front
  generalize front.takeWhile isIdentifierChar = name at hsplit hall
  generalize front.dropWhile isIdentifierChar = rest at hsplit hhead
  subst hsplit
  cases rest with
  | nil =>
    have hname : isIdentifier (.ofList (name ++ ['x'])) := by
      refine isIdentifier_ofList (by simp) fun c hc => ?_
      rcases List.mem_append.1 hc with hc | hc
      · exact hall c hc
      · cases List.mem_singleton.1 hc
        decide
    -- The run may be empty so far; with the letter it is an identifier in any case.
    refine .unfinished ['x'] (by decide) fun behind hbehind => ⟨.ofList (name ++ ['x']), ?_⟩
    have hread := read_append hname hbehind
    simpa using hread
  | cons c rest =>
    have hc : isIdentifierChar c = false := by simpa using hhead
    by_cases hname : name = []
    · subst hname
      refine .refused (c :: rest) (List.cons_ne_nil c rest) fun more => ?_
      simp [StopsAt, read, hc]
    · refine .taken (c :: rest) fun more => ⟨.ofList name, ?_⟩
      have hread : read ((String.ofList name).toList ++ c :: (rest ++ more)) = .ok (_, _) :=
        read_append (isIdentifier_ofList hname hall) fun d hd => by cases hd; exact hc
      simpa using hread

/-! ### Raw values -/

namespace RawValue

variable {cover final : Cover} {value rest : List Char}

/-- What closes the quote and the parentheses that are open. -/
def Cover.closing (cover : Cover) : List Char :=
  cover.quote.toList ++ List.replicate cover.depth ')'

/-- What is open is closed, and then the value goes on to the terminator. A quote is
closed before the parentheses, since it has been opened inside of them. -/
theorem scan_closing (cover : Cover) (more : List Char) :
    scan cover (cover.closing ++ 'x' :: ';' :: more)
      = (cover.closing ++ ['x'], ';' :: more, .bare) := by
  obtain ⟨quote, depth⟩ := cover
  have hsealed : ∀ depth, Sealed depth (List.replicate depth ')' ++ ['x']) := by
    intro depth
    induction depth with
    | zero => exact .plain 'x' (by decide) (by decide) (by decide) (by decide) .nil
    | succ depth ih => exact .closing ih
  have hscan : scan ⟨none, depth⟩ (List.replicate depth ')' ++ 'x' :: ';' :: more)
      = (List.replicate depth ')' ++ ['x'], ';' :: more, .bare) := by
    rw [List.append_cons]
    exact scan_sealed (hsealed depth) fun c hc => by cases hc; decide
  cases quote with
  | none => simpa [Cover.closing] using hscan
  | some quote => simp [Cover.closing, scan, Cover.endsAt, Cover.step, hscan]

/-- Where a value has ended, what stands behind the text changes nothing. It ends
outside of quotes only. -/
theorem scan_append_of_ne_nil (h : scan cover front = (value, rest, final)) (hne : rest ≠ [])
    (more : List Char) :
    scan cover (front ++ more) = (value, rest ++ more, final) ∧ final.quote = none := by
  induction front generalizing cover value with
  | nil =>
    cases h
    exact absurd rfl hne
  | cons c front ih =>
    cases hend : cover.endsAt c with
    -- The value ends here, and at an end no quote is open.
    | true =>
      simp only [scan, hend, if_true, Prod.mk.injEq] at h
      obtain ⟨rfl, rfl, rfl⟩ := h
      refine ⟨by simp [scan, hend], ?_⟩
      simp only [Cover.endsAt, Bool.and_eq_true, Option.isNone_iff_eq_none] at hend
      exact hend.1.1
    | false =>
      simp only [scan, hend, Bool.false_eq_true, if_false, Prod.mk.injEq] at h
      obtain ⟨rfl, hrest, hfinal⟩ := h
      obtain ⟨hscan, hquote⟩ := ih (Prod.ext rfl (Prod.ext hrest hfinal))
      exact ⟨by simp [scan, hend, hscan], hquote⟩

/-- Where it has not, the scan goes on with what stands behind the text, under the
cover that has been reached by then. -/
theorem scan_append_of_nil (h : scan cover front = (front, [], final)) (more : List Char) :
    scan cover (front ++ more) = (front ++ (scan final more).1, (scan final more).2) := by
  induction front generalizing cover with
  | nil =>
    cases h
    rfl
  | cons c front ih =>
    cases hend : cover.endsAt c with
    | true => simp [scan, hend] at h
    | false =>
      simp only [scan, hend, Bool.false_eq_true, if_false, Prod.mk.injEq, List.cons.injEq,
        true_and] at h
      obtain ⟨hfront, hrest, hfinal⟩ := h
      have hscan := ih (Prod.ext hfront (Prod.ext hrest hfinal))
      simp [scan, hend, hscan]

/-- Only quotes are taken for quotes: one that is open either stays open, or was
opened by this character. -/
theorem Cover.isQuote_of_step (hcover : ∀ quote ∈ cover.quote, isQuote quote) (c : Char) :
    ∀ quote ∈ (cover.step c).quote, isQuote quote := by
  obtain ⟨quote, depth⟩ := cover
  intro next hnext
  cases quote with
  | some quote =>
    by_cases hc : c = quote
    · simp [step, hc] at hnext
    · simp only [step, beq_iff_eq, hc, if_false] at hnext
      exact hcover next hnext
  | none =>
    dsimp only [step] at hnext
    split at hnext
    · rename_i hquote
      cases hnext
      exact hquote
    -- Parentheses and other characters open no quote.
    · split at hnext
      · cases hnext
      · split at hnext <;> cases hnext

/-- What a scan leaves open is a quote, if it began with none or with a quote. A
completion can then close it by this very character. -/
theorem isQuote_of_scan (hcover : ∀ quote ∈ cover.quote, isQuote quote) (text : List Char) :
    ∀ quote ∈ (scan cover text).2.2.quote, isQuote quote := by
  induction text generalizing cover with
  | nil => exact hcover
  | cons c text ih =>
    unfold scan
    split
    · exact hcover
    · exact ih (Cover.isQuote_of_step hcover c)

/-- What closes a value has no star in it, so no comment begins there. This is why it
has to be known that only quotes are closed. -/
theorem Cover.star_not_mem_closing (h : ∀ quote ∈ cover.quote, isQuote quote) :
    '*' ∉ cover.closing := by
  intro hmem
  rcases List.mem_append.1 hmem with hquote | hparen
  · have hstar := h '*' (Option.mem_toList.1 hquote)
    revert hstar
    decide
  · exact absurd (List.eq_of_mem_replicate hparen) (by decide)

/-- A value has ended, or there is none, or it can be ended with a letter and a
semicolon. The letter is there for the case that nothing has been read so far: a value
must not be empty. -/
theorem outlook (front : List Char) :
    (∃ value mark rest, isTerminator mark
        ∧ ∀ more, read (front ++ more) = .ok (value, mark :: (rest ++ more)))
      ∨ (front ≠ [] ∧ ∀ more, read (front ++ more) = .error (front ++ more))
      ∨ ∃ closing, '*' ∉ closing ∧ ∀ more, read (front ++ (closing ++ 'x' :: ';' :: more))
          = .ok (front ++ (closing ++ ['x']), ';' :: more) := by
  obtain ⟨value, rest, final, hscan⟩ :
      ∃ value rest final, scan .bare front = (value, rest, final) := ⟨_, _, _, rfl⟩
  cases rest with
  | nil =>
    have hall : value = front := by
      have happend := append_of_scan hscan
      rwa [List.append_nil] at happend
    rw [hall] at hscan
    refine .inr (.inr ⟨final.closing, ?_, fun more => ?_⟩)
    · have hnone : ∀ quote ∈ Cover.bare.quote, isQuote quote := fun quote hquote => by cases hquote
      have hquote := isQuote_of_scan hnone front
      rw [hscan] at hquote
      exact Cover.star_not_mem_closing hquote
    · rw [read, scan_append_of_nil hscan, scan_closing]
      simp [Cover.bare]
  | cons mark rest =>
    have hmark : isTerminator mark := by
      have hend : ∀ c ∈ (scan .bare front).2.1.head?, isTerminator c := isTerminator_of_scan
      rw [hscan] at hend
      exact hend mark rfl
    by_cases hvalue : value = []
    · have hfront : front ≠ [] := by
        rintro rfl
        cases hscan
      -- The scan ends at the first character, and a value of no characters is none.
      refine .inr (.inl ⟨hfront, fun more => ?_⟩)
      obtain ⟨hmore, -⟩ := scan_append_of_ne_nil hscan (List.cons_ne_nil _ _) more
      rw [read, hmore, hvalue]
      rfl
    · refine .inl ⟨value, mark, rest, hmark, fun more => ?_⟩
      obtain ⟨hmore, hquote⟩ := scan_append_of_ne_nil hscan (List.cons_ne_nil _ _) more
      rw [read, hmore]
      simp [hvalue, hquote]

end RawValue

end BlockStyles.Text
