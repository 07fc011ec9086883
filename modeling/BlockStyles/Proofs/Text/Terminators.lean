import BlockStyles.Proofs.Text.Values
import Mathlib.Data.List.Induction

/-!
# `BlockStyles.Proofs.Text.Terminators`: the first terminator that nothing protects

A terminator is text where it stands in quotes or in parentheses. Here this is said by what is in
front of it, without any reading: quotes are open behind a quote that has not come again, and a
parenthesis is open if everything behind it is closed in pairs. A closing parenthesis that
none is open for changes nothing. The reader of values, which goes through a text once and keeps
the open quote and a number of parentheses, ends a value at the first terminator that is not protected.

* `Protects`: quotes or parentheses are open behind a text.
* `shows_coverAfter`: the cover that the reader keeps is right about the text it has passed.
* `protects_iff`: they are if the reader's cover says so.
* `scan_ends`: the scan stops at the first character that ends a value under its cover.
* `read_first_end`: what is read, and when nothing is.
-/

set_option autoImplicit false

namespace BlockStyles.Text.RawValue

/-! ### What protects a place -/

/-- Every quoted text that begins in the text ends in it. -/
inductive OutsideQuotes : List Char → Prop where
  | nil : OutsideQuotes []
  | char {front : List Char} (c : Char) (h : OutsideQuotes front) (hquote : isQuote c = false) :
      OutsideQuotes (front ++ [c])
  | quoted {front : List Char} (quote : Char) (inner : List Char) (h : OutsideQuotes front)
      (hquote : isQuote quote) (hinner : quote ∉ inner) :
      OutsideQuotes (front ++ quote :: (inner ++ [quote]))

/-- Quotes, and parentheses outside of them, come in pairs. -/
inductive Balanced : List Char → Prop where
  | nil : Balanced []
  | plain {rest : List Char} (c : Char) (hquote : isQuote c = false) (hopen : c ≠ '(')
      (hclose : c ≠ ')') (h : Balanced rest) : Balanced (c :: rest)
  | quoted {rest : List Char} (quote : Char) (inner : List Char) (hquote : isQuote quote)
      (hinner : quote ∉ inner) (h : Balanced rest) : Balanced (quote :: (inner ++ quote :: rest))
  | group {inside rest : List Char} (hinside : Balanced inside) (h : Balanced rest) :
      Balanced ('(' :: (inside ++ ')' :: rest))

/-- A quoted text begins in the text and does not end. -/
def LeavesQuote (text : List Char) : Prop :=
  ∃ front quote inner, text = front ++ quote :: inner
    ∧ OutsideQuotes front ∧ isQuote quote ∧ quote ∉ inner

/-- A parenthesis outside of quotes is opened in the text and not closed. Behind the last one of
these everything is closed in pairs. -/
def LeavesParenthesis (text : List Char) : Prop :=
  ∃ front inside, text = front ++ '(' :: inside ∧ OutsideQuotes front ∧ Balanced inside

/-- What stands behind the text is in quotes or in parentheses. -/
def Protects (text : List Char) : Prop :=
  LeavesQuote text ∨ LeavesParenthesis text

/-- One balanced text behind another is balanced: no pair reaches over the joint. The
induction is on the first text, which ends where the second one begins. -/
theorem Balanced.append {text more : List Char} (h : Balanced text) (hmore : Balanced more) :
    Balanced (text ++ more) := by
  induction h with
  | nil => exact hmore
  | plain c hquote hopen hclose _ ih => exact .plain c hquote hopen hclose ih
  | quoted quote inner hquote hinner _ ih =>
    rw [List.cons_append, List.append_assoc]
    exact .quoted quote inner hquote hinner ih
  | group hinside _ _ ih =>
    rw [List.cons_append, List.append_assoc]
    exact .group hinside ih

/-! ### The cover behind a text -/

/-- The cover behind a text that begins outside quotes and parentheses. -/
def coverAfter (text : List Char) : Cover :=
  text.foldl Cover.step .bare

/-- The cover behind two texts is reached from the cover behind the first. With it a
text can be taken apart at any place, and its parts looked at one by one. -/
theorem coverAfter_append (front text : List Char) :
    coverAfter (front ++ text) = text.foldl Cover.step (coverAfter front) :=
  List.foldl_append

/-- All that a character can do to a cover. -/
inductive Cover.Steps : Cover → Char → Cover → Prop where
  | endQuote (quote : Char) (depth : Nat) : Steps ⟨some quote, depth⟩ quote ⟨none, depth⟩
  | inQuote {quote : Char} (depth : Nat) (c : Char) (hne : c ≠ quote) :
      Steps ⟨some quote, depth⟩ c ⟨some quote, depth⟩
  | startQuote (quote : Char) (depth : Nat) (hquote : isQuote quote) :
      Steps ⟨none, depth⟩ quote ⟨some quote, depth⟩
  | opening (depth : Nat) : Steps ⟨none, depth⟩ '(' ⟨none, depth + 1⟩
  | closing (depth : Nat) : Steps ⟨none, depth⟩ ')' ⟨none, depth - 1⟩
  | plain (depth : Nat) (c : Char) (hquote : isQuote c = false) (hopen : c ≠ '(')
      (hclose : c ≠ ')') : Steps ⟨none, depth⟩ c ⟨none, depth⟩

/-- The step of a cover is described by the six ways to make one. Proofs about the
cover take them as cases, in place of the nested conditions of the function. -/
theorem Cover.step_eq_iff {cover next : Cover} {c : Char} :
    cover.step c = next ↔ cover.Steps c next := by
  have hparen : isQuote '(' = false ∧ isQuote ')' = false := by decide
  constructor
  · rintro rfl
    obtain ⟨_ | quote, depth⟩ := cover
    · cases hquote : isQuote c with
      | true => simpa [step, hquote] using Steps.startQuote c depth hquote
      | false =>
        by_cases hopen : c = '('
        · subst hopen
          exact .opening depth
        · by_cases hclose : c = ')'
          · subst hclose
            exact .closing depth
          · simpa [step, hquote, hopen, hclose] using Steps.plain depth c hquote hopen hclose
    -- Inside of quotes all that matters is whether the character is the quote that is open.
    · by_cases hc : c = quote
      · subst hc
        simpa [step] using Steps.endQuote c depth
      · simpa [step, hc] using Steps.inQuote depth c hc
  · intro h
    cases h with
    | endQuote => simp [step]
    | inQuote _ _ hne => simp [step, hne]
    | startQuote _ _ hquote => simp [step, hquote]
    | opening => simp [step, hparen]
    | closing => simp [step, hparen]
    | plain _ _ hquote hopen hclose => simp [step, hquote, hopen, hclose]

/-- One more character takes the cover behind a text one step further. -/
theorem steps_coverAfter (text : List Char) (c : Char) :
    (coverAfter text).Steps c (coverAfter (text ++ [c])) :=
  Cover.step_eq_iff.1 (coverAfter_append text [c]).symm

section

variable {quote : Char} {depth : Nat} {text front : List Char}

/-- A quote stays open for as long as it does not come again. Parentheses and other
quotes in between are nothing but characters. -/
theorem foldl_of_not_mem (h : quote ∉ text) :
    text.foldl Cover.step ⟨some quote, depth⟩ = ⟨some quote, depth⟩ := by
  induction text with
  | nil => rfl
  | cons c text ih =>
    obtain ⟨hc, htext⟩ := List.ne_and_not_mem_of_not_mem_cons h
    rw [List.foldl_cons, Cover.step_eq_iff.2 (.inQuote depth c hc.symm), ih htext]

/-- A quoted text changes nothing for what stands behind it. It is stated with a rest,
so that it can be used in the middle of a text. -/
theorem foldl_quoted {inner : List Char} (hquote : isQuote quote) (hinner : quote ∉ inner)
    (rest : List Char) :
    (quote :: (inner ++ quote :: rest)).foldl Cover.step ⟨none, depth⟩
      = rest.foldl Cover.step ⟨none, depth⟩ := by
  rw [List.foldl_cons, Cover.step_eq_iff.2 (.startQuote quote depth hquote), List.foldl_append,
    foldl_of_not_mem hinner, List.foldl_cons, Cover.step_eq_iff.2 (.endQuote quote depth)]

/-- A balanced text changes nothing for what stands behind it. The induction is for
every depth at once, as what is inside a group is one deeper than the group. -/
theorem Balanced.foldl (h : Balanced text) (depth : Nat) :
    text.foldl Cover.step ⟨none, depth⟩ = ⟨none, depth⟩ := by
  induction h generalizing depth with
  | nil => rfl
  | plain c hquote hopen hclose _ ih =>
    rw [List.foldl_cons, Cover.step_eq_iff.2 (.plain depth c hquote hopen hclose), ih]
  | quoted quote inner hquote hinner _ ih => rw [foldl_quoted hquote hinner, ih]
  | group _ _ ihinside ih =>
    rw [List.foldl_cons, Cover.step_eq_iff.2 (.opening depth), List.foldl_append, ihinside,
      List.foldl_cons, Cover.step_eq_iff.2 (.closing (depth + 1)), Nat.add_sub_cancel, ih]

/-- Behind a text that ends outside of quotes none is open. How many parentheses are
is not told by this. -/
theorem OutsideQuotes.exists_depth (h : OutsideQuotes text) :
    ∃ depth, coverAfter text = ⟨none, depth⟩ := by
  induction h with
  | nil => exact ⟨0, rfl⟩
  | @char front c _ hquote ih =>
    obtain ⟨depth, hfront⟩ := ih
    have hstep := steps_coverAfter front c
    rw [hfront] at hstep
    -- The cover is made a variable, so that the cases of the step can be told apart.
    generalize coverAfter (front ++ [c]) = next at hstep
    cases hstep with
    | startQuote _ _ hstart => exact absurd hstart (by simp [hquote])
    | opening => exact ⟨_, rfl⟩
    | closing => exact ⟨_, rfl⟩
    | plain => exact ⟨_, rfl⟩
  | quoted quote inner _ hquote hinner ih =>
    obtain ⟨depth, hfront⟩ := ih
    exact ⟨depth, by rw [coverAfter_append, hfront, foldl_quoted hquote hinner, List.foldl_nil]⟩

end

/-! ### What a cover says -/

/-- At least `depth` parentheses are open behind the text, one inside the other. -/
def LeavesParentheses : Nat → List Char → Prop
  | 0, _ => True
  | depth + 1, text => ∃ front inside, text = front ++ '(' :: inside
      ∧ OutsideQuotes front ∧ Balanced inside ∧ LeavesParentheses depth front

/-- What the cover behind a text says about the text. -/
inductive Cover.Shows : List Char → Cover → Prop where
  | outside {text : List Char} {depth : Nat} (h : OutsideQuotes text)
      (hopen : LeavesParentheses depth text) : Shows text ⟨none, depth⟩
  | quoted {front : List Char} {depth : Nat} (quote : Char) (inner : List Char)
      (h : OutsideQuotes front) (hopen : LeavesParentheses depth front) (hquote : isQuote quote)
      (hinner : quote ∉ inner) : Shows (front ++ quote :: inner) ⟨some quote, depth⟩

section

variable {depth : Nat} {text : List Char}

/-- A balanced text closes none of the parentheses that are open before it. The pairs
in it are among themselves. -/
theorem LeavesParentheses.append {more : List Char} (h : LeavesParentheses depth text)
    (hmore : Balanced more) : LeavesParentheses depth (text ++ more) := by
  cases depth with
  | zero => exact trivial
  | succ depth =>
    obtain ⟨front, inside, rfl, hfront, hinside, hdepth⟩ := h
    exact ⟨front, inside ++ more, by simp, hfront, hinside.append hmore, hdepth⟩

/-- A closing parenthesis makes a group of the last one that is open. If none is open,
there is nothing to show, as the depth stays zero. -/
theorem LeavesParentheses.close (h : LeavesParentheses depth text) :
    LeavesParentheses (depth - 1) (text ++ [')']) := by
  cases depth with
  | zero => exact trivial
  | succ depth =>
    obtain ⟨front, inside, rfl, -, hinside, hdepth⟩ := h
    -- The group stands behind the next open parenthesis, and is balanced.
    have hgroup := hdepth.append (.group hinside .nil)
    simpa using hgroup

/-- One more character shows what the next cover says. There is one case for each kind
of step, and in each of them the cover decides which of the two forms the text has. -/
theorem Cover.Shows.step {cover next : Cover} {c : Char} (h : cover.Shows text)
    (hstep : cover.Steps c next) : next.Shows (text ++ [c]) := by
  cases hstep with
  | endQuote =>
    obtain _ | ⟨_, inner, hfront, hopen, hquote, hinner⟩ := h
    rw [List.append_assoc]
    exact .outside (.quoted c inner hfront hquote hinner)
      (hopen.append (.quoted c inner hquote hinner .nil))
  | inQuote _ _ hne =>
    obtain _ | ⟨_, inner, hfront, hopen, hquote, hinner⟩ := h
    rw [List.append_assoc]
    exact .quoted _ (inner ++ [c]) hfront hopen hquote (by simp [hinner, hne.symm])
  | startQuote _ _ hquote =>
    obtain ⟨houtside, hopen⟩ | _ := h
    exact .quoted c [] houtside hopen hquote List.not_mem_nil
  | opening =>
    obtain ⟨houtside, hopen⟩ | _ := h
    exact .outside (.char '(' houtside (by decide)) ⟨text, [], rfl, houtside, .nil, hopen⟩
  -- What has been opened last is closed, and if nothing is open the count stays at zero.
  | closing =>
    obtain ⟨houtside, hopen⟩ | _ := h
    exact .outside (.char ')' houtside (by decide)) hopen.close
  | plain _ _ hquote hopening hclosing =>
    obtain ⟨houtside, hopen⟩ | _ := h
    exact .outside (.char c houtside hquote)
      (hopen.append (.plain c hquote hopening hclosing .nil))

/-- The cover behind a text is right about it. The text grows at its end, as it does
for the reader. -/
theorem shows_coverAfter (text : List Char) : (coverAfter text).Shows text := by
  induction text using List.reverseRecOn with
  | nil => exact .outside .nil trivial
  | append_singleton text c ih => exact ih.step (steps_coverAfter text c)

/-- A quote stays open in a text if and only if its cover has one. The left side
speaks of the text, the right side of the state in which the reader is behind it. -/
theorem leavesQuote_iff : LeavesQuote text ↔ (coverAfter text).quote ≠ none := by
  constructor
  · rintro ⟨front, quote, inner, rfl, hfront, hquote, hinner⟩
    obtain ⟨depth, hcover⟩ := hfront.exists_depth
    rw [coverAfter_append, hcover, List.foldl_cons,
      Cover.step_eq_iff.2 (.startQuote quote depth hquote), foldl_of_not_mem hinner]
    exact Option.some_ne_none quote
  · intro h
    have hshows := shows_coverAfter text
    generalize coverAfter text = cover at h hshows
    cases hshows with
    | outside => exact absurd rfl h
    | quoted quote inner hfront _ hquote hinner =>
      exact ⟨_, quote, inner, rfl, hfront, hquote, hinner⟩

/-- What stands behind a text is protected if a quote or a parenthesis is open in its
cover. This is where the description by the text alone and the state of the reader
meet. -/
theorem protects_iff : Protects text ↔ coverAfter text ≠ .bare := by
  constructor
  · rintro (hquote | ⟨front, inside, rfl, hfront, hinside⟩) hbare
    · exact leavesQuote_iff.1 hquote (congrArg Cover.quote hbare)
    · obtain ⟨depth, hcover⟩ := hfront.exists_depth
      rw [coverAfter_append, hcover, List.foldl_cons, Cover.step_eq_iff.2 (.opening depth),
        hinside.foldl] at hbare
      exact Nat.succ_ne_zero depth (congrArg Cover.depth hbare)
  · intro h
    -- The cover tells what form the text has, and if it is not bare, a quote or a
    -- parenthesis is open.
    have hshows := shows_coverAfter text
    generalize coverAfter text = cover at h hshows
    cases hshows with
    | quoted quote inner hfront _ hquote hinner =>
      exact .inl ⟨_, quote, inner, rfl, hfront, hquote, hinner⟩
    | @outside text depth _ hopen =>
      cases depth with
      | zero => exact absurd rfl h
      | succ depth =>
        obtain ⟨front, inside, rfl, hfront, hinside, -⟩ := hopen
        exact .inr ⟨front, inside, rfl, hfront, hinside⟩

end

/-! ### Where values end -/

/-- A value ends between the two texts: the second one begins with a terminator, which the first one
does not protect. -/
def EndsBetween (before after : List Char) : Prop :=
  ∃ c ∈ after.head?, isTerminator c ∧ ¬ Protects before

/-- The value is what stands in front of the first place of the text where a value ends. -/
structure IsFirstEnd (text value rest : List Char) : Prop where
  eq_append : text = value ++ rest
  ends : EndsBetween value rest
  first : ∀ before after, text = before ++ after → EndsBetween before after →
    value.length ≤ before.length

/-- There is no place of the text where a value ends. -/
def NeverEnds (text : List Char) : Prop :=
  ∀ before after, text = before ++ after → ¬ EndsBetween before after

section

variable {text value rest value' rest' : List Char}

/-- A text has one first end, since two of them would have fronts of the same length. -/
theorem IsFirstEnd.unique (h : IsFirstEnd text value rest) (h' : IsFirstEnd text value' rest') :
    value = value' ∧ rest = rest' := by
  have hle := h.first value' rest' h'.eq_append h'.ends
  have hge := h'.first value rest h.eq_append h.ends
  exact List.append_inj (h.eq_append.symm.trans h'.eq_append) (Nat.le_antisymm hle hge)

/-- A text with a first end has an end. -/
theorem IsFirstEnd.not_neverEnds (h : IsFirstEnd text value rest) : ¬ NeverEnds text :=
  fun hnever => hnever value rest h.eq_append h.ends

/-- The reader ends a value at a terminator that what it has passed does not protect.
The left side is what the code tests, and the right side is said without the code. -/
theorem endsAt_coverAfter {c : Char} :
    (coverAfter text).endsAt c ↔ isTerminator c ∧ ¬ Protects text := by
  rw [protects_iff, not_not]
  obtain ⟨quote, depth⟩ := coverAfter text
  simp [Cover.endsAt, Cover.bare, and_comm]

/-- A text that begins with a terminator ends a value at once. Nothing is in front of
it, so nothing protects it. -/
theorem isFirstEnd_nil_iff : IsFirstEnd text [] text ↔ ∃ c ∈ text.head?, isTerminator c := by
  constructor
  · intro h
    obtain ⟨c, hc, hterminator, -⟩ := h.ends
    exact ⟨c, hc, hterminator⟩
  · rintro ⟨c, hc, hterminator⟩
    have hopen : ¬ Protects [] := fun h => protects_iff.1 h rfl
    exact ⟨rfl, ⟨c, hc, hterminator, hopen⟩, fun before _ _ _ => Nat.zero_le before.length⟩

/-- The scan keeps the cover and stops at the first character that ends a value there.
It says so for any cover to begin with, because the recursion goes on under the next
one. -/
theorem scan_ends {cover final : Cover} (h : scan cover text = (value, rest, final)) :
    final = value.foldl Cover.step cover ∧ (∀ c ∈ rest.head?, final.endsAt c)
      ∧ ∀ before c after, value = before ++ c :: after →
        (before.foldl Cover.step cover).endsAt c = false := by
  induction text generalizing cover value with
  | nil =>
    cases h
    exact ⟨rfl, nofun, fun before c after hnil => by simp at hnil⟩
  | cons c text ih =>
    unfold scan at h
    split at h
    · rename_i hends
      cases h
      exact ⟨rfl, fun d hd => Option.mem_some.1 hd ▸ hends, fun before d after hnil => by
        simp at hnil⟩
    · rename_i hgoes
      rcases hscan : scan (cover.step c) text with ⟨front, left, last⟩
      rw [hscan] at h
      cases h
      obtain ⟨hlast, hstop, hbefore⟩ := ih hscan
      refine ⟨hlast, hstop, fun before d after hvalue => ?_⟩
      -- The character that is asked about is the first one, or one of the rest.
      cases before with
      | nil =>
        cases hvalue
        exact Bool.eq_false_iff.2 hgoes
      | cons e before =>
        cases hvalue
        exact hbefore before d after rfl

/-- In front of the place where the scan stops no value ends. At an earlier end the
scan would have gone on over a character that ends a value. -/
theorem length_le_of_scan {final : Cover} (h : scan .bare text = (value, rest, final))
    {before after : List Char} (htext : text = before ++ after) (hends : EndsBetween before after) :
    value.length ≤ before.length := by
  by_contra hlt
  obtain ⟨c, hc, hterminator⟩ := hends
  obtain ⟨tail, rfl⟩ := List.head?_eq_some_iff.1 hc
  have hall : value ++ rest = text := append_of_scan h
  -- Both are fronts of the text, so the shorter one is a front of the longer one.
  obtain ⟨more, hmore⟩ : before <+: value :=
    List.prefix_of_prefix_length_le ⟨c :: tail, htext.symm⟩ ⟨rest, hall⟩ (by omega)
  cases more with
  | nil => simp [← hmore] at hlt
  | cons d more =>
    obtain ⟨-, -, hgoes⟩ := scan_ends h
    have hc : d = c := by
      have hcut : before ++ (d :: (more ++ rest)) = before ++ c :: tail := by
        rw [← htext, ← hall, ← hmore]
        simp
      exact (List.cons.inj (List.append_cancel_left hcut)).1
    have hnot := hgoes before d more hmore.symm
    have hyes : (coverAfter before).endsAt d := endsAt_coverAfter.2 (hc ▸ hterminator)
    rw [coverAfter, hnot] at hyes
    cases hyes

/-- A value is read up to the first place where one ends; if there is none, the whole
text is one. Both statements about reading, when it succeeds and when it does not, are
read off these cases. -/
theorem read_cases (text : List Char) :
    (∃ value rest, IsFirstEnd text value rest
        ∧ (value = [] → read text = .error text) ∧ (value ≠ [] → read text = .ok (value, rest)))
      ∨ (NeverEnds text ∧ (text = [] ∨ LeavesQuote text → read text = .error text)
        ∧ (text ≠ [] → ¬ LeavesQuote text → read text = .ok (text, []))) := by
  rcases hscan : scan .bare text with ⟨value, rest, final⟩
  have hall : value ++ rest = text := append_of_scan hscan
  obtain ⟨hfinal, hstop, -⟩ := scan_ends hscan
  have hcover : final = coverAfter value := hfinal
  cases rest with
  -- The scan has stopped at a character, which ends the value outside of everything.
  | cons c rest =>
    obtain ⟨hterminator, hopen⟩ := endsAt_coverAfter.1 (hcover ▸ hstop c rfl)
    have hquote : final.quote = none := by
      by_contra hquote
      exact hopen (.inl (leavesQuote_iff.2 (hcover ▸ hquote)))
    refine .inl ⟨value, c :: rest, ⟨hall.symm, ⟨c, rfl, hterminator, hopen⟩, fun before after =>
      length_le_of_scan hscan⟩, fun hvalue => ?_, fun hvalue => ?_⟩
    · simp [read, hscan, hvalue]
    · simp [read, hscan, hvalue, hquote]
  | nil =>
    -- The scan has come to the end of the text, so no value ends before it.
    rw [List.append_nil] at hall
    subst hall
    refine .inr ⟨fun before after htext hends => ?_, ?_, fun hvalue hquote => ?_⟩
    · have hle := length_le_of_scan hscan htext hends
      obtain ⟨c, hc, -⟩ := hends
      obtain ⟨tail, rfl⟩ := List.head?_eq_some_iff.1 hc
      rw [htext, List.length_append, List.length_cons] at hle
      omega
    · rintro (rfl | hquote)
      · rfl
      · have hsome := leavesQuote_iff.1 hquote
        rw [← hcover, Option.ne_none_iff_isSome] at hsome
        simp [read, hscan, hsome]
    · have hnone : final.quote = none := by
        by_contra hsome
        exact hquote (leavesQuote_iff.2 (hcover ▸ hsome))
      simp [read, hscan, hvalue, hnone]

/-- What is read, said without the reader: the front up to the first end, or the whole
of a text that has none and leaves no quote open. In both cases it must not be empty. -/
theorem read_eq_ok_iff_ends :
    read text = .ok (value, rest) ↔ value ≠ []
      ∧ (IsFirstEnd text value rest
        ∨ NeverEnds text ∧ ¬ LeavesQuote text ∧ value = text ∧ rest = []) := by
  constructor
  · intro h
    refine ⟨(read_eq_ok h).2, ?_⟩
    rcases read_cases text with ⟨front, back, hfirst, hempty, hok⟩ | ⟨hnever, herror, hok⟩
    · by_cases hfront : front = []
      · rw [hempty hfront] at h
        cases h
      · rw [hok hfront] at h
        cases h
        exact .inl hfirst
    · by_cases hfails : text = [] ∨ LeavesQuote text
      · rw [herror hfails] at h
        cases h
      · obtain ⟨htext, hquote⟩ := not_or.1 hfails
        rw [hok htext hquote] at h
        cases h
        exact .inr ⟨hnever, hquote, rfl, rfl⟩
  · rintro ⟨hvalue, hfirst | ⟨hnever, hquote, rfl, rfl⟩⟩
    -- There is one first end, so it is the one at which the reader stops.
    · rcases read_cases text with ⟨front, back, hfirst', -, hok⟩ | ⟨hnever, -⟩
      · obtain ⟨rfl, rfl⟩ := hfirst.unique hfirst'
        exact hok hvalue
      · exact absurd hnever hfirst.not_neverEnds
    · rcases read_cases value with ⟨_, _, hfirst, -⟩ | ⟨-, -, hok⟩
      · exact absurd hnever hfirst.not_neverEnds
      · exact hok hvalue hquote

/-- When nothing is read, said without the reader. The error carries the text as it
was, so it is reported at the place where the value was to begin. -/
theorem read_eq_error_iff {left : List Char} :
    read text = .error left ↔ left = text
      ∧ (text = [] ∨ (∃ c ∈ text.head?, isTerminator c) ∨ NeverEnds text ∧ LeavesQuote text) := by
  constructor
  · intro h
    refine ⟨read_eq_error h, ?_⟩
    rcases read_cases text with ⟨front, back, hfirst, -, hok⟩ | ⟨hnever, -, hok⟩
    · by_cases hfront : front = []
      · subst hfront
        -- A value that would be empty ends where it begins, and so at the first character.
        obtain rfl : text = back := hfirst.eq_append
        exact .inr (.inl (isFirstEnd_nil_iff.1 hfirst))
      · rw [hok hfront] at h
        cases h
    · by_cases htext : text = []
      · exact .inl htext
      · refine .inr (.inr ⟨hnever, ?_⟩)
        by_contra hquote
        rw [hok htext hquote] at h
        cases h
  · rintro ⟨rfl, rfl | hterminator | ⟨hnever, hquote⟩⟩
    · rfl
    · have hnil := isFirstEnd_nil_iff.2 hterminator
      rcases read_cases left with ⟨front, back, hfirst, hempty, -⟩ | ⟨hnever, -⟩
      · exact hempty (hfirst.unique hnil).1
      · exact absurd hnever hnil.not_neverEnds
    · rcases read_cases left with ⟨_, _, hfirst, -⟩ | ⟨-, herror, -⟩
      · exact absurd hnever hfirst.not_neverEnds
      · exact herror (.inr hquote)

end

/-- A value is what stands in front of the first terminator that is not in quotes or
parentheses, or all of the text if there is no such terminator. There is none where
the text is empty, where it begins with a terminator, and where without such a
terminator a quote stays open. An open parenthesis, on the other hand, is no error:
the value goes on to the end. -/
theorem read_first_end (text : List Char) :
    (∀ value rest, read text = .ok (value, rest) ↔ value ≠ []
        ∧ (IsFirstEnd text value rest
          ∨ NeverEnds text ∧ ¬ LeavesQuote text ∧ value = text ∧ rest = []))
      ∧ (∀ left, read text = .error left ↔ left = text
        ∧ (text = [] ∨ (∃ c ∈ text.head?, isTerminator c) ∨ NeverEnds text ∧ LeavesQuote text))
      ∧ ∀ value rest, read text = .ok (value, rest) → value ++ rest = text :=
  ⟨fun _ _ => read_eq_ok_iff_ends, fun _ => read_eq_error_iff,
    fun _ _ h => (read_eq_ok h).1.symm⟩

example : read "a) \x22;\x22 (b;) ; c".toList
    = .ok ("a) \x22;\x22 (b;) ".toList, "; c".toList) := by decide +kernel

end BlockStyles.Text.RawValue
