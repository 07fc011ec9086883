import BlockStyles.Text.Blank
import BlockStyles.Text.RawValue

/-!
# `BlockStyles.Proofs.Text.Values`: where raw values end

A text that closes what it opens, and has no terminator outside quotes and
parentheses, is a whole value: reading goes on to the terminator behind it.

* `RawValue.isTerminator_of_read`: a value ends at a terminator or at the end of the text.
* `RawValue.sealed_iff`: such a text is one that is scanned to its end.
* `RawValue.read_append`: it is read up to the terminator behind it.
-/

set_option autoImplicit false

namespace BlockStyles.Text.RawValue

/-! ### Ends of values -/

/-- Terminators are not blanks, so skipping blanks stops in front of them. -/
theorem isBlank_of_isTerminator {c : Char} (h : isTerminator c) : isBlank c = false := by
  simp only [isTerminator, Bool.or_eq_true, beq_iff_eq] at h
  rcases h with (rfl | rfl) | rfl <;> decide

/-- A scan stops at a terminator or at the end, whatever cover it began with. Inside
of quotes and parentheses it stops at the end only. -/
theorem isTerminator_of_scan {cover : Cover} {text : List Char} :
    ∀ c ∈ (scan cover text).2.1.head?, isTerminator c := by
  induction text generalizing cover with
  | nil => exact fun c hc => by cases hc
  | cons d rest ih =>
    unfold scan
    split
    · rename_i hend
      intro c hc
      cases hc
      simp only [Cover.endsAt, Bool.and_eq_true] at hend
      exact hend.2
    · exact ih

/-- A value ends at a terminator or at the end of the text. Whoever reads on behind a
value has to deal with these two cases only. -/
theorem isTerminator_of_read {text value rest : List Char} (h : read text = .ok (value, rest)) :
    ∀ c ∈ rest.head?, isTerminator c := by
  have hscan : ∀ c ∈ (scan .bare text).2.1.head?, isTerminator c := isTerminator_of_scan
  unfold read at h
  split at h
  rename_i v r final heq
  split at h
  · cases h
  · cases h
    rwa [heq] at hscan

/-! ### Texts that are whole values -/

/-- The text has no terminator outside quotes and parentheses, and closes all quotes that it
opens, and all parentheses, of which `depth` are open before it. A closing parenthesis that
none is open for is a character like others. -/
inductive Sealed : Nat → List Char → Prop where
  | nil : Sealed 0 []
  | plain {depth : Nat} {rest : List Char} (c : Char) (hquote : isQuote c = false)
      (hopen : c ≠ '(') (hclose : c ≠ ')') (hend : depth = 0 → isTerminator c = false)
      (h : Sealed depth rest) : Sealed depth (c :: rest)
  | quoted {depth : Nat} {rest : List Char} (quote : Char) (inner : List Char)
      (hquote : isQuote quote) (hinner : quote ∉ inner) (h : Sealed depth rest) :
      Sealed depth (quote :: (inner ++ quote :: rest))
  | opening {depth : Nat} {rest : List Char} (h : Sealed (depth + 1) rest) :
      Sealed depth ('(' :: rest)
  | closing {depth : Nat} {rest : List Char} (h : Sealed (depth - 1) rest) :
      Sealed depth (')' :: rest)

/-- A sealed text behind another is part of one sealed text, because the first one
leaves nothing open. -/
theorem Sealed.append {depth : Nat} {text more : List Char} (h : Sealed depth text)
    (hmore : Sealed 0 more) : Sealed depth (text ++ more) := by
  induction h with
  | nil => exact hmore
  | plain c hquote hopen hclose hend _ ih => exact .plain c hquote hopen hclose hend ih
  | quoted quote inner hquote hinner _ ih =>
    rw [List.cons_append, List.append_assoc]
    exact .quoted quote inner hquote hinner ih
  | opening _ ih => exact .opening ih
  | closing _ ih => exact .closing ih

/-- A text of characters that mean nothing to values is sealed. Most values that are
written are of this kind. -/
theorem Sealed.of_plain {text : List Char}
    (h : ∀ c ∈ text, isQuote c = false ∧ c ≠ '(' ∧ c ≠ ')' ∧ isTerminator c = false) :
    Sealed 0 text := by
  induction text with
  | nil => exact .nil
  | cons c rest ih =>
    obtain ⟨⟨hquote, hopen, hclose, hend⟩, hrest⟩ := List.forall_mem_cons.1 h
    exact .plain c hquote hopen hclose (fun _ => hend) (ih hrest)

/-- Inside quotes everything up to the closing one belongs to the value, terminators
as well. -/
theorem scan_quoted {quote : Char} {inner : List Char} (h : quote ∉ inner) (depth : Nat)
    (rest : List Char) :
    scan ⟨some quote, depth⟩ (inner ++ quote :: rest)
      = (inner ++ quote :: (scan ⟨none, depth⟩ rest).1, (scan ⟨none, depth⟩ rest).2) := by
  induction inner with
  | nil => simp [scan, Cover.endsAt, Cover.step]
  | cons c inner ih =>
    obtain ⟨hc, hinner⟩ := List.ne_and_not_mem_of_not_mem_cons h
    simp [scan, Cover.endsAt, Cover.step, Ne.symm hc, ih hinner]

/-- A sealed text is scanned up to the terminator behind it, or to the end of the
text. The induction is on how the text is sealed, which gives the depth for each part
of it. -/
theorem scan_sealed {depth : Nat} {text : List Char} (h : Sealed depth text) {rest : List Char}
    (hrest : ∀ c ∈ rest.head?, isTerminator c) :
    scan ⟨none, depth⟩ (text ++ rest) = (text, rest, .bare) := by
  have hparen : isQuote '(' = false ∧ isQuote ')' = false := by decide
  induction h with
  | nil =>
    cases rest with
    | nil => rfl
    | cons mark rest => simp [scan, Cover.endsAt, hrest mark rfl, Cover.bare]
  | @plain depth text c hquote hopen hclose hend _ ih =>
    -- Inside of parentheses nothing ends a value, and outside this character does not.
    have hgoes : Cover.endsAt ⟨none, depth⟩ c = false := by
      cases depth with
      | zero => simp [Cover.endsAt, hend rfl]
      | succ depth => simp [Cover.endsAt]
    simp [scan, hgoes, Cover.step, hquote, hopen, hclose, ih]
  | @quoted depth text quote inner hquote hinner _ ih =>
    have hgoes : Cover.endsAt ⟨none, depth⟩ quote = false := by
      simp only [isQuote, Bool.or_eq_true, beq_iff_eq] at hquote
      rcases hquote with rfl | rfl <;> simp [Cover.endsAt, isTerminator]
    simp [scan, hgoes, Cover.step, hquote, scan_quoted hinner, ih]
  | opening _ ih => simp [scan, Cover.endsAt, isTerminator, Cover.step, hparen, ih]
  | closing _ ih => simp [scan, Cover.endsAt, isTerminator, Cover.step, hparen, ih]

/-- A quote that is open and does not stay open is closed somewhere. What is in
between does not have the quote in it, since the first one closes. -/
theorem exists_of_scan_quoted {quote : Char} {depth : Nat} {text : List Char}
    (h : scan ⟨some quote, depth⟩ text = (text, [], .bare)) :
    ∃ inner rest, text = inner ++ quote :: rest ∧ quote ∉ inner
      ∧ scan ⟨none, depth⟩ rest = (rest, [], .bare) := by
  induction text with
  | nil => exact absurd h (by simp [scan, Cover.bare])
  | cons c text ih =>
    by_cases hc : c = quote
    · subst hc
      refine ⟨[], text, rfl, List.not_mem_nil, ?_⟩
      simpa [scan, Cover.endsAt, Cover.step, Prod.ext_iff] using h
    · have htext : scan ⟨some quote, depth⟩ text = (text, [], .bare) := by
        simpa [scan, Cover.endsAt, Cover.step, hc, Prod.ext_iff] using h
      obtain ⟨inner, rest, rfl, hinner, hrest⟩ := ih htext
      exact ⟨c :: inner, rest, rfl, by simp [hinner, Ne.symm hc], hrest⟩

/-- What is scanned to its end with nothing left open is sealed. The recursion is on
the length, as a quoted text is passed at once and not character by character. -/
theorem sealed_of_scan : ∀ {depth : Nat} {text : List Char},
    scan ⟨none, depth⟩ text = (text, [], .bare) → Sealed depth text
  | depth, [], h => by
    cases h
    exact .nil
  | depth, c :: text, h => by
    have hgoes : Cover.endsAt ⟨none, depth⟩ c = false := by
      cases hend : Cover.endsAt ⟨none, depth⟩ c with
      | false => rfl
      | true => exact absurd h (by simp [scan, hend])
    have hrest : scan (Cover.step ⟨none, depth⟩ c) text = (text, [], .bare) := by
      simpa [scan, hgoes, Prod.ext_iff] using h
    cases hquote : isQuote c with
    | true =>
      -- A quote opens, and where it is closed the text goes on with the depth that it had.
      have hopen : Cover.step ⟨none, depth⟩ c = ⟨some c, depth⟩ := by simp [Cover.step, hquote]
      obtain ⟨inner, rest, rfl, hinner, hafter⟩ := exists_of_scan_quoted (hopen ▸ hrest)
      exact .quoted c inner hquote hinner (sealed_of_scan hafter)
    | false =>
      by_cases hopen : c = '('
      · subst hopen
        exact .opening (sealed_of_scan hrest)
      · by_cases hclose : c = ')'
        · subst hclose
          exact .closing (sealed_of_scan hrest)
        · have hstep : Cover.step ⟨none, depth⟩ c = ⟨none, depth⟩ := by
            simp [Cover.step, hquote, hopen, hclose]
          refine .plain c hquote hopen hclose (fun hdepth => ?_) (sealed_of_scan (hstep ▸ hrest))
          simpa [Cover.endsAt, hdepth] using hgoes
termination_by _ text => text.length

/-- A text is sealed if and only if all of it is scanned and nothing is left open. It
makes `Sealed` decidable, so that it can be tested. -/
theorem sealed_iff {depth : Nat} {text : List Char} :
    Sealed depth text ↔ scan ⟨none, depth⟩ text = (text, [], .bare) := by
  refine ⟨fun h => ?_, sealed_of_scan⟩
  have hscan : scan ⟨none, depth⟩ (text ++ []) = (text, [], .bare) :=
    scan_sealed h fun c hc => by cases hc
  rwa [List.append_nil] at hscan

/-- Whether a text is sealed is tested by scanning it. -/
instance (depth : Nat) (text : List Char) : Decidable (Sealed depth text) :=
  decidable_of_iff _ sealed_iff.symm

/-- What is scanned up to a terminator is scanned to its end by itself. The scan does
not look at what stands behind the terminator. -/
theorem scan_value {cover final : Cover} {text value rest : List Char} {c : Char}
    (h : scan cover text = (value, c :: rest, final)) :
    final.endsAt c ∧ scan cover value = (value, [], final) := by
  induction text generalizing cover value with
  | nil => cases h
  | cons d text ih =>
    unfold scan at h
    split at h
    -- The scan stops at once, so the value is empty and there is nothing to scan in it.
    · rename_i hend
      cases h
      exact ⟨hend, rfl⟩
    · rename_i hgoes
      rcases hscan : scan (cover.step d) text with ⟨front, left, after⟩
      rw [hscan] at h
      cases h
      obtain ⟨hend, hfront⟩ := ih hscan
      exact ⟨hend, by simp [scan, hgoes, hfront]⟩

/-- A value that is read up to a terminator is sealed: at a terminator that ends it no
quote and no parenthesis is open. -/
theorem sealed_of_read {text value rest : List Char} {c : Char}
    (h : read text = .ok (value, c :: rest)) : Sealed 0 value := by
  unfold read at h
  split at h
  rename_i front left final hscan
  split at h
  · cases h
  · cases h
    obtain ⟨hend, hvalue⟩ := scan_value hscan
    simp only [Cover.endsAt, Bool.and_eq_true, Option.isNone_iff_eq_none, beq_iff_eq] at hend
    have hbare : final = .bare := by
      obtain ⟨quote, depth⟩ := final
      obtain ⟨⟨rfl, rfl⟩, -⟩ := hend
      rfl
    exact sealed_iff.2 (hbare ▸ hvalue)

/-- A sealed text is read up to the terminator behind it. With `sealed_of_read` this
is a round trip between values and sealed texts. -/
theorem read_append {text : List Char} (h : Sealed 0 text) (hne : text ≠ []) {rest : List Char}
    (hrest : ∀ c ∈ rest.head?, isTerminator c) : read (text ++ rest) = .ok (text, rest) := by
  have hscan : scan .bare (text ++ rest) = (text, rest, .bare) := scan_sealed h hrest
  rw [read, hscan]
  simp [hne, Cover.bare]

end BlockStyles.Text.RawValue
