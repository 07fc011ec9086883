import BlockStyles.Text.Blank
import BlockStyles.Text.Identifier
import BlockStyles.Text.Quoted
import BlockStyles.Text.Split
import Mathlib.Tactic.IntervalCases

/-!
# `BlockStyles.Proofs.Text.Identifiers`: identifiers within a text

The characters of identifiers are neither white space nor any of the marks that
selectors and ids are put together with. So an identifier is not changed by
trimming or by taking quotes off, it ends where one of the marks begins, and a
text can be cut at a mark without cutting an identifier.

* `Identifier.read_append`: an identifier is read up to what ends it.
* `splitFirst_append`, `splitLast_append`: a text is cut at a mark.
-/

set_option autoImplicit false

namespace BlockStyles.Text

/-! ### Characters -/

/-- White space is not alphanumeric. The two properties are given by tables of code
points, and the tables have to be compared at each of the white space characters. -/
theorem isAlphanumeric_of_isSpace {c : Char} (h : isSpace c) : isAlphanumeric c = false := by
  simp only [isSpace, Bool.or_eq_true, beq_iff_eq, Bool.and_eq_true, decide_eq_true_eq] at h
  -- Two of the alternatives are ranges, which are gone through by code point.
  have hrange : ∀ {first last : Char}, first ≤ c ∧ c ≤ last →
      first.toNat ≤ c.toNat ∧ c.toNat ≤ last.toNat := id
  have hchar : ∀ n : Nat, c.toNat = n → c = Char.ofNat n := fun n hn => by
    rw [← hn, Char.ofNat_toNat]
  rcases h with ((((((((((rfl | h) | rfl) | rfl) | rfl) | h) | rfl) | rfl) | rfl) | rfl) | rfl)
  case inl.inl.inl.inl.inl.inl.inl.inl.inl.inr =>
    obtain ⟨hfirst, hlast⟩ := hrange h
    change 9 ≤ c.toNat at hfirst
    change c.toNat ≤ 13 at hlast
    generalize hn : c.toNat = n at hfirst hlast
    rw [hchar n hn]
    interval_cases n <;> decide
  case inl.inl.inl.inl.inl.inr =>
    obtain ⟨hfirst, hlast⟩ := hrange h
    change 0x2000 ≤ c.toNat at hfirst
    change c.toNat ≤ 0x200a at hlast
    generalize hn : c.toNat = n at hfirst hlast
    rw [hchar n hn]
    interval_cases n <;> decide +kernel
  all_goals decide +kernel

/-- The characters of identifiers are not white space. A hyphen and an underscore are
the two that are not alphanumeric. -/
theorem isSpace_of_isIdentifierChar {c : Char} (h : isIdentifierChar c) : isSpace c = false := by
  simp only [isIdentifierChar, Bool.or_eq_true, beq_iff_eq] at h
  rcases h with (h | rfl) | rfl
  · rw [Bool.eq_false_iff]
    intro hspace
    rw [isAlphanumeric_of_isSpace hspace] at h
    cases h
  · decide
  · decide

/-- A mark is not in an identifier. Which characters are marks is left open: dots,
colons, brackets and quotes all fall under this. -/
theorem not_mem_of_isIdentifier {name : String} (h : isIdentifier name) {mark : Char}
    (hmark : isIdentifierChar mark = false) : mark ∉ name.toList := by
  intro hmem
  simp only [isIdentifier, Bool.and_eq_true, List.all_eq_true] at h
  rw [h.2 mark hmem] at hmark
  cases hmark

/-- An identifier has at least one character. A dot with nothing behind it is
therefore no class. -/
theorem ne_nil_of_isIdentifier {name : String} (h : isIdentifier name) : name.toList ≠ [] := by
  simp only [isIdentifier, Bool.and_eq_true, Bool.not_eq_true', List.isEmpty_eq_false_iff] at h
  exact h.1

/-- Where an identifier begins, no mark does. Readers decide by the first character,
so this is enough to know which of them takes an identifier. -/
theorem exists_cons_of_isIdentifier {name : String} (h : isIdentifier name) :
    ∃ c tail, name.toList = c :: tail ∧ isIdentifierChar c := by
  cases hname : name.toList with
  | nil => exact absurd hname (ne_nil_of_isIdentifier h)
  | cons c tail =>
    simp only [isIdentifier, Bool.and_eq_true, List.all_eq_true] at h
    exact ⟨c, tail, rfl, h.2 c (hname ▸ List.mem_cons_self)⟩

/-! ### White space and quotes -/

/-- Nothing is trimmed off a text without white space. This asks for more than
`trim_eq_self_iff`, but it is what one knows of names. -/
theorem trim_eq_self {text : List Char} (h : ∀ c ∈ text, isSpace c = false) : trim text = text := by
  have hdrop : ∀ l : List Char, (∀ c ∈ l, isSpace c = false) → l.dropWhile isSpace = l := by
    intro l hl
    cases l with
    | nil => rfl
    | cons c l => rw [List.dropWhile_cons, hl c List.mem_cons_self]; rfl
  rw [trim, trimStart, hdrop text h, trimEnd,
    hdrop _ fun c hc => h c (List.mem_reverse.1 hc), List.reverse_reverse]

/-- There is no white space in an identifier. So blanks always end a name. -/
theorem isSpace_of_mem_identifier {name : String} (h : isIdentifier name) :
    ∀ c ∈ name.toList, isSpace c = false := by
  simp only [isIdentifier, Bool.and_eq_true, List.all_eq_true] at h
  exact fun c hc => isSpace_of_isIdentifierChar (h.2 c hc)

/-- Nothing is trimmed off an identifier. -/
theorem trim_identifier {name : String} (h : isIdentifier name) : trim name.toList = name.toList :=
  trim_eq_self (isSpace_of_mem_identifier h)

/-- No quotes are taken off an identifier, for it has none. So a value that is an
identifier stays as it was written. -/
theorem unquote_identifier {name : String} (h : isIdentifier name) :
    unquote name.toList = name.toList := by
  rcases unquote_eq_self_or_quoted name.toList with hself | ⟨quote, hquote, htext⟩
  · exact hself
  · have hmark : isIdentifierChar quote = false := by
      simp only [isQuote, Bool.or_eq_true, beq_iff_eq] at hquote
      rcases hquote with rfl | rfl <;> decide
    refine absurd ?_ (not_mem_of_isIdentifier h hmark)
    rw [htext]
    simp

/-! ### Reading and cutting -/

/-- An identifier is read up to the first character that cannot be in it. Nothing is
asked of what stands behind that character, which is what lets readers be put
together. -/
theorem Identifier.read_append {name : String} (h : isIdentifier name) {rest : List Char}
    (hrest : ∀ c ∈ rest.head?, isIdentifierChar c = false) :
    Identifier.read (name.toList ++ rest) = .ok (name, rest) := by
  have hall : ∀ c ∈ name.toList, isIdentifierChar c := by
    simp only [isIdentifier, Bool.and_eq_true, List.all_eq_true] at h
    exact h.2
  have htake : (name.toList ++ rest).takeWhile isIdentifierChar = name.toList := by
    rw [List.takeWhile_append_of_pos hall]
    cases rest with
    | nil => simp
    | cons c rest => simp [hrest c rfl]
  have hdrop : (name.toList ++ rest).dropWhile isIdentifierChar = rest := by
    rw [List.dropWhile_append_of_pos hall]
    cases rest with
    | nil => rfl
    | cons c rest => simp [hrest c rfl]
  unfold Identifier.read
  rw [htake, hdrop]
  -- The run of letters is the name, and it is not empty.
  split
  · rename_i hnil
    exact absurd hnil (ne_nil_of_isIdentifier h)
  · rename_i c run hcons
    rw [← hcons, String.ofList_toList]

/-- A text is cut at the first mark, and that is the one that is known to have none
before it. -/
theorem splitFirst_append {mark : Char} {before : List Char} (after : List Char)
    (h : mark ∉ before) : splitFirst mark (before ++ mark :: after) = some (before, after) := by
  have hall : ∀ c ∈ before, (c != mark) = true := by
    intro c hc
    rw [bne_iff_ne]
    rintro rfl
    exact h hc
  unfold splitFirst
  rw [List.dropWhile_append_of_pos hall, List.takeWhile_append_of_pos hall]
  simp

/-- A text without the mark is not cut. An attribute without an equals sign has no
value in this way. -/
theorem splitFirst_eq_none {mark : Char} {text : List Char} (h : mark ∉ text) :
    splitFirst mark text = none := by
  cases hsplit : splitFirst mark text with
  | none => rfl
  | some parts =>
    obtain ⟨htext, -⟩ := splitFirst_eq_some hsplit
    exact absurd (by rw [htext]; simp) h

/-- A text is cut at the last mark, and that is the one that is known to have none
behind it. The function is that for the first mark on the text turned around, and so
is the proof. -/
theorem splitLast_append {mark : Char} (before : List Char) {after : List Char}
    (h : mark ∉ after) : splitLast mark (before ++ mark :: after) = some (before, after) := by
  have hreverse : (before ++ mark :: after).reverse = after.reverse ++ mark :: before.reverse := by
    simp
  rw [splitLast, hreverse, splitFirst_append _ fun hmem => h (List.mem_reverse.1 hmem)]
  simp

end BlockStyles.Text
