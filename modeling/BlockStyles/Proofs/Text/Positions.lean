import BlockStyles.Text.Comment
import BlockStyles.Text.Position
import Mathlib.Data.String.Basic

/-!
# `BlockStyles.Proofs.Text.Positions`: the order of positions

Positions are ordered as places in a text are: by line, and by column within a line. They are as
long as lines and columns can be counted in 32 bits, and a text has no more of them than bytes.

* `Position.before_of_append`: more of a text ends at a later place.
* `Position.isKnown_after`: which places have a line.
* `Position.isPlaceOf_ofSuffix`: the place that offsets lead to, by counting lines and characters.
* `Position.before_ofSuffix`: less of a text begins at a later place.
* `length_blankComments_le`: a blanked text has at most as many characters as the source has bytes.
-/

set_option autoImplicit false

namespace BlockStyles.Text

namespace Position

/-- The position is on an earlier line, or further to the left on the same line. -/
def Before (position other : Position) : Prop :=
  position.line < other.line ∨ position.line = other.line ∧ position.column < other.column

/-- The order of positions can be tested, by comparing lines and then columns. -/
instance (position other : Position) : Decidable (position.Before other) :=
  inferInstanceAs (Decidable (_ ∨ _))

/-- No place comes before itself, so places in order are different ones. -/
theorem Before.ne {position other : Position} (h : position.Before other) : position ≠ other := by
  rintro rfl
  rcases h with h | ⟨-, h⟩
  · exact UInt32.lt_irrefl _ h
  · exact UInt32.lt_irrefl _ h

/-- Small numbers keep their order in 32 bits. The larger one has to fit; then the
smaller one does. -/
theorem ofNat_lt_ofNat {m n : Nat} (h : m < n) (hn : n < UInt32.size) :
    UInt32.ofNat m < UInt32.ofNat n := by
  rwa [UInt32.lt_iff_toNat_lt, UInt32.toNat_ofNat', UInt32.toNat_ofNat',
    Nat.mod_eq_of_lt (Nat.lt_trans h hn), Nat.mod_eq_of_lt hn]

/-- More of a text ends at a later place, if it is not too long. The bound is on
characters, though only lines and columns are counted: neither is more than there are
characters, and one. -/
theorem before_of_append {before more : List Char} (hmore : more ≠ [])
    (hlength : (before ++ more).length + 1 < UInt32.size) :
    (after before).Before (after (before ++ more)) := by
  by_cases hline : '\n' ∈ more
  -- A line break leads to a later line.
  · have hcount : (before ++ more).count '\n' ≤ (before ++ more).length := List.count_le_length
    have hbreak : 0 < more.count '\n' := List.count_pos_iff.2 hline
    rw [List.count_append] at hcount
    refine .inl (ofNat_lt_ofNat ?_ ?_) <;> rw [List.count_append] <;> omega
  -- Without one the line stays, and each character takes a column.
  · have hcount : (before ++ more).count '\n' = before.count '\n' := by
      rw [List.count_append, List.count_eq_zero.2 hline, Nat.add_zero]
    have hnone : ∀ c ∈ more.reverse, (c != '\n') = true := by
      intro c hc
      rw [bne_iff_ne]
      rintro rfl
      exact hline (List.mem_reverse.1 hc)
    have hrun := (List.takeWhile_prefix (· != '\n') (l := (before ++ more).reverse)).length_le
    rw [List.length_reverse] at hrun
    have hpositive := List.length_pos_iff.2 hmore
    refine .inr ⟨by rw [after, after, hcount], ofNat_lt_ofNat ?_ (by omega)⟩
    rw [List.reverse_append, List.takeWhile_append_of_pos hnone, List.length_append,
      List.length_reverse]
    omega

/-- The line of a place is known, unless its number is lost in 32 bits. An unknown
line has the number zero, and a line that is counted gets it by overflow only. -/
theorem isKnown_after (before : List Char) :
    (after before).isKnown = true ↔ ¬ 2 ^ 32 ∣ before.count '\n' + 1 := by
  rw [isKnown, bne_iff_ne, ne_eq, ← UInt32.toNat_inj, after, UInt32.toNat_ofNat',
    Nat.dvd_iff_mod_eq_zero]
  rfl

end Position

/-! ### Bytes and characters -/

/-- A text has no more characters than bytes, as each of them takes one at least. So a
limit on bytes is one on columns and lines as well. -/
theorem length_le_byteLength (text : List Char) : text.length ≤ byteLength text := by
  induction text with
  | nil => exact Nat.le_refl 0
  | cons c text ih =>
    have hsize := c.utf8Size_pos
    rw [List.length_cons, byteLength_cons]
    omega

/-- The bytes counted character by character are those of the string. The limit on the
size of a source is stated with the latter. -/
theorem byteLength_toList (source : String) : byteLength source.toList = source.utf8ByteSize := by
  have hlength : ∀ text : List Char, byteLength text = String.utf8Len text := by
    intro text
    induction text with
    | nil => rfl
    | cons c text ih => rw [byteLength_cons, String.utf8Len_cons, ih, Nat.add_comm]
  rw [hlength, String.utf8Len_toList]

/-! ### The place of a rest -/

namespace Position

/-- The place is where `rest` begins in `text`: its line is counted by the line breaks before it, and
its column by the characters behind the last of them. -/
structure IsPlaceOf (position : Position) (text rest : List Char) : Prop where
  reached : ofSuffix? text rest = some position
  counted : ∃ above line, text = above ++ (line ++ rest) ∧ IsLines above ∧ '\n' ∉ line
    ∧ position.line.toNat = 1 + (above ++ line).count '\n' ∧ position.column.toNat = 1 + line.length

variable {text rest later : List Char}

/-- In a text that is not too long every rest has its place. The text before the rest
is split behind its last line break, and the two parts give the line and the column. -/
theorem isPlaceOf_ofSuffix (hsize : byteLength text < 2 ^ 32 - 1) (hrest : rest <:+ text) :
    (ofSuffix text rest).IsPlaceOf text rest := by
  obtain ⟨before, rfl⟩ := hrest
  obtain ⟨above, line, rfl, habove, hline⟩ := exists_lines before
  have hlength := length_le_byteLength (above ++ line ++ rest)
  simp only [List.length_append] at hlength
  -- Neither number overflows, as there are at most as many as there are bytes.
  have hcount : above.count '\n' ≤ above.length := List.count_le_length
  rw [ofSuffix_append]
  refine ⟨ofSuffix?_append _ rest, above, line, by rw [List.append_assoc], habove, hline, ?_⟩
  rw [after_append habove hline, List.count_append, List.count_eq_zero.2 hline, UInt32.toNat_ofNat',
    UInt32.toNat_ofNat', Nat.mod_eq_of_lt (by omega), Nat.mod_eq_of_lt (by omega)]
  omega

/-- Of two rests of a text the shorter one begins at the later place. What the longer
one has more stands between the two places. -/
theorem before_ofSuffix (hsize : byteLength text < 2 ^ 32 - 1) (hrest : rest <:+ text)
    (hlater : later <:+ text) (hlt : later.length < rest.length) :
    (ofSuffix text rest).Before (ofSuffix text later) := by
  obtain ⟨more, rfl⟩ := List.suffix_of_suffix_length_le hlater hrest (Nat.le_of_lt hlt)
  obtain ⟨before, rfl⟩ := hrest
  have hlength := length_le_byteLength (before ++ (more ++ later))
  have hmore : more ≠ [] := by
    rintro rfl
    exact Nat.lt_irrefl _ hlt
  have hplace := ofSuffix_append (before ++ more) later
  rw [List.append_assoc] at hplace
  rw [ofSuffix_append, hplace]
  refine before_of_append hmore ?_
  simp only [List.length_append, UInt32.size] at hlength ⊢
  omega

end Position

/-! ### The length of a blanked text -/

/-- A character is blanked by as many bytes as it has, for a space has one. A line
break has one byte, and is left as it is. -/
theorem byteLength_blankOut (c : Char) : byteLength (blankOut c) = c.utf8Size := by
  have hspaces : ∀ n : Nat, byteLength (List.replicate n ' ') = n := by
    intro n
    induction n with
    | zero => rfl
    | succ n ih => rw [List.replicate_succ, byteLength_cons, ih, Nat.add_comm]; rfl
  unfold blankOut
  split
  · rename_i hline
    cases beq_iff_eq.1 hline
    rfl
  · exact hspaces _

/-- Blanking comments changes no number of bytes. The number of characters may change,
which is why lengths are compared by bytes. -/
theorem byteLength_blankComments (text : List Char) :
    byteLength (blankComments text) = byteLength text := by
  refine blankComments.induct
    (fun text => byteLength (blankComments text) = byteLength text)
    (fun text => byteLength (blankToClose text) = byteLength text)
    ?_ ?_ rfl ?_ ?_ rfl text
  · intro text ih
    simp only [blankComments, byteLength_cons, ih]
    rfl
  · intro c text hopen ih
    rw [blankComments.eq_2 c text hopen, byteLength_cons, byteLength_cons, ih]
  · intro text ih
    simp only [blankToClose, byteLength_cons, ih]
    rfl
  · intro c text hclose ih
    -- Inside a comment a character may become several, one for each of its bytes.
    rw [blankToClose.eq_2 c text hclose, byteLength_append, byteLength_blankOut, ih,
      byteLength_cons]

/-- A blanked text has at most as many characters as the source has bytes. By this a
bound on the size of a file bounds all lines and columns in it. -/
theorem length_blankComments_le (source : String) :
    (blankComments source.toList).length ≤ source.utf8ByteSize := by
  rw [← byteLength_toList, ← byteLength_blankComments]
  exact length_le_byteLength _

end BlockStyles.Text
