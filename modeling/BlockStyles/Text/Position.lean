import BlockStyles.Text.Offsets

/-!
# `BlockStyles.Text.Position`: places in a text

A position is a line and a column, both counted from 1; columns count
characters. Line 0 marks a position that is not known. Both numbers are 32 bits
wide.

The place where a rest of a text begins is found by offsets: by how many bytes
the rest is shorter, in which line that is, and how many characters stand
between there and the start of the line.

* `ofSuffix?_append`: for a rest of the text there is always such a place.
* `ofSuffix_append`: it is the line and column that counting from the front gives.
-/

set_option autoImplicit false

namespace BlockStyles.Text

/-- A place in a text: line and column, from 1 on. -/
structure Position where
  line : UInt32
  column : UInt32
deriving DecidableEq, Repr, Inhabited

namespace Position

/-- The position of something whose place is not known. -/
def unknown : Position := ⟨0, 0⟩

/-- Whether the position says where something is. -/
def isKnown (position : Position) : Bool :=
  position.line != 0

/-- Line and column with a colon between them. -/
def text (position : Position) : String :=
  toString position.line.toNat ++ ":" ++ toString position.column.toNat

/-- The place right after `before`: one line further for each line break in it,
and one column further for each character after the last of them. -/
def after (before : List Char) : Position where
  line := .ofNat (before.count '\n' + 1)
  column := .ofNat ((before.reverse.takeWhile (· != '\n')).length + 1)

/-- The place at an offset of a text, if the text can be cut there. -/
def atOffset? (text : List Char) (offset : Nat) : Option Position := do
  let starts := lineStarts text
  let line := partitionPoint (· ≤ offset) starts 0 starts.length - 1
  let start ← starts[line]?
  let before ← slice? text start offset
  return ⟨.ofNat line + 1, .ofNat (before.length + 1)⟩

/-- The place in `source` at which its suffix `rest` begins. Of the two only the
lengths are compared. -/
def ofSuffix? (source rest : List Char) : Option Position :=
  atOffset? source (byteLength source - byteLength rest)

/-- The place in `source` at which its suffix `rest` begins. -/
def ofSuffix (source rest : List Char) : Position :=
  (ofSuffix? source rest).getD unknown

/-- The place behind whole lines and a stretch of the next line: the lines
are counted by their breaks, and the columns by the characters of the
stretch. -/
theorem after_append {above line : List Char} (habove : IsLines above) (hline : '\n' ∉ line) :
    after (above ++ line) = ⟨.ofNat (above.count '\n' + 1), .ofNat (line.length + 1)⟩ := by
  have hcount : (above ++ line).count '\n' = above.count '\n' := by
    rw [List.count_append, List.count_eq_zero.2 hline, Nat.add_zero]
  have hplain : ∀ c ∈ line.reverse, (c != '\n') = true := by
    intro c hc
    rw [bne_iff_ne]
    rintro rfl
    exact hline (List.mem_reverse.1 hc)
  have hrun : (above ++ line).reverse.takeWhile (· != '\n') = line.reverse := by
    rw [List.reverse_append, List.takeWhile_append_of_pos hplain]
    rcases habove with rfl | ⟨front, rfl⟩ <;> simp
  rw [after, hcount, hrun, List.length_reverse]

/-- The line of an offset begins behind the whole lines before it. The search
finds that line, and the slice from there holds the characters that make up
the column, so there is always an answer. -/
theorem atOffset?_append {above line : List Char} (habove : IsLines above) (hline : '\n' ∉ line)
    (rest : List Char) :
    atOffset? (above ++ (line ++ rest)) (byteLength (above ++ line))
      = some ⟨.ofNat (above.count '\n' + 1), .ofNat (line.length + 1)⟩ := by
  have hpoint := partitionPoint_lineStarts above hline rest
  rw [length_lineStarts above] at hpoint
  unfold atOffset?
  dsimp only
  rw [hpoint, Nat.add_sub_cancel, getElem?_lineStarts habove]
  simp only [Option.bind_eq_bind, Option.bind_some, slice?_append, UInt32.ofNat_add]
  rfl

/-- For a rest of the text there is always a place, and it is the one behind
what stands before it. Both lengths are in bytes, but their difference is
again the length of a front part, so no character is cut. -/
theorem ofSuffix?_append (before rest : List Char) :
    ofSuffix? (before ++ rest) rest = some (after before) := by
  obtain ⟨above, line, rfl, habove, hline⟩ := exists_lines before
  rw [ofSuffix?, byteLength_append, Nat.add_sub_cancel, List.append_assoc,
    atOffset?_append habove hline, after_append habove hline]

/-- The place at which a rest begins is the place behind what stands before
it. All other modules use positions through this equation and know nothing of
offsets. -/
theorem ofSuffix_append (before rest : List Char) :
    ofSuffix (before ++ rest) rest = after before := by
  rw [ofSuffix, ofSuffix?_append, Option.getD_some]

example : ofSuffix "a\n  bc\n".toList "bc\n".toList = ⟨2, 3⟩ := by decide +kernel

end Position

end BlockStyles.Text
