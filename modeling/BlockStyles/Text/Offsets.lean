/-!
# `BlockStyles.Text.Offsets`: places in a text, counted in bytes

An offset says how many bytes of its UTF-8 form a text has before a place. A
character may take several bytes, and at an offset inside one a text cannot be
cut. Where lines begin is found by looking for the line breaks once; the line of
an offset is then searched for by halving.

* `slice?_append`: what stands between two places, from their offsets.
* `partitionPoint_append`: the search finds where the front of the entries ends.
* `lineStarts_append`: the lines of a text are those of its front and those that
  begin behind it.
-/

set_option autoImplicit false

namespace BlockStyles.Text

/-! ### Bytes -/

/-- How many bytes a text takes in UTF-8. -/
def byteLength : List Char → Nat
  | [] => 0
  | c :: text => c.utf8Size + byteLength text

/-- An empty text takes no bytes. -/
@[simp]
theorem byteLength_nil : byteLength [] = 0 := rfl

/-- The bytes of a text are those of its first character and those of the
rest. -/
@[simp]
theorem byteLength_cons (c : Char) (text : List Char) :
    byteLength (c :: text) = c.utf8Size + byteLength text := rfl

/-- The bytes of two texts together are those of the one and those of the
other. By this the offset of a place is the length of what stands in front of
it. -/
@[simp]
theorem byteLength_append (front rest : List Char) :
    byteLength (front ++ rest) = byteLength front + byteLength rest := by
  induction front with
  | nil => simp
  | cons c front ih => rw [List.cons_append, byteLength_cons, byteLength_cons, ih, Nat.add_assoc]

/-- The part of a text before an offset and the part from there on. There is
none inside a character or behind the end. -/
def cutBytes? : Nat → List Char → Option (List Char × List Char)
  | 0, text => some ([], text)
  | _ + 1, [] => none
  | bytes + 1, c :: text =>
    if c.utf8Size ≤ bytes + 1 then
      (cutBytes? (bytes + 1 - c.utf8Size) text).map fun (front, rest) => (c :: front, rest)
    else
      none

/-- The text from one offset to another, if they are places in it in this order. -/
def slice? (text : List Char) (start stop : Nat) : Option (List Char) :=
  if start ≤ stop then do
    let (_, behind) ← cutBytes? start text
    let (between, _) ← cutBytes? (stop - start) behind
    return between
  else
    none

/-- At the offset behind a front part the text is cut into that part and the
rest. Both ends of a slice are found this way. -/
theorem cutBytes?_append (front rest : List Char) :
    cutBytes? (byteLength front) (front ++ rest) = some (front, rest) := by
  induction front with
  | nil => rw [byteLength_nil, List.nil_append, cutBytes?]
  | cons c front ih =>
    -- A character takes at least a byte, so the offset is not used up before it.
    obtain ⟨bytes, hbytes⟩ : ∃ bytes, c.utf8Size + byteLength front = bytes + 1 :=
      ⟨c.utf8Size + byteLength front - 1, by have := c.utf8Size_pos; omega⟩
    rw [byteLength_cons, hbytes, List.cons_append, cutBytes?, if_pos (by omega), ← hbytes,
      Nat.add_sub_cancel_left, ih]
    rfl

/-- What stands between two places is cut out by their offsets. In a text
that is given by its three parts, the offsets are lengths of fronts, so they
never fall inside a character. -/
theorem slice?_append (front between rest : List Char) :
    slice? (front ++ (between ++ rest)) (byteLength front) (byteLength (front ++ between))
      = some between := by
  have hbetween : byteLength (front ++ between) - byteLength front = byteLength between := by
    rw [byteLength_append, Nat.add_sub_cancel_left]
  rw [slice?, if_pos (by rw [byteLength_append]; omega), hbetween, cutBytes?_append]
  simp only [Option.bind_eq_bind, Option.bind_some, cutBytes?_append]
  rfl

example : slice? "aéb".toList 1 3 = some ['é'] := by decide
example : slice? "aéb".toList 1 2 = none := by decide

/-! ### Searching by halves -/

/-- The place between `low` and `high` where the entries that satisfy `p` end,
for entries of which those that do stand in front of those that do not. -/
def partitionPoint (p : Nat → Bool) (entries : List Nat) (low high : Nat) : Nat :=
  if low < high then
    let middle := (low + high) / 2
    if entries[middle]?.any p then
      partitionPoint p entries (middle + 1) high
    else
      partitionPoint p entries low middle
  else
    low
termination_by high - low

/-- For entries of which a front part satisfies `p` and the rest does not,
the search ends between the two. Wherever it asks, the answer says only
whether the place asked for lies in the front, so the bounds close in on the
length of the front from both sides. -/
theorem partitionPoint_append {p : Nat → Bool} {front back : List Nat}
    (hfront : ∀ entry ∈ front, p entry = true) (hback : ∀ entry ∈ back, p entry = false)
    {low high : Nat} (hlow : low ≤ front.length) (hhigh : front.length ≤ high) :
    partitionPoint p (front ++ back) low high = front.length := by
  -- What is asked at the middle is whether it lies in the front.
  have hask : ∀ middle, ((front ++ back)[middle]?.any p) = decide (middle < front.length) := by
    intro middle
    by_cases hmiddle : middle < front.length
    · rw [List.getElem?_append_left hmiddle, List.getElem?_eq_getElem hmiddle, Option.any_some,
        hfront _ (List.getElem_mem hmiddle), decide_eq_true hmiddle]
    · rw [List.getElem?_append_right (Nat.le_of_not_lt hmiddle), decide_eq_false hmiddle]
      cases hentry : back[middle - front.length]? with
      | none => rfl
      | some entry => exact hback entry (List.mem_of_getElem? hentry)
  fun_induction partitionPoint p (front ++ back) low high with
  | case1 low high hlt middle hpoint ih =>
    rw [hask, decide_eq_true_eq] at hpoint
    exact ih hpoint hhigh
  | case2 low high hlt middle hpoint ih =>
    rw [hask, decide_eq_true_eq] at hpoint
    exact ih hlow (Nat.le_of_not_lt hpoint)
  | case3 low high hlt => omega

/-! ### Lines -/

/-- The offsets right behind the line breaks of a text that begins at `offset`. -/
def breaks (offset : Nat) : List Char → List Nat
  | [] => []
  | c :: text =>
    if c == '\n' then
      (offset + c.utf8Size) :: breaks (offset + c.utf8Size) text
    else
      breaks (offset + c.utf8Size) text

/-- The offsets at which the lines of a text begin. -/
def lineStarts (text : List Char) : List Nat :=
  0 :: breaks 0 text

/-- The line breaks of two texts together are those of the first one and
those of the second one, which begins further behind by the bytes of the
first. -/
theorem breaks_append (offset : Nat) (front rest : List Char) :
    breaks offset (front ++ rest)
      = breaks offset front ++ breaks (offset + byteLength front) rest := by
  induction front generalizing offset with
  | nil => rfl
  | cons c front ih =>
    simp only [List.cons_append, breaks, ih, byteLength_cons, Nat.add_assoc]
    split <;> rfl

/-- The lines that begin in a text are those that begin in its front, the
first line among them, and those that begin behind a break of its rest. -/
theorem lineStarts_append (front rest : List Char) :
    lineStarts (front ++ rest) = lineStarts front ++ breaks (byteLength front) rest := by
  rw [lineStarts, lineStarts, breaks_append, Nat.zero_add, List.cons_append]

/-- There is one offset for each line break. So the number of a line is the
number of breaks in front of it, and one more. -/
theorem length_breaks (offset : Nat) (text : List Char) :
    (breaks offset text).length = text.count '\n' := by
  induction text generalizing offset with
  | nil => rfl
  | cons c text ih =>
    rw [breaks, List.count_cons]
    split
    · rw [List.length_cons, ih]
    · rw [ih, Nat.add_zero]

/-- There is one line more than there are line breaks. -/
theorem length_lineStarts (text : List Char) :
    (lineStarts text).length = text.count '\n' + 1 := by
  rw [lineStarts, List.length_cons, length_breaks]

/-- A text without line breaks has no offsets of any. -/
theorem breaks_eq_nil {line : List Char} (h : '\n' ∉ line) (offset : Nat) :
    breaks offset line = [] := by
  rw [← List.length_eq_zero_iff, length_breaks, List.count_eq_zero]
  exact h

/-- A stretch without line breaks begins no line, so with it in the middle
only what stands in front and what stands behind count. The bytes of the
stretch move the lines behind it. -/
theorem lineStarts_append_line (above : List Char) {line : List Char} (hline : '\n' ∉ line)
    (rest : List Char) :
    lineStarts (above ++ (line ++ rest))
      = lineStarts above ++ breaks (byteLength (above ++ line)) rest := by
  rw [lineStarts_append, breaks_append, breaks_eq_nil hline, List.nil_append, byteLength_append]

/-- Line breaks lie inside the text that they are found in: behind its first
character and not behind its end. The first bound is strict because a break
takes a byte itself. -/
theorem bounds_of_mem_breaks {offset start : Nat} {text : List Char}
    (h : start ∈ breaks offset text) : offset < start ∧ start ≤ offset + byteLength text := by
  induction text generalizing offset with
  | nil => cases h
  | cons c text ih =>
    have hsize := c.utf8Size_pos
    rw [byteLength_cons]
    have hbehind : start = offset + c.utf8Size ∨ start ∈ breaks (offset + c.utf8Size) text := by
      rw [breaks] at h
      split at h
      · exact List.mem_cons.1 h
      · exact .inr h
    rcases hbehind with rfl | hmem
    · omega
    · have := ih hmem
      omega

/-- No line of a text begins behind its end. The last line may be empty, and
then it begins at the end. -/
theorem le_of_mem_lineStarts {start : Nat} {text : List Char} (h : start ∈ lineStarts text) :
    start ≤ byteLength text := by
  rcases List.mem_cons.1 h with rfl | hmem
  · exact Nat.zero_le _
  · have := (bounds_of_mem_breaks hmem).2
    omega

/-- Of the lines of a text, those that begin at an offset or before it are
found by halving. The offset is the one behind `above` and a stretch without
breaks, so these lines are the ones of `above`, and every line that begins in
the rest begins further behind. -/
theorem partitionPoint_lineStarts (above : List Char) {line : List Char} (hline : '\n' ∉ line)
    (rest : List Char) :
    partitionPoint (· ≤ byteLength (above ++ line)) (lineStarts (above ++ (line ++ rest))) 0
      (lineStarts (above ++ (line ++ rest))).length = (lineStarts above).length := by
  rw [lineStarts_append_line above hline]
  refine partitionPoint_append (fun start hstart => ?_) (fun start hstart => ?_)
    (Nat.zero_le _) (by rw [List.length_append]; omega)
  · have hle := le_of_mem_lineStarts hstart
    rw [byteLength_append]
    exact decide_eq_true (by omega)
  · have hlt := (bounds_of_mem_breaks hstart).1
    exact decide_eq_false (by omega)

/-- A text of whole lines: it is empty or ends with a line break. -/
def IsLines (text : List Char) : Prop :=
  text = [] ∨ ∃ front, text = front ++ ['\n']

/-- Behind whole lines the next line begins: it is found under the number of
the breaks so far, and its offset is the length of these lines. -/
theorem getElem?_lineStarts {above : List Char} (h : IsLines above) (rest : List Char) :
    (lineStarts (above ++ rest))[above.count '\n']? = some (byteLength above) := by
  rw [lineStarts_append, List.getElem?_append_left (by rw [length_lineStarts]; omega)]
  rcases h with rfl | ⟨front, rfl⟩
  · rfl
  · have hplace : (front ++ ['\n']).count '\n' = (lineStarts front).length := by
      rw [length_lineStarts, List.count_append]
      rfl
    rw [lineStarts_append, hplace, List.getElem?_append_right (Nat.le_refl _), Nat.sub_self,
      byteLength_append]
    rfl

/-- Every text is its whole lines and the line that it ends in, which may be
empty. There is no other way to cut it like this, but only this one is
needed. -/
theorem exists_lines (text : List Char) :
    ∃ above line, text = above ++ line ∧ IsLines above ∧ '\n' ∉ line := by
  induction text with
  | nil => exact ⟨[], [], rfl, .inl rfl, List.not_mem_nil⟩
  | cons c text ih =>
    obtain ⟨above, line, rfl, habove, hline⟩ := ih
    rcases habove with rfl | ⟨front, rfl⟩
    · by_cases hc : c = '\n'
      · exact ⟨[c], line, rfl, .inr ⟨[], by rw [hc, List.nil_append]⟩, hline⟩
      · refine ⟨[], c :: line, rfl, .inl rfl, fun hmem => ?_⟩
        rcases List.mem_cons.1 hmem with h | h
        · exact hc h.symm
        · exact hline h
    · exact ⟨c :: (front ++ ['\n']), line, rfl, .inr ⟨c :: front, rfl⟩, hline⟩

end BlockStyles.Text
