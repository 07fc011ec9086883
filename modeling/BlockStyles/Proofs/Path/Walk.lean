import BlockStyles.Path

/-!
# `BlockStyles.Proofs.Path.Walk`: walks through directories

A path is a walk: its segments are gone along one after the other, from a place that is given by
the names of the directories above it. At the top there is no way up. Normalizing a path is such a
walk from the top, which besides keeps account of the steps that were to lead above it: each of
them is left in front as a `..`.

* `pieces_append`, `pieces_intercalate`: cutting a path at its slashes, and joining it again.
* `normalizeSegments_eq`: what normalizing makes of segments, in terms of the walk along them.
* `isName_of_mem_walk`: a walk leads to a place that is given by names.
-/

set_option autoImplicit false

namespace BlockStyles

/-! ### Pieces -/

namespace Text

variable {separator : Char}

/-- The pieces of a text are those of the general way to split a list. So what is
known about splitting and joining lists need not be shown again for pieces. -/
theorem pieces_eq_splitOn (separator : Char) (text : List Char) :
    pieces separator text = text.splitOn separator := by
  induction text with
  | nil => rfl
  | cons c rest ih =>
    rw [pieces, List.splitOn_cons_eq_if_modifyHead, ih]
    split
    · rfl
    -- Both functions put the character in front of the first piece, of which there always
    -- is one.
    · cases hrest : rest.splitOn separator with
      | nil => exact absurd hrest (List.splitOn_ne_nil _ _)
      | cons piece more => rfl

/-- A text without a separator is one piece. The name of a file is such a text. -/
theorem pieces_of_notMem {text : List Char} (h : separator ∉ text) :
    pieces separator text = [text] := by
  rw [pieces_eq_splitOn, List.splitOn_eq_singleton h]

/-- A text is cut at each of its separators on its own. So the segments of a directory
and those of what stands behind it follow each other. -/
theorem pieces_append (before after : List Char) :
    pieces separator (before ++ separator :: after)
      = pieces separator before ++ pieces separator after := by
  simp only [pieces_eq_splitOn, List.splitOn_append_cons_self]

/-- No piece has a separator in it. This is what makes a segment fit to be a name. The
induction is on the text; a separator begins a new piece and goes into none. -/
theorem notMem_of_mem_pieces {text piece : List Char} (h : piece ∈ pieces separator text) :
    separator ∉ piece := by
  induction text generalizing piece with
  | nil =>
    cases List.mem_singleton.1 h
    exact List.not_mem_nil
  | cons c rest ih =>
    rw [pieces] at h
    split at h
    · rcases List.mem_cons.1 h with rfl | h
      · exact List.not_mem_nil
      · exact ih h
    · rename_i hc
      have hne : separator ≠ c := fun heq => hc (beq_iff_eq.2 heq.symm)
      -- The character goes to the first piece. It is no separator, and the hypothesis
      -- speaks of the rest of that piece.
      cases hrest : pieces separator rest with
      | nil => exact absurd hrest (pieces_ne_nil separator rest)
      | cons first more =>
        rw [hrest] at h
        rcases List.mem_cons.1 h with rfl | h
        · exact List.not_mem_cons_of_ne_of_not_mem hne (ih (hrest ▸ List.mem_cons_self))
        · exact ih (hrest ▸ List.mem_cons_of_mem _ h)

/-- Pieces that have been joined are found again, if no separator was in them. There
has to be a piece: the text that is joined from none is one empty piece. -/
theorem pieces_intercalate {parts : List (List Char)} (hne : parts ≠ [])
    (h : ∀ part ∈ parts, separator ∉ part) :
    pieces separator ([separator].intercalate parts) = parts := by
  rw [pieces_eq_splitOn, List.splitOn_intercalate separator h hne]

end Text

/-! ### Walks -/

namespace Path

open BlockStyles.Text

/-- A segment that names a file or a directory. These are the segments that a place is
given by: going along one leads down, and none of them can be cut once more. -/
structure IsName (segment : List Char) : Prop where
  ne_nil : segment ≠ []
  ne_here : segment ≠ here
  ne_up : segment ≠ up
  no_slash : '/' ∉ segment

/-- Neither a `..` nor a name is empty or has a slash in it. So a normalized path can
be joined from its segments and cut into them again. -/
theorem proper_of_mem {above : Nat} {names : List (List Char)} (h : ∀ name ∈ names, IsName name) :
    ∀ segment ∈ List.replicate above up ++ names, segment ≠ [] ∧ '/' ∉ segment := by
  intro segment hsegment
  rcases List.mem_append.1 hsegment with hsegment | hsegment
  · rw [List.eq_of_mem_replicate hsegment]
    decide
  · exact ⟨(h segment hsegment).ne_nil, (h segment hsegment).no_slash⟩

/-- The place after one segment: `..` leads to the directory above, and at the top
nowhere. Empty segments and `.` lead nowhere at all. -/
def goAlong (place : List (List Char)) (segment : List Char) : List (List Char) :=
  if segment = [] ∨ segment = here then place
  else if segment = up then place.dropLast
  else place ++ [segment]

/-- The place after all segments of a path. -/
def walk (place segments : List (List Char)) : List (List Char) :=
  segments.foldl goAlong place

/-- How many segments on the way are to lead above the top. Going on from there, the
place is still the top, so a name behind them counts from it. -/
def missteps (place : List (List Char)) : List (List Char) → Nat
  | [] => 0
  | segment :: rest =>
    (if place = [] ∧ segment = up then 1 else 0) + missteps (goAlong place segment) rest

variable {place segments : List (List Char)} {segment : List Char}

/-- The way along two paths is the way along the first and then, from the place it
leads to, along the second. -/
theorem walk_append (place segments more : List (List Char)) :
    walk place (segments ++ more) = walk (walk place segments) more :=
  List.foldl_append

/-- Missteps on the way along two paths are those along the first, and those along the
second from the place that the first leads to. -/
theorem missteps_append (place segments more : List (List Char)) :
    missteps place (segments ++ more)
      = missteps place segments + missteps (walk place segments) more := by
  -- A step of the first path changes the place from which the rest is counted.
  induction segments generalizing place with
  | nil => simp [missteps, walk]
  | cons segment segments ih =>
    rw [List.cons_append, missteps, missteps, ih, Nat.add_assoc]
    rfl

/-- A name leads down into the directory, or to the file, that has it. The other
segments are the empty one and `.`, which stay, and `..`, which goes up. -/
theorem goAlong_of_isName (h : IsName segment) : goAlong place segment = place ++ [segment] := by
  rw [goAlong, if_neg (not_or.2 ⟨h.ne_nil, h.ne_here⟩), if_neg h.ne_up]

/-- Empty segments lead nowhere. They stand between slashes that follow each other,
and at the end of a path with a slash there. -/
theorem walk_replicate_nil (place : List (List Char)) (n : Nat) :
    walk place (List.replicate n []) = place := by
  induction n with
  | zero => rfl
  | succ n ih => exact ih

/-- Empty segments are no missteps, wherever they are met. They come about where two
separators follow each other. -/
theorem missteps_replicate_nil (place : List (List Char)) (n : Nat) :
    missteps place (List.replicate n []) = 0 := by
  induction n with
  | zero => rfl
  | succ n ih =>
    rw [List.replicate_succ, missteps, if_neg fun h => nomatch h.2]
    exact (Nat.zero_add _).trans ih

/-- One step keeps names, and takes no others than that of the segment. A segment that
is added is neither empty nor one of the two that have a meaning of their own, since
those cases come first. -/
theorem isName_of_mem_goAlong (hplace : ∀ name ∈ place, IsName name) (hsegment : '/' ∉ segment) :
    ∀ name ∈ goAlong place segment, IsName name := by
  intro name hname
  unfold goAlong at hname
  split at hname
  · exact hplace name hname
  · rename_i hplain
    split at hname
    · exact hplace name (List.dropLast_subset _ hname)
    · rename_i hup
      rcases List.mem_append.1 hname with hname | hname
      · exact hplace name hname
      · cases List.mem_singleton.1 hname
        exact ⟨fun h => hplain (.inl h), fun h => hplain (.inr h), hup, hsegment⟩

/-- A walk leads to a place that is given by names, from any such place. The segments
need only be without slashes, as those that are cut from a path are. -/
theorem isName_of_mem_walk (hplace : ∀ name ∈ place, IsName name)
    (hsegments : ∀ segment ∈ segments, '/' ∉ segment) :
    ∀ name ∈ walk place segments, IsName name := by
  induction segments generalizing place with
  | nil => exact hplace
  | cons segment segments ih =>
    obtain ⟨hsegment, hsegments⟩ := List.forall_mem_cons.1 hsegments
    exact ih (isName_of_mem_goAlong hplace hsegment) hsegments

/-! ### Normalizing -/

/-- The innermost segment comes first while a path is normalized, and the `..` that
lead above the top are the outermost of all. A step adds one more of them or goes
along. The names of the place have to be names: a `..` among them would be taken for
one of those in front. -/
theorem enter_reverse (above : Nat) (hplace : ∀ name ∈ place, IsName name)
    (segment : List Char) :
    enter (List.replicate above up ++ place).reverse segment
      = (List.replicate (above + if place = [] ∧ segment = up then 1 else 0) up
          ++ goAlong place segment).reverse := by
  unfold enter goAlong
  by_cases hplain : segment = [] ∨ segment = here
  · have hup : ¬ (place = [] ∧ segment = up) := by
      rintro ⟨-, rfl⟩
      exact absurd hplain (by decide)
    rw [if_pos hplain, if_pos hplain, if_neg hup, Nat.add_zero]
  · rw [if_neg hplain, if_neg hplain]
    rcases List.eq_nil_or_concat place with rfl | ⟨outer, last, rfl⟩
    -- At the top, what is innermost is a `..`, if there is anything.
    · by_cases hup : segment = up
      · rw [if_pos hup, if_pos ⟨rfl, hup⟩, List.dropLast_nil, List.append_nil, List.append_nil,
          List.reverse_replicate, List.reverse_replicate, hup]
        cases above <;> rfl
      · cases above <;> simp [hup, List.replicate_succ, ← List.replicate_succ']
    -- Below the top what is innermost is a name, so that a `..` takes it away.
    · have hlast : last ≠ up := (hplace last (by simp)).ne_up
      by_cases hup : segment = up <;> simp [hup, hlast]

/-- The steps together: the list that normalizing keeps is the place of the walk,
behind a `..` for each misstep. That holds from every such list on, which the
induction needs, since each step changes it. -/
theorem foldl_enter (above : Nat) (hplace : ∀ name ∈ place, IsName name)
    (hsegments : ∀ segment ∈ segments, '/' ∉ segment) :
    segments.foldl enter (List.replicate above up ++ place).reverse
      = (List.replicate (above + missteps place segments) up ++ walk place segments).reverse := by
  induction segments generalizing above place with
  | nil => rfl
  | cons segment segments ih =>
    obtain ⟨hsegment, hsegments⟩ := List.forall_mem_cons.1 hsegments
    rw [List.foldl_cons, enter_reverse above hplace,
      ih _ (isName_of_mem_goAlong hplace hsegment) hsegments, missteps, Nat.add_assoc]
    rfl

/-- Normalizing is a walk from the top, with a `..` in front for every step that was
to lead above it. All that is said about normalized paths rests on this. -/
theorem normalizeSegments_eq (h : ∀ segment ∈ segments, '/' ∉ segment) :
    normalizeSegments segments
      = List.replicate (missteps [] segments) up ++ walk [] segments := by
  have htop : ∀ name ∈ ([] : List (List Char)), IsName name := nofun
  have hwalk := foldl_enter 0 htop h
  rw [List.replicate_zero, List.append_nil, List.reverse_nil, Nat.zero_add] at hwalk
  rw [normalizeSegments, hwalk, List.reverse_reverse]

end Path

end BlockStyles
