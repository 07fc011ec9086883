import BlockStyles.Proofs.Path.Relative

/-!
# `BlockStyles.Proofs.Path.Canonical`: paths that are normalized already

A path is canonical if no empty segment and no `.` is in it, and `..` only in front. Normalizing
makes every path canonical and leaves a canonical one as it is, so the canonical paths are those
that it leaves alone. Identifiers are normalized, and so they mean themselves when they are taken
for references: an identifier starts at the top, or at the root directory, which adds nothing if it
is the empty text.

* `isCanonical_normalize`, `normalize_of_isCanonical`: what normalizing makes, and what it leaves.
* `resolve_resolve`: an identifier is a reference to itself.
-/

set_option autoImplicit false

namespace BlockStyles.Path

open BlockStyles.Text

/-! ### Segments -/

/-- The path without the slash in front of it, if it starts at the top. -/
def belowTop (path : List Char) : List Char :=
  if isAbsolute path then path.tail else path

/-- The segments of a path: what stands between its slashes, the one in front of an
absolute path left out. A path that has nothing else in it has none. This differs from
cutting the path, which gives an empty piece in both of these cases. -/
def segmentsOf (path : List Char) : List (List Char) :=
  match belowTop path with
  | [] => []
  | c :: rest => pieces '/' (c :: rest)

/-- The path of segments, which starts at the top or does not. -/
def ofSegments (atTop : Bool) (segments : List (List Char)) : List Char :=
  if atTop then '/' :: ['/'].intercalate segments else ['/'].intercalate segments

variable {path : List Char} {segments names : List (List Char)}

/-- What normalizing makes of a path: the normalized segments, joined from the top if
the path is absolute. -/
theorem normalize_eq (path : List Char) :
    normalize path = ofSegments (isAbsolute path) (normalizeSegments (pieces '/' path)) :=
  rfl

/-- An absolute path has a slash in front, and behind it what is below the top.
Relative paths have no such slash, so the two kinds of paths are never the same text. -/
theorem eq_cons_belowTop (h : isAbsolute path) : path = '/' :: belowTop path := by
  rw [belowTop, if_pos h]
  obtain ⟨rest, rfl⟩ := List.head?_eq_some_iff.1 (beq_iff_eq.1 h)
  rfl

/-- The segments of a path are joined to what is below the top. Nothing is lost when a
path is cut. -/
theorem intercalate_segmentsOf (path : List Char) :
    ['/'].intercalate (segmentsOf path) = belowTop path := by
  unfold segmentsOf
  split
  · rename_i hnone
    rw [hnone]
    rfl
  · rename_i hsome
    rw [hsome, pieces_eq_splitOn, List.intercalate_splitOn]

/-- A path is made of its segments, and of the slash in front if it has one. Writing
the segments with slashes between them undoes the cutting. -/
theorem ofSegments_segmentsOf (path : List Char) :
    ofSegments (isAbsolute path) (segmentsOf path) = path := by
  rw [ofSegments, intercalate_segmentsOf]
  split
  · rename_i htop
    exact (eq_cons_belowTop htop).symm
  · rename_i htop
    exact if_neg htop

/-- No segment of a path has a slash in it, since a path is cut at its slashes. -/
theorem no_slash_of_mem_segmentsOf {segment : List Char} (h : segment ∈ segmentsOf path) :
    '/' ∉ segment := by
  unfold segmentsOf at h
  split at h
  · cases h
  · exact notMem_of_mem_pieces h

/-- Whether a path of segments starts at the top is seen at its first character. A
first segment that is empty would look like a slash in front. -/
theorem isAbsolute_ofSegments (atTop : Bool)
    (h : ∀ segment ∈ segments, segment ≠ [] ∧ '/' ∉ segment) :
    isAbsolute (ofSegments atTop segments) = atTop := by
  cases atTop with
  | true => rfl
  | false => exact Bool.eq_false_iff.2 (not_isAbsolute_intercalate h)

/-- Segments that have been joined are those of the path. They must be such that they
can be found again: none is empty, and there is no slash in them. -/
theorem segmentsOf_ofSegments (atTop : Bool)
    (h : ∀ segment ∈ segments, segment ≠ [] ∧ '/' ∉ segment) :
    segmentsOf (ofSegments atTop segments) = segments := by
  have hrest : belowTop (ofSegments atTop segments) = ['/'].intercalate segments := by
    rw [belowTop, isAbsolute_ofSegments atTop h]
    cases atTop <;> rfl
  unfold segmentsOf
  rw [hrest]
  cases segments with
  | nil => rfl
  | cons segment segments =>
    -- There is something below the top, so the path is cut rather than taken to have no
    -- segments.
    obtain ⟨c, rest, hjoined⟩ : ∃ c rest, ['/'].intercalate (segment :: segments) = c :: rest := by
      obtain ⟨c, rest, rfl⟩ := List.exists_cons_of_ne_nil (h segment List.mem_cons_self).1
      cases segments <;> exact ⟨c, _, rfl⟩
    have hpieces := pieces_intercalate (List.cons_ne_nil segment segments) fun s hs => (h s hs).2
    rw [hjoined] at hpieces ⊢
    exact hpieces

/-! ### Canonical paths -/

/-- There is no detour in the path. A `..` may stand in front, where there is nothing
that it could take away. -/
structure IsCanonical (path : List Char) : Prop where
  ne_nil : ∀ segment ∈ segmentsOf path, segment ≠ []
  ne_here : ∀ segment ∈ segmentsOf path, segment ≠ here
  up_first : ∃ above names, segmentsOf path = List.replicate above up ++ names ∧ up ∉ names

/-- Names lead down one after the other, so the place after them is the one before
them with all of them added. -/
theorem walk_names (place : List (List Char)) (h : ∀ name ∈ names, IsName name) :
    walk place names = place ++ names := by
  induction names generalizing place with
  | nil => exact (List.append_nil place).symm
  | cons name names ih =>
    obtain ⟨hname, hnames⟩ := List.forall_mem_cons.1 h
    rw [walk, List.foldl_cons, goAlong_of_isName hname]
    exact (ih _ hnames).trans (List.append_assoc place [name] names)

/-- None of them is a misstep, since a name is no `..`. A misstep is a `..` where
there is nothing left to go up from. -/
theorem missteps_names (place : List (List Char)) (h : ∀ name ∈ names, IsName name) :
    missteps place names = 0 := by
  induction names generalizing place with
  | nil => rfl
  | cons name names ih =>
    obtain ⟨hname, hnames⟩ := List.forall_mem_cons.1 h
    rw [missteps, if_neg fun hup => hname.ne_up hup.2, ih _ hnames]

/-- At the top each `..` is a misstep, and leads nowhere. So the next one is at the
top again. -/
theorem walk_up (above : Nat) :
    walk [] (List.replicate above up) = [] ∧ missteps [] (List.replicate above up) = above := by
  induction above with
  | zero => exact ⟨rfl, rfl⟩
  | succ above ih =>
    refine ⟨ih.1, ?_⟩
    rw [List.replicate_succ, missteps, if_pos ⟨rfl, rfl⟩]
    have hrest : missteps (goAlong [] up) (List.replicate above up) = above := ih.2
    rw [hrest, Nat.add_comm]

/-- Segments without a detour are left as they are. The `..` in front are all
missteps, which normalizing puts back in front, and the names are where the walk
leads. -/
theorem normalizeSegments_of_names (above : Nat) (h : ∀ name ∈ names, IsName name) :
    normalizeSegments (List.replicate above up ++ names) = List.replicate above up ++ names := by
  obtain ⟨hwalk, hmissteps⟩ := walk_up above
  rw [normalizeSegments_eq fun segment hsegment => (proper_of_mem h segment hsegment).2,
    walk_append, missteps_append, hwalk, hmissteps, walk_names _ h, missteps_names _ h]
  rfl

/-- It makes no difference to the segments of a path whether it starts at the top. The
piece ahead of a slash in front is empty, and empty segments are dropped. -/
theorem normalizeSegments_pieces (path : List Char) :
    normalizeSegments (pieces '/' path) = normalizeSegments (segmentsOf path) := by
  have hsegments : normalizeSegments (pieces '/' (belowTop path))
      = normalizeSegments (segmentsOf path) := by
    unfold segmentsOf
    split
    · rename_i hnone
      rw [hnone]
      rfl
    · rename_i hsome
      rw [hsome]
  rw [← hsegments]
  by_cases htop : isAbsolute path
  -- The slash in front makes an empty segment.
  · have hpieces : pieces '/' path = [] :: pieces '/' (belowTop path) := by
      rw [eq_cons_belowTop htop, pieces, if_pos (beq_self_eq_true _), ← eq_cons_belowTop htop]
    rw [hpieces]
    rfl
  · rw [belowTop, if_neg htop]

/-- A canonical path is left as it is. Its segments are `..` and then names, which
normalizing keeps, and a path is made of its segments. -/
theorem normalize_of_isCanonical (h : IsCanonical path) : normalize path = path := by
  obtain ⟨above, names, hsegments, hup⟩ := h.up_first
  have hnames : ∀ name ∈ names, IsName name := by
    intro name hname
    have hmem : name ∈ segmentsOf path := by
      rw [hsegments]
      exact List.mem_append_right _ hname
    exact ⟨h.ne_nil name hmem, h.ne_here name hmem, fun heq => hup (heq ▸ hname),
      no_slash_of_mem_segmentsOf hmem⟩
  rw [normalize_eq, normalizeSegments_pieces, hsegments, normalizeSegments_of_names above hnames,
    ← hsegments, ofSegments_segmentsOf]

/-- What normalizing makes of a path has the segments of the walk along it, behind a
`..` for each step above the top. They can be read off the text that is made, because
all of them are proper segments. -/
theorem segmentsOf_normalize (path : List Char) :
    segmentsOf (normalize path)
        = List.replicate (missteps [] (pieces '/' path)) up ++ walk [] (pieces '/' path)
      ∧ isAbsolute (normalize path) = isAbsolute path := by
  have hnames : ∀ name ∈ walk [] (pieces '/' path), IsName name :=
    isName_of_mem_walk nofun fun _ => notMem_of_mem_pieces
  rw [normalize_eq, normalizeSegments_eq fun _ => notMem_of_mem_pieces]
  exact ⟨segmentsOf_ofSegments _ (proper_of_mem hnames),
    isAbsolute_ofSegments _ (proper_of_mem hnames)⟩

/-- Normalizing makes a path canonical. Its segments are `..` and names, in this
order, so none is empty or a `.`, and no `..` stands behind a name. -/
theorem isCanonical_normalize (path : List Char) : IsCanonical (normalize path) := by
  obtain ⟨hsegments, -⟩ := segmentsOf_normalize path
  have hnames : ∀ name ∈ walk [] (pieces '/' path), IsName name :=
    isName_of_mem_walk nofun fun _ => notMem_of_mem_pieces
  refine ⟨fun segment hsegment => ?_, fun segment hsegment => ?_,
    _, _, hsegments, fun hup => (hnames up hup).ne_up rfl⟩
  -- For either of the first two properties a segment is one of the `..` in front or a name.
  all_goals
    rw [hsegments] at hsegment
    rcases List.mem_append.1 hsegment with hsegment | hsegment
  · rw [List.eq_of_mem_replicate hsegment]
    decide
  · exact (hnames segment hsegment).ne_nil
  · rw [List.eq_of_mem_replicate hsegment]
    decide
  · exact (hnames segment hsegment).ne_here

/-! ### Identifiers -/

/-- Every identifier is canonical, since the last thing that is done to it is to
normalize it. -/
theorem isCanonical_resolve (referrer : Option String) (reference root : String) :
    IsCanonical (resolve referrer reference root).toList := by
  rw [resolve, String.toList_ofList]
  exact isCanonical_normalize _

/-- With an empty root directory, a canonical path is a reference to itself. There is
no referrer, so it is joined to the empty text, which adds nothing. -/
theorem resolve_of_isCanonical {identifier : String} (h : IsCanonical identifier.toList) :
    resolve none identifier "" = identifier := by
  have hbase : base none identifier.toList [] = [] := by
    simp [base]
  rw [resolve, Option.map_none, String.toList_empty, hbase, join, normalize_of_isCanonical h,
    String.ofList_toList]

/-- An identifier is a reference to itself, whatever reference it came from. So a file
that has been imported can be asked for by its identifier. -/
theorem resolve_resolve (referrer : Option String) (reference root : String) :
    resolve none (resolve referrer reference root) "" = resolve referrer reference root :=
  resolve_of_isCanonical (isCanonical_resolve referrer reference root)

end BlockStyles.Path
