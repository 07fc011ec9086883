import BlockStyles.Proofs.Path.Walk
import BlockStyles.Proofs.Text.Identifiers

/-!
# `BlockStyles.Proofs.Path.Relative`: where relative references lead

From an absolute file a relative reference leads to a place: along its segments, from the place of
the directory that holds the file. The identifier of that place is its path from the top, whatever
the file and the reference are spelled like, under two conditions. The walk must not be meant to
lead above the top, since a `..` that does so is kept in front. And the directory of the file must
not be spelled as the empty text, since then no directory is put in front of the reference and its
identifier is no absolute path.

* `exists_join_eq`, `walk_join`: what is read off the spelling of a joined path, and where it leads.
* `toList_resolve`: the identifier of a relative reference from an absolute file.
* `resolve_eq_absolute_iff`: it is the path of the place just if the two conditions hold.
* `resolve_relative`: then only the place matters, and not the spelling of the file.
-/

set_option autoImplicit false

namespace BlockStyles.Path

open BlockStyles.Text

/-! ### Joined segments -/

variable {parts segments : List (List Char)}

/-- Segments that have been joined are the parts of the path that are not empty. With
the empty parts left out this holds of no segments at all, too, of which the joined
path is one empty part. -/
theorem filter_pieces_intercalate (h : ∀ part ∈ parts, part ≠ [] ∧ '/' ∉ part) :
    (pieces '/' (['/'].intercalate parts)).filter (· ≠ []) = parts := by
  cases parts with
  | nil => rfl
  | cons part parts =>
    rw [pieces_intercalate (List.cons_ne_nil _ _) fun p hp => (h p hp).2, List.filter_eq_self]
    exact fun p hp => decide_eq_true (h p hp).1

/-- A path that is joined from segments starts with the first of them. No segment has
a slash in it, and none is empty, so the path does not start with a slash. -/
theorem not_isAbsolute_intercalate (h : ∀ part ∈ parts, part ≠ [] ∧ '/' ∉ part) :
    ¬ isAbsolute (['/'].intercalate parts) := by
  cases parts with
  | nil => simp [isAbsolute]
  | cons part parts =>
    obtain ⟨⟨hne, hslash⟩, -⟩ := List.forall_mem_cons.1 h
    obtain ⟨c, rest, rfl⟩ := List.exists_cons_of_ne_nil hne
    have hc : c ≠ '/' := fun heq => hslash (heq ▸ List.mem_cons_self)
    cases parts <;> simp [isAbsolute, hc]

/-! ### Directories -/

/-- The directory of a file is what stands in front of its last slash. That slash is
the last one because there is none in the name. -/
theorem directory_append (before : List Char) {name : List Char} (h : '/' ∉ name) :
    directory (before ++ '/' :: name) = before := by
  rw [directory, splitLast_append before h]

/-- An absolute file is its directory, a slash and a name. It has a slash, which is
its first character or a later one. -/
theorem exists_name {file : List Char} (h : isAbsolute file) :
    ∃ name, file = directory file ++ '/' :: name ∧ '/' ∉ name := by
  have hslash : '/' ∈ file.reverse :=
    List.mem_reverse.2 (List.mem_of_mem_head? (beq_iff_eq.1 h))
  -- Seen from behind, the last slash is the first one.
  obtain ⟨after, before, hfile, hname⟩ := List.eq_append_cons_of_mem hslash
  have hsplit : file = before.reverse ++ '/' :: after.reverse := by
    simpa using congrArg List.reverse hfile
  have hname' : '/' ∉ after.reverse := by simpa using hname
  refine ⟨after.reverse, ?_, hname'⟩
  rw [hsplit, directory_append _ hname']

/-- The directory of an absolute file is an absolute path or the empty text. It is the
empty text if the slash in front is the only one. -/
theorem isAbsolute_directory {file : List Char} (h : isAbsolute file)
    (hne : directory file ≠ []) : isAbsolute (directory file) := by
  obtain ⟨name, hfile, -⟩ := exists_name h
  obtain ⟨c, rest, hdirectory⟩ := List.exists_cons_of_ne_nil hne
  rw [hfile, hdirectory] at h
  rw [hdirectory]
  exact h

/-- A relative reference starts with a point, so it is no absolute path. So it is
joined to the directory of the file that refers, and does not replace it. -/
theorem not_isAbsolute_of_isRelative {reference : List Char} (h : isRelative reference) :
    ¬ isAbsolute reference := by
  cases reference with
  | nil => cases h
  | cons c rest =>
    have hpoint : c = '.' := by
      simp only [isRelative, Bool.or_eq_true, List.isPrefixOf, Bool.and_eq_true, beq_iff_eq] at h
      rcases h with h | h <;> exact h.1.symm
    subst hpoint
    simp [isAbsolute]

/-! ### Joining a directory and a reference -/

/-- Slashes alone are cut into empty segments, of which there is one more than
slashes. -/
theorem pieces_replicate (n : Nat) :
    pieces '/' (List.replicate n '/') = List.replicate (n + 1) [] := by
  induction n with
  | zero => rfl
  | succ n ih => rw [List.replicate_succ, pieces, if_pos (beq_self_eq_true _), ih]; rfl

/-- A directory ends with some slashes, which are taken off when it is joined with a
reference. There may be none of them, and the directory may be nothing but slashes. -/
theorem exists_join_eq {directory : List Char} (hne : directory ≠ []) (reference : List Char) :
    ∃ trimmed n, directory = trimmed ++ List.replicate n '/'
      ∧ join directory reference = trimmed ++ '/' :: reference := by
  have hslashes : directory.reverse.takeWhile (· == '/')
      = List.replicate (directory.reverse.takeWhile (· == '/')).length '/' := by
    refine List.eq_replicate_iff.2 ⟨rfl, fun c hc => ?_⟩
    exact beq_iff_eq.1 (List.all_eq_true.1 List.all_takeWhile c hc)
  refine ⟨(directory.reverse.dropWhile (· == '/')).reverse,
    (directory.reverse.takeWhile (· == '/')).length, ?_, ?_⟩
  · have hwhole := congrArg List.reverse
      (List.takeWhile_append_dropWhile (p := (· == '/')) (l := directory.reverse))
    rw [List.reverse_append, List.reverse_reverse, hslashes, List.reverse_replicate] at hwhole
    simpa using hwhole.symm
  · unfold join
    split
    · exact absurd rfl hne
    · rfl

/-- The way along a reference below a directory is that along the directory and then
along the reference. The slashes that are taken off in between would have led nowhere,
and the empty directory is where every walk starts. -/
theorem walk_join (directory reference : List Char) :
    walk [] (pieces '/' (join directory reference))
        = walk (walk [] (pieces '/' directory)) (pieces '/' reference)
      ∧ missteps [] (pieces '/' (join directory reference))
        = missteps [] (pieces '/' directory ++ pieces '/' reference) := by
  by_cases hne : directory = []
  · subst hne
    refine ⟨rfl, ?_⟩
    rw [missteps_append]
    exact (Nat.zero_add _).symm
  · obtain ⟨trimmed, n, hdirectory, hjoin⟩ := exists_join_eq hne reference
    -- The slashes at the end of the directory make empty segments.
    obtain ⟨m, hpieces⟩ : ∃ m, pieces '/' directory
        = pieces '/' trimmed ++ List.replicate m [] := by
      cases n with
      | zero => exact ⟨0, by simp [hdirectory]⟩
      | succ n => exact ⟨n + 1, by
          rw [hdirectory, List.replicate_succ, pieces_append, pieces_replicate]⟩
    simp only [hjoin, pieces_append, hpieces, walk_append, missteps_append, walk_replicate_nil,
      missteps_replicate_nil, Nat.add_zero, and_self]

/-- A reference below an absolute directory is an absolute path. If all of the
directory is taken off, the slash that joins them is in front. -/
theorem isAbsolute_join {directory : List Char} (hne : directory ≠ [])
    (h : isAbsolute directory) (reference : List Char) : isAbsolute (join directory reference) := by
  obtain ⟨trimmed, n, hdirectory, hjoin⟩ := exists_join_eq hne reference
  rw [hjoin]
  cases trimmed with
  | nil => rfl
  | cons c rest =>
    rw [hdirectory] at h
    exact h

/-! ### Relative references -/

/-- The place of a relative reference in a file. The file takes part with its
directory only. -/
def target (file reference : String) : List (List Char) :=
  walk (walk [] (pieces '/' (directory file.toList))) (pieces '/' reference.toList)

/-- How many steps on the way to that place are to lead above the top. They are
counted from the top on, so a `..` in the directory of the file can be one of them. -/
def overshoot (file reference : String) : Nat :=
  missteps [] (pieces '/' (directory file.toList) ++ pieces '/' reference.toList)

/-- The path of a place from the top. -/
def absolute (place : List (List Char)) : String :=
  .ofList ('/' :: ['/'].intercalate place)

/-- The way to the place of a reference starts at a directory that is spelled out, and it does not
lead above the top. -/
structure StaysBelow (file reference : String) : Prop where
  spelled : directory file.toList ≠ []
  below : overshoot file reference = 0

/-- The path ends with the name of a file, and with no slash or `.` behind it. -/
def NamesFile (file : String) : Prop :=
  ∃ name, IsName name ∧ file.toList = directory file.toList ++ '/' :: name

/-- Two spellings of a file: their ways from the top lead to one place. -/
structure SameFile (file other : String) : Prop where
  names : NamesFile file
  names' : NamesFile other
  place : walk [] (pieces '/' file.toList) = walk [] (pieces '/' other.toList)

variable {file other reference : String}

/-- The place of a reference is given by names, since it is where a walk leads. -/
theorem isName_of_mem_target : ∀ name ∈ target file reference, IsName name :=
  isName_of_mem_walk (isName_of_mem_walk (by simp) fun _ => notMem_of_mem_pieces)
    fun _ => notMem_of_mem_pieces

/-- The identifier of a relative reference: the path of its place, behind a `..` for
each step that was to lead above the top, and absolute unless the directory of the
file is the empty text. The root directory plays no part, as the reference has a file
to start from. -/
theorem toList_resolve (root : String) (hfile : isAbsolute file.toList)
    (hreference : isRelative reference.toList) :
    (resolve (some file) reference root).toList
      = (if directory file.toList = [] then [] else ['/'])
        ++ ['/'].intercalate
          (List.replicate (overshoot file reference) up ++ target file reference) := by
  obtain ⟨hwalk, hmissteps⟩ := walk_join (directory file.toList) reference.toList
  have hbase : base (some file.toList) reference.toList root.toList = directory file.toList := by
    simp [base, hreference]
  have hsegments : normalizeSegments (pieces '/' (join (directory file.toList) reference.toList))
      = List.replicate (overshoot file reference) up ++ target file reference := by
    rw [normalizeSegments_eq fun _ => notMem_of_mem_pieces, hwalk, hmissteps]
    rfl
  rw [resolve, String.toList_ofList, Option.map_some, hbase, normalize, hsegments]
  -- With a directory the joined path is absolute as the directory is. Without one it is the
  -- reference, which is not.
  by_cases hempty : directory file.toList = []
  · have hrelative : ¬ isAbsolute (join (directory file.toList) reference.toList) := by
      rw [hempty]
      exact not_isAbsolute_of_isRelative hreference
    rw [if_neg hrelative, if_pos hempty, List.nil_append]
  · have habsolute := isAbsolute_join hempty (isAbsolute_directory hfile hempty) reference.toList
    rw [if_pos habsolute, if_neg hempty, List.singleton_append]

/-- The identifier is the path of the place just if nothing is missing or left over in
front. From left to right, the identifier is cut into segments again, of which the
place has exactly its names. -/
theorem resolve_eq_absolute_iff (root : String) (hfile : isAbsolute file.toList)
    (hreference : isRelative reference.toList) :
    resolve (some file) reference root = absolute (target file reference)
      ↔ StaysBelow file reference := by
  have hnames : ∀ part ∈ target file reference, part ≠ [] ∧ '/' ∉ part := fun part hpart =>
    ⟨(isName_of_mem_target part hpart).ne_nil, (isName_of_mem_target part hpart).no_slash⟩
  have hparts : ∀ part ∈ List.replicate (overshoot file reference) up ++ target file reference,
      part ≠ [] ∧ '/' ∉ part := proper_of_mem isName_of_mem_target
  rw [← String.toList_inj, toList_resolve root hfile hreference, absolute, String.toList_ofList]
  constructor
  · intro heq
    by_cases hempty : directory file.toList = []
    · rw [if_pos hempty, List.nil_append] at heq
      refine absurd ?_ (not_isAbsolute_intercalate hparts)
      rw [heq]
      rfl
    · rw [if_neg hempty, List.singleton_append, List.cons_inj_right] at heq
      -- The segments on both sides are the same, so there are none in front.
      have hsame := congrArg (fun path => (pieces '/' path).filter (· ≠ [])) heq
      simp only [filter_pieces_intercalate hparts, filter_pieces_intercalate hnames] at hsame
      have hlength := congrArg List.length hsame
      rw [List.length_append, List.length_replicate] at hlength
      exact ⟨hempty, by omega⟩
  · rintro ⟨hspelled, hbelow⟩
    rw [if_neg hspelled, hbelow]
    rfl

/-- A reference leads to one place from all spellings of a file. Their places are the
same, and so are the places of their directories, which have one name less. -/
theorem SameFile.target_eq (h : SameFile file other) (reference : String) :
    target file reference = target other reference := by
  obtain ⟨name, hname, hfile⟩ := h.names
  obtain ⟨name', hname', hother⟩ := h.names'
  -- The way to a file is the way to its directory and then its name.
  have hplace : ∀ {directory name : List Char}, IsName name →
      walk [] (pieces '/' (directory ++ '/' :: name))
        = walk [] (pieces '/' directory) ++ [name] := by
    intro directory name hname
    rw [pieces_append, pieces_of_notMem hname.no_slash, walk_append]
    exact goAlong_of_isName hname
  have hdirectories := h.place
  rw [hfile, hother, hplace hname, hplace hname'] at hdirectories
  rw [target, target, (List.append_inj' hdirectories rfl).1]

/-- From an absolute file, a relative reference leads to a place below the top, whatever the root
directory is. Its identifier is the path of that place, behind a `..` for each step above the top,
and without a slash in front if the directory of the file is the empty text: so it is the path just
if neither is the case. Two spellings of the file then do not matter. -/
theorem resolve_relative (root : String) (hfile : isAbsolute file.toList)
    (hreference : isRelative reference.toList) :
    (∀ name ∈ target file reference, IsName name)
      ∧ (resolve (some file) reference root).toList
        = (if directory file.toList = [] then [] else ['/'])
          ++ ['/'].intercalate
            (List.replicate (overshoot file reference) up ++ target file reference)
      ∧ (resolve (some file) reference root = absolute (target file reference)
        ↔ StaysBelow file reference)
      ∧ ∀ other, isAbsolute other.toList → SameFile file other → StaysBelow file reference →
        StaysBelow other reference →
          resolve (some other) reference root = resolve (some file) reference root := by
  refine ⟨isName_of_mem_target, toList_resolve root hfile hreference,
    resolve_eq_absolute_iff root hfile hreference, ?_⟩
  intro other hother hsame hstays hstays'
  rw [(resolve_eq_absolute_iff root hfile hreference).2 hstays,
    (resolve_eq_absolute_iff root hother hreference).2 hstays', hsame.target_eq]

/-- The same file is spelled with a detour and with two slashes, and the reference
climbs as far as it can. So both spellings stay below the top and have one identifier. -/
theorem resolve_relative_detour :
    let file := "/a/./b/../c.css"
    let other := "//a/c.css"
    let reference := "./../d/./e.css"
    isAbsolute file.toList ∧ isAbsolute other.toList ∧ isRelative reference.toList
      ∧ target file reference = ["d".toList, "e.css".toList]
      ∧ resolve (some file) reference "/r" = "/d/e.css"
      ∧ resolve (some other) reference "/r" = resolve (some file) reference "/r" := by
  intro file other reference
  have hfile : isAbsolute file.toList := by decide
  have hother : isAbsolute other.toList := by decide
  have hreference : isRelative reference.toList := by decide
  have hname : IsName "c.css".toList := ⟨by decide, by decide, by decide, by decide⟩
  -- Both files have the name `c.css`, and both ways lead to the directory `a`.
  have hsame : SameFile file other :=
    ⟨⟨_, hname, by decide +kernel⟩, ⟨_, hname, by decide +kernel⟩, by decide +kernel⟩
  have hstays : StaysBelow file reference := ⟨by decide +kernel, by decide +kernel⟩
  have hstays' : StaysBelow other reference := ⟨by decide +kernel, by decide +kernel⟩
  obtain ⟨-, -, hiff, hspellings⟩ := resolve_relative "/r" hfile hreference
  have htarget : target file reference = ["d".toList, "e.css".toList] := by decide +kernel
  refine ⟨hfile, hother, hreference, htarget, ?_, hspellings other hother hsame hstays hstays'⟩
  rw [hiff.2 hstays, htarget]
  rfl

/-- Directly below the top the slash is lost, unless it is written twice, and above
the top a `..` is left over. These are the two ways in which the identifier is not the
path of the place. -/
theorem resolve_relative_top :
    absolute (target "/foo.css" "./bar.css") = "/bar.css"
      ∧ resolve (some "/foo.css") "./bar.css" "/project" = "bar.css"
      ∧ resolve (some "//foo.css") "./bar.css" "/project" = "/bar.css"
      ∧ absolute (target "/a/foo.css" "../../bar.css") = "/bar.css"
      ∧ resolve (some "/a/foo.css") "../../bar.css" "/project" = "/../bar.css" := by
  decide +kernel

end BlockStyles.Path
