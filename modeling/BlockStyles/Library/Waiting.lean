import BlockStyles.Library.Basic

/-!
# `BlockStyles.Library.Waiting`: files that wait for each other

The slots say for each file which file it waits for. Before a file starts to
wait for another one, the trail from that other file is followed; if it leads
back into the chain of files that the request comes through, the files would
wait for each other for ever.
-/

set_option autoImplicit false

namespace BlockStyles

/-- The edges that do not start at a file. -/
def edgesWithout (edges : List (String × String)) (file : String) : List (String × String) :=
  edges.filter (·.1 != file)

/-- Leaving out the edges of a file that has one makes the list shorter. This
is the measure of `trail`, which leaves out the edges of every file that it
has gone through. -/
theorem edgesWithout_shorter {edges : List (String × String)} {file next : String}
    (h : edges.lookup file = some next) : (edgesWithout edges file).length < edges.length := by
  unfold edgesWithout
  induction edges with
  | nil => simp at h
  | cons edge edges ih =>
    obtain ⟨first, second⟩ := edge
    by_cases hk : file = first
    -- The first edge goes, and the others at most stay.
    · subst hk
      have := List.length_filter_le (fun edge : String × String => edge.1 != file) edges
      simp only [List.filter_cons, bne_self_eq_false, Bool.false_eq_true, if_false,
        List.length_cons]
      omega
    · have hb : (file == first) = false := by simp [hk]
      simp only [List.lookup_cons, hb] at h
      have := ih h
      have hk' : (first != file) = true := by simp [Ne.symm hk]
      simp only [List.filter_cons, hk', if_true, List.length_cons]
      omega

/-- The files that come after a file, each waiting for the next. No file is left
twice, so the trail is finite. -/
def trail (edges : List (String × String)) (file : String) : List String :=
  match h : edges.lookup file with
  | none => []
  | some next =>
    have := edgesWithout_shorter h
    next :: trail (edgesWithout edges file) next
termination_by edges.length

namespace Library

/-- The files that wait, each with the file it waits for. -/
def waits (library : Library) : List (String × String) :=
  library.slots.toList.filterMap fun (file, slot) => slot.awaiting.map (file, ·)

/-- The circle that would close if the last file of `chain` began to wait for
`target`: from the file of the chain that the trail of `target` meets first, down
the chain, and along the trail back to it. -/
def circle? (library : Library) (chain : List String) (target : String) : Option (List String) :=
  let path := trail library.waits target
  match path.find? chain.contains with
  | none => none
  | some meeting =>
    some (chain.dropWhile (· != meeting) ++ target :: path.takeWhile (· != meeting) ++ [meeting])

end Library

end BlockStyles
