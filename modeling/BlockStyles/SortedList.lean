/-!
# `BlockStyles.SortedList`: lists in order of a key

A sorted list holds at most one element for each value of a key and lists its
elements by ascending key. With the identity as key it is a set; with the first
component of pairs as key it is a map. The order is part of the type, so that
whatever walks through a sorted list sees its elements in the same order.

* `SortedList.ext`: the elements in order are all there is.
* `SortedList.mem_insertNew`, `SortedList.mem_insert`: what is in the list after an insertion.
-/

set_option autoImplicit false

namespace BlockStyles

open Std (TransOrd TransCmp OrientedCmp)

variable {α κ : Type} [Ord κ]

/-- Elements by strictly ascending key. -/
structure SortedList (key : α → κ) where
  toList : List α
  ascending : toList.Pairwise fun a b => compare (key a) (key b) = .lt

namespace SortedList

variable {key : α → κ}

/-- Two sorted lists are equal if they list the same elements. The proof that
the keys ascend is no part of what they are, so nothing else has to be
compared. -/
@[ext]
theorem ext {s t : SortedList key} (h : s.toList = t.toList) : s = t := by
  cases s
  cases t
  cases h
  rfl

/-- Sorted lists are compared by the elements that they list. -/
instance [DecidableEq α] : DecidableEq (SortedList key) := fun s t =>
  decidable_of_iff (s.toList = t.toList) ⟨ext, fun h => h ▸ rfl⟩

/-- No elements. -/
def empty : SortedList key := ⟨[], .nil⟩

/-- There is always the list without elements. -/
instance : Inhabited (SortedList key) := ⟨empty⟩

/-- Whether there are no elements. -/
def isEmpty (s : SortedList key) : Bool :=
  s.toList.isEmpty

/-- The element with a key. -/
def find? (s : SortedList key) (k : κ) : Option α :=
  s.toList.find? fun a => compare (key a) k == .eq

/-- Whether there is an element with a key. -/
def contains (s : SortedList key) (k : κ) : Bool :=
  (s.find? k).isSome

/-! ### Insertion -/

/-- Puts an element at its place. An element with the same key gives way, or, if
`keep` holds, stays instead of the new one. -/
def place (key : α → κ) (keep : Bool) (a : α) : List α → List α
  | [] => [a]
  | b :: rest =>
    match compare (key a) (key b) with
    | .lt => a :: b :: rest
    | .eq => (if keep then b else a) :: rest
    | .gt => b :: place key keep a rest

/-- Whatever is in the list after an insertion is the new element or was
there before. This is one direction only: an element with the key of the new
one may have given way. The exact condition is `mem_place_iff`. -/
theorem mem_place {keep : Bool} {a x : α} {l : List α} (h : x ∈ place key keep a l) :
    x = a ∨ x ∈ l := by
  induction l with
  | nil => exact .inl (by simpa [place] using h)
  | cons b rest ih =>
    unfold place at h
    split at h
    · simpa using h
    -- At an equal key one of the two stays, and which of them `keep` says.
    · cases keep <;> simp_all
      exact h.imp id .inr
    · rcases List.mem_cons.1 h with rfl | h
      · exact .inr List.mem_cons_self
      · exact (ih h).imp id (List.mem_cons_of_mem _)

/-- Insertion keeps the keys ascending, whichever of two elements with one
key stays. This is what makes `insert` and `insertNew` well formed. The order
is used in the transitive form only, so any lawful comparison will do. -/
theorem place_ascending [TransOrd κ] (keep : Bool) (a : α) {l : List α}
    (h : l.Pairwise fun a b => compare (key a) (key b) = .lt) :
    (place key keep a l).Pairwise fun a b => compare (key a) (key b) = .lt := by
  induction l with
  | nil => simp [place]
  | cons b rest ih =>
    obtain ⟨hb, hrest⟩ := List.pairwise_cons.1 h
    unfold place
    split
    -- The new element goes in front: it is below `b`, and `b` is below the rest.
    · rename_i hab
      refine List.pairwise_cons.2 ⟨fun x hx => ?_, h⟩
      rcases List.mem_cons.1 hx with rfl | hx
      · exact hab
      · exact TransCmp.lt_trans hab (hb x hx)
    -- The element at the front changes, but its key stays.
    · rename_i hab
      refine List.pairwise_cons.2 ⟨fun x hx => ?_, hrest⟩
      cases keep
      · exact TransCmp.lt_of_eq_of_lt hab (hb x hx)
      · exact hb x hx
    -- What stands behind `b` now stood there before, or is the new element.
    · rename_i hab
      refine List.pairwise_cons.2 ⟨fun x hx => ?_, ih hrest⟩
      rcases mem_place hx with rfl | hx
      · exact OrientedCmp.gt_iff_lt.1 hab
      · exact hb x hx

variable [TransOrd κ]

/-- The list with an element. It replaces the element with the same key. -/
def insert (s : SortedList key) (a : α) : SortedList key :=
  ⟨place key false a s.toList, place_ascending false a s.ascending⟩

/-- The list with an element, unless there is one with the same key. -/
def insertNew (s : SortedList key) (a : α) : SortedList key :=
  ⟨place key true a s.toList, place_ascending true a s.ascending⟩

/-- The elements of a list. Of several with the same key the last is kept. -/
def ofList (key : α → κ) (l : List α) : SortedList key :=
  l.foldl insert empty

/-- What is in the list after an insertion that replaces is the new element
or was there before. -/
theorem mem_insert {s : SortedList key} {a x : α} (h : x ∈ (s.insert a).toList) :
    x = a ∨ x ∈ s.toList :=
  mem_place h

/-- What is in the list after an insertion that keeps is the new element or
was there before. It need not be the new one even where it has the key of it. -/
theorem mem_insertNew {s : SortedList key} {a x : α} (h : x ∈ (s.insertNew a).toList) :
    x = a ∨ x ∈ s.toList :=
  mem_place h

end SortedList

end BlockStyles
