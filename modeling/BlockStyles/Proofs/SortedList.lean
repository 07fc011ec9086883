import BlockStyles.SortedList
import Mathlib.Data.List.Nodup

/-!
# `BlockStyles.Proofs.SortedList`: a sorted list as a map

When the order of the keys tells different keys apart, a sorted list is a map
from keys to elements. `find?` reads it, and an insertion changes one entry:

* `find?_eq_some_iff`: what is found is in the list and has the key.
* `find?_insert`: after an insertion the new element is found under its key, and
  under other keys what was found before.
* `ext_of_find?`: a map is determined by what is found in it.
* `mem_insert_iff`, `mem_insertNew_iff`: what is in the list after an insertion.

Elements that come in ascending order stay in it, so a sorted list is what one
gets by adding its elements to an empty one: `ofList_toList`, `foldl_insertNew_toList`.
-/

set_option autoImplicit false

namespace BlockStyles.SortedList

open Std (TransOrd TransCmp LawfulEqOrd OrientedCmp ReflCmp)

variable {α κ : Type} [Ord κ] {key : α → κ}

/-- Where something has been put, the list is not empty: either it is there, or an
element that has its key. -/
theorem place_ne_nil (keep : Bool) (a : α) (l : List α) : place key keep a l ≠ [] := by
  cases l with
  | nil => simp [place]
  | cons b rest =>
    unfold place
    split <;> simp

variable [TransOrd κ]

/-- Keys in strict order are different keys. This needs no more than that a key equals
itself in the order; the converse would need the order to be total. -/
theorem ne_of_compare_lt {j k : κ} (h : compare j k = .lt) : j ≠ k := by
  rintro rfl
  have hself : compare j j = .eq := ReflCmp.compare_self
  rw [hself] at h
  cases h

/-- No key occurs twice in a sorted list, since the keys ascend strictly. It is what
makes a lookup by key unambiguous. -/
theorem nodup_keys (s : SortedList key) : (s.toList.map key).Nodup :=
  List.pairwise_map.2 (s.ascending.imp ne_of_compare_lt)

/-- Two elements of one key are the same element. What is known of an element by its
key is known of it, which is how entries of the arena and of an analysis are
identified. -/
theorem eq_of_key_eq {s : SortedList key} {a b : α} (ha : a ∈ s.toList) (hb : b ∈ s.toList)
    (h : key a = key b) : a = b :=
  List.inj_on_of_nodup_map s.nodup_keys ha hb h

/-! ### Insertion in order -/

/-- An element above all others goes to the end, whether or not it would replace one
of its key: there is none. -/
theorem place_last {keep : Bool} {a : α} {l : List α}
    (h : ∀ b ∈ l, compare (key b) (key a) = .lt) : place key keep a l = l ++ [a] := by
  induction l with
  | nil => rfl
  | cons b rest ih =>
    have hgt : compare (key a) (key b) = .gt := OrientedCmp.gt_iff_lt.2 (h b List.mem_cons_self)
    rw [place, hgt]
    exact congrArg (b :: ·) (ih fun c hc => h c (List.mem_cons_of_mem b hc))

/-- Elements that are added in ascending order follow each other. The way of adding is
a parameter, since it makes no difference here which of two elements with one key
stays. -/
theorem toList_foldl {add : SortedList key → α → SortedList key} {keep : Bool}
    (hadd : ∀ s a, (add s a).toList = place key keep a s.toList) {s : SortedList key} {l : List α}
    (h : (s.toList ++ l).Pairwise fun a b => compare (key a) (key b) = .lt) :
    (l.foldl add s).toList = s.toList ++ l := by
  induction l generalizing s with
  | nil => exact (List.append_nil _).symm
  | cons a rest ih =>
    have hlast : (add s a).toList = s.toList ++ [a] := by
      rw [hadd]
      exact place_last fun b hb => (List.pairwise_append.1 h).2.2 b hb a List.mem_cons_self
    -- The list that has been built is the front of the ascending list, so the hypothesis
    -- goes on.
    rw [List.foldl_cons, ih (by simpa [hlast] using h), hlast, List.append_assoc]
    rfl

/-- A list whose keys ascend is not changed by making a sorted list of it. So nothing
is lost or moved where the keys come in order already. -/
theorem toList_ofList {l : List α} (h : l.Pairwise fun a b => compare (key a) (key b) = .lt) :
    (ofList key l).toList = l :=
  toList_foldl (fun _ _ => rfl) h

/-- A sorted list is the one of its elements. So what has been written out as a list
can be read back without a loss. -/
theorem ofList_toList (s : SortedList key) : ofList key s.toList = s :=
  ext (toList_ofList s.ascending)

/-- A sorted list is made again from its elements if elements with a new key only are
added: every key is new when its element comes. -/
theorem foldl_insertNew_toList (s : SortedList key) : s.toList.foldl insertNew empty = s :=
  ext (toList_foldl (fun _ _ => rfl) s.ascending)

/-! ### Lookup -/

/-- In a map as a list, too, every entry is the first one of its key. This ties the
lookups of a document, which go through a list, to those of a map. -/
theorem lookup_of_mem {β : Type} [DecidableEq κ] {s : SortedList (Prod.fst : κ × β → κ)}
    {entry : κ × β} (h : entry ∈ s.toList) : s.toList.lookup entry.1 = some entry.2 := by
  obtain ⟨before, after, hsplit⟩ := List.append_of_mem h
  refine List.lookup_eq_some_iff.2 ⟨before, after, hsplit, fun other hother => ?_⟩
  have hnodup := s.nodup_keys
  rw [hsplit, List.map_append] at hnodup
  have hne : other.1 ≠ entry.1 := fun heq => List.disjoint_of_nodup_append hnodup
    (List.mem_map_of_mem hother) (heq ▸ List.mem_cons_self)
  exact bne_iff_ne.2 hne.symm

/-- Elements are not made by adding: what is in the list in the end has been there or
is one of those that have been added. -/
theorem mem_foldl_insertNew {s : SortedList key} {l : List α} {a : α}
    (h : a ∈ (l.foldl insertNew s).toList) : a ∈ s.toList ∨ a ∈ l := by
  induction l generalizing s with
  | nil => exact .inl h
  | cons b rest ih =>
    rcases ih h with h | h
    · exact (mem_insertNew h).elim (fun hab => .inr (hab ▸ List.mem_cons_self)) .inl
    · exact .inr (List.mem_cons_of_mem b h)

variable [LawfulEqOrd κ]

/-- What is found under a key is the element of the list that has the key. There is at
most one, so it does not matter from which end the list is searched. -/
theorem find?_eq_some_iff {s : SortedList key} {k : κ} {a : α} :
    s.find? k = some a ↔ a ∈ s.toList ∧ key a = k := by
  unfold find?
  constructor
  · intro h
    exact ⟨List.mem_of_find?_eq_some h, by simpa using List.find?_some h⟩
  · rintro ⟨ha, rfl⟩
    cases hfind : s.toList.find? fun b => compare (key b) (key a) == .eq with
    | none =>
      have := List.find?_eq_none.1 hfind a ha
      simp at this
    | some b =>
      have hb : key b = key a := by simpa using List.find?_some hfind
      rw [eq_of_key_eq (List.mem_of_find?_eq_some hfind) ha hb]

/-- A key is there if it is that of an element. This turns tests of the model into
statements about elements. -/
theorem contains_iff_exists {s : SortedList key} {k : κ} :
    s.contains k ↔ ∃ a ∈ s.toList, key a = k := by
  rw [contains, Option.isSome_iff_exists]
  simp only [find?_eq_some_iff]

/-- In a set the keys are the members, and a test for a key is one for membership. -/
theorem contains_iff_mem [Ord α] [TransOrd α] [LawfulEqOrd α]
    {s : SortedList (id : α → α)} {a : α} :
    s.contains a ↔ a ∈ s.toList := by
  rw [contains_iff_exists]
  simp only [id_eq, exists_eq_right]

/-! ### Insertion -/

/-- What a list in order holds after an element has been put at its place: the element
itself, and those of the others that have a different key. The order is needed here,
since `place` looks no further than to the first key that is not below. -/
theorem mem_place_iff {a x : α} {l : List α}
    (h : l.Pairwise fun a b => compare (key a) (key b) = .lt) :
    x ∈ place key false a l ↔ x = a ∨ x ∈ l ∧ key x ≠ key a := by
  induction l with
  | nil => simp [place]
  | cons b rest ih =>
    obtain ⟨hb, hrest⟩ := List.pairwise_cons.1 h
    unfold place
    split
    -- Everything from `b` on is above the new element.
    · rename_i hab
      have habove : ∀ y ∈ b :: rest, key y ≠ key a := by
        intro y hy
        rcases List.mem_cons.1 hy with rfl | hy
        · exact (ne_of_compare_lt hab).symm
        · exact (ne_of_compare_lt (TransCmp.lt_trans hab (hb y hy))).symm
      rw [List.mem_cons]
      exact or_congr_right ⟨fun hx => ⟨hx, habove x hx⟩, And.left⟩
    -- `b` has the key of the new element, and the rest is above it.
    · rename_i hab
      rw [LawfulEqOrd.compare_eq_iff_eq] at hab
      have habove : ∀ y ∈ rest, key y ≠ key a := fun y hy => hab ▸ (ne_of_compare_lt (hb y hy)).symm
      simp only [Bool.false_eq_true, if_false, List.mem_cons]
      refine or_congr_right ⟨fun hx => ⟨.inr hx, habove x hx⟩, ?_⟩
      rintro ⟨rfl | hx, hne⟩
      · exact absurd hab.symm hne
      · exact hx
    -- `b` stays in front, since its key is below the new one.
    · rename_i hab
      have hba : key b ≠ key a := ne_of_compare_lt (OrientedCmp.gt_iff_lt.1 hab)
      rw [List.mem_cons, ih hrest, List.mem_cons]
      constructor
      · rintro (rfl | hx | ⟨hx, hne⟩)
        · exact .inr ⟨.inl rfl, hba⟩
        · exact .inl hx
        · exact .inr ⟨.inr hx, hne⟩
      · rintro (hx | ⟨rfl | hx, hne⟩)
        · exact .inr (.inl hx)
        · exact .inl rfl
        · exact .inr (.inr ⟨hx, hne⟩)

/-- After an insertion the new element is in the list, and an old one is if its key is
another. -/
theorem mem_insert_iff {s : SortedList key} {a x : α} :
    x ∈ (s.insert a).toList ↔ x = a ∨ x ∈ s.toList ∧ key x ≠ key a :=
  mem_place_iff s.ascending

/-- What a list in order holds after an element has been put at its place, unless
there is one with its key. All that was there stays, and the new one is there if its
key is new. -/
theorem mem_place_keep_iff {a x : α} {l : List α}
    (h : l.Pairwise fun a b => compare (key a) (key b) = .lt) :
    x ∈ place key true a l ↔ x ∈ l ∨ x = a ∧ ∀ b ∈ l, key b ≠ key a := by
  induction l with
  | nil => simp [place]
  | cons b rest ih =>
    obtain ⟨hb, hrest⟩ := List.pairwise_cons.1 h
    unfold place
    split
    -- Everything from `b` on is above the new element.
    · rename_i hab
      have habove : ∀ y ∈ b :: rest, key y ≠ key a := by
        intro y hy
        rcases List.mem_cons.1 hy with rfl | hy
        · exact (ne_of_compare_lt hab).symm
        · exact (ne_of_compare_lt (TransCmp.lt_trans hab (hb y hy))).symm
      rw [List.mem_cons, or_comm]
      exact or_congr_right ⟨fun hx => ⟨hx, habove⟩, And.left⟩
    -- `b` has the key already.
    · rename_i hab
      have hkey : key b = key a := (LawfulEqOrd.compare_eq_iff_eq.1 hab).symm
      have hnot : ¬ (x = a ∧ ∀ c ∈ b :: rest, key c ≠ key a) := fun hx =>
        hx.2 b List.mem_cons_self hkey
      rw [or_iff_left hnot]
      rfl
    · rename_i hab
      have hba : key b ≠ key a := ne_of_compare_lt (OrientedCmp.gt_iff_lt.1 hab)
      rw [List.mem_cons, ih hrest, List.mem_cons, or_assoc, List.forall_mem_cons]
      exact or_congr_right (or_congr_right (and_congr_right fun _ => (and_iff_right hba).symm))

/-- If keys that are there keep their elements, all old elements stay, and the new one
joins them if no old one has its key. -/
theorem mem_insertNew_iff {s : SortedList key} {a x : α} :
    x ∈ (s.insertNew a).toList ↔ x ∈ s.toList ∨ x = a ∧ ∀ b ∈ s.toList, key b ≠ key a :=
  mem_place_keep_iff s.ascending

omit [LawfulEqOrd κ] in
/-- A sorted list is determined by its elements. Neither their order nor how often
they occur is left open, so equality of such lists is equality of sets. -/
theorem ext_of_mem_iff {s t : SortedList key} (h : ∀ a, a ∈ s.toList ↔ a ∈ t.toList) : s = t := by
  have hperm : s.toList.Perm t.toList :=
    (List.perm_ext_iff_of_nodup (.of_map key s.nodup_keys) (.of_map key t.nodup_keys)).2 h
  refine ext (hperm.eq_of_pairwise (fun a b _ _ hab hba => ?_) s.ascending t.ascending)
  exact absurd rfl (ne_of_compare_lt (TransCmp.lt_trans hab hba))

/-- A map is determined by what is found in it. This is how two ways of building a map
are compared: key by key, and not step by step. -/
theorem ext_of_find? {s t : SortedList key} (h : ∀ k, s.find? k = t.find? k) : s = t := by
  refine ext_of_mem_iff fun a => ?_
  have hfound : ∀ r : SortedList key, a ∈ r.toList ↔ r.find? (key a) = some a := fun r => by
    rw [find?_eq_some_iff, and_iff_left rfl]
  rw [hfound, hfound, h]

/-- A set with an element. In a set a new element cannot be held off by another one of
its key, since it is its own key. -/
theorem mem_insertNew_set [Ord α] [TransOrd α] [LawfulEqOrd α] {s : SortedList (id : α → α)}
    {a x : α} : x ∈ (s.insertNew a).toList ↔ x ∈ s.toList ∨ x = a := by
  rw [mem_insertNew_iff]
  constructor
  · exact Or.imp_right And.left
  · rintro (hx | rfl)
    · exact .inl hx
    · by_cases hx : x ∈ s.toList
      · exact .inl hx
      · right
        refine ⟨rfl, fun b hb hkey => hx ?_⟩
        have heq : b = x := hkey
        exact heq ▸ hb

/-- Every key of the elements that have been added is there, though perhaps with an
element that was added before. What is added later does not take the key away. -/
theorem exists_key_foldl_insertNew (s : SortedList key) (l : List α) {a : α}
    (h : a ∈ s.toList ∨ a ∈ l) : ∃ b ∈ (l.foldl insertNew s).toList, key b = key a := by
  induction l generalizing s a with
  | nil => exact ⟨a, h.resolve_right List.not_mem_nil, rfl⟩
  | cons c rest ih =>
    rcases h with h | h
    · exact ih (s.insertNew c) (.inl (mem_insertNew_iff.2 (.inl h)))
    · rcases List.mem_cons.1 h with rfl | h
      · by_cases hold : ∃ b ∈ s.toList, key b = key a
        -- An element with its key has been there before.
        · obtain ⟨b, hb, hkey⟩ := hold
          obtain ⟨d, hd, hd'⟩ := ih (s.insertNew a) (.inl (mem_insertNew_iff.2 (.inl hb)))
          exact ⟨d, hd, hd'.trans hkey⟩
        · refine ih (s.insertNew a) (.inl (mem_insertNew_iff.2 (.inr ⟨rfl, fun b hb hkey => ?_⟩)))
          exact hold ⟨b, hb, hkey⟩
      · exact ih (s.insertNew c) (.inr h)

/-- What has been there is found as before, and else what is added. As an equation it
decides the result for every key at once. -/
theorem find?_insertNew [DecidableEq κ] (s : SortedList key) (a : α) (k : κ) :
    (s.insertNew a).find? k = (s.find? k).or (if key a = k then some a else none) := by
  refine Option.ext fun x => ?_
  rw [find?_eq_some_iff, mem_insertNew_iff, Option.or_eq_some_iff, find?_eq_some_iff,
    Option.ite_none_right_eq_some]
  cases hfind : s.find? k with
  -- The key is not there yet, so nothing stands in the way of the new element.
  | none =>
    have hnew : ∀ b ∈ s.toList, key b ≠ k := fun b hb hk => by
      rw [find?_eq_some_iff.2 ⟨hb, hk⟩] at hfind
      cases hfind
    constructor
    · rintro ⟨hx | ⟨rfl, -⟩, hk⟩
      · exact .inl ⟨hx, hk⟩
      · exact .inr ⟨rfl, hk, rfl⟩
    · rintro (⟨hx, hk⟩ | ⟨-, hk, ha⟩)
      · exact ⟨.inl hx, hk⟩
      · cases ha
        exact ⟨.inr ⟨rfl, fun b hb heq => hnew b hb (heq.trans hk)⟩, hk⟩
  -- The key is taken, so the new element is not added if it has this key.
  | some old =>
    obtain ⟨hold, hkey⟩ := find?_eq_some_iff.1 hfind
    constructor
    · rintro ⟨hx | ⟨rfl, hfresh⟩, hk⟩
      · exact .inl ⟨hx, hk⟩
      · exact absurd (hkey.trans hk.symm) (hfresh old hold)
    · rintro (⟨hx, hk⟩ | ⟨hnone, -⟩)
      · exact ⟨.inl hx, hk⟩
      · cases hnone

/-- The keys after an insertion that keeps are the old ones and the new one. Which
element the key leads to does not matter here. -/
theorem contains_insertNew [DecidableEq κ] (s : SortedList key) (a : α) (k : κ) :
    (s.insertNew a).contains k ↔ s.contains k ∨ key a = k := by
  rw [contains, contains, find?_insertNew, Option.isSome_or, Bool.or_eq_true]
  refine or_congr_right ?_
  split <;> simp [*]

/-- Under the key of the new element it is found, and under every other key what was
found before. -/
theorem find?_insert [DecidableEq κ] (s : SortedList key) (a : α) (k : κ) :
    (s.insert a).find? k = if key a = k then some a else s.find? k := by
  split
  · rename_i h
    exact find?_eq_some_iff.2 ⟨mem_insert_iff.2 (.inl rfl), h⟩
  · rename_i h
    refine Option.ext fun x => ?_
    rw [find?_eq_some_iff, find?_eq_some_iff, mem_insert_iff]
    constructor
    · rintro ⟨rfl | ⟨hx, -⟩, hk⟩
      · exact absurd hk h
      · exact ⟨hx, hk⟩
    · rintro ⟨hx, rfl⟩
      exact ⟨.inr ⟨hx, Ne.symm h⟩, rfl⟩

/-- The keys after an insertion that replaces are the same as after one that keeps.
Which of two elements of one key is kept does not show in the keys. -/
theorem contains_insert [DecidableEq κ] (s : SortedList key) (a : α) (k : κ) :
    (s.insert a).contains k ↔ s.contains k ∨ key a = k := by
  rw [contains, contains, find?_insert]
  split <;> simp [*]

omit [TransOrd κ] in
/-- Where one element has been put over another one of its key, a third one of that
key goes to the same place. Keys that are equal compare alike, so both walks take the
same way. -/
theorem place_place {a b : α} (h : key a = key b) (l : List α) :
    place key false b (place key false a l) = place key false b l := by
  have hba : compare (key b) (key a) = .eq := LawfulEqOrd.compare_eq_iff_eq.2 h.symm
  induction l with
  | nil => simp [place, hba]
  | cons c rest ih =>
    have hbc : compare (key b) (key c) = compare (key a) (key c) := by rw [h]
    cases hac : compare (key a) (key c) with
    | lt => simp [place, hbc, hac, hba]
    | eq => simp [place, hbc, hac, hba]
    | gt => simp [place, hbc, hac, ih]

/-- Of two insertions under one key the second counts. Nothing is left of the first
one, not even its place. -/
theorem insert_insert (s : SortedList key) {a b : α} (h : key a = key b) :
    (s.insert a).insert b = s.insert b :=
  ext (place_place h s.toList)

end BlockStyles.SortedList
