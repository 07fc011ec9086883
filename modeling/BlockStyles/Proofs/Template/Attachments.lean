import BlockStyles.Library.Basic
import BlockStyles.Proofs.Template.RoundTrip

/-!
# `BlockStyles.Proofs.Template.Attachments`: all that is attached to an element

The objects of an element are gathered from the three ways of attaching, one for each
id. Where ids tell the blocks apart, that is every object, whatever way it has been
attached.

* `Element.distinct_of_registered`: ids tell the blocks of a library apart.
* `Element.mem_objects_iff`: the objects of an element are those that are attached to it.
-/

set_option autoImplicit false

namespace BlockStyles

namespace Element

variable {element : Element}

/-- The blocks of the attached objects are told apart by their ids. Objects are listed
by id, so without this one of two objects might be missing from the list. -/
def Distinct (element : Element) : Prop :=
  ∀ a b, element.Attaches a → element.Attaches b → a.block.id = b.block.id → a.block = b.block

/-- Then the objects are told apart by their ids, too: the id of an object has the id
of its block and its place in it. -/
theorem Distinct.eq_of_id_eq (h : element.Distinct) {a b : Object} (ha : element.Attaches a)
    (hb : element.Attaches b) (hid : a.id = b.id) : a = b := by
  refine Object.eq_of_id_eq hid (h a b ha hb ?_)
  rw [← a.block_id, ← b.block_id, hid]

/-- A library keeps one block for each id. So objects that come from blocks of a
library are told apart. -/
theorem distinct_of_registered {library : Library}
    (h : ∀ object, element.Attaches object → object.block ∈ library.blocks) : element.Distinct :=
  fun a b ha hb hid => SortedList.eq_of_key_eq (h a ha) (h b hb) hid

/-- What is attached, with what is attached in several ways listed as often. All
objects are gathered from this list. -/
theorem attaches_iff_mem {object : Object} :
    element.Attaches object ↔
      object ∈ element.statics.toList ++ element.dynamics.toList.map Prod.fst ++
        element.exclusives.toList.flatMap (·.2.toList) := by
  simp only [Attaches, List.mem_append, List.mem_map, List.mem_flatMap, Prod.exists,
    exists_and_right, exists_eq_right, or_assoc]

/-- The objects of an element are attached to it. The converse needs ids that tell
objects apart, as the list has one object for each id. -/
theorem attaches_of_mem_objects {object : Object} (h : object ∈ element.objects) :
    element.Attaches object :=
  attaches_iff_mem.2 ((SortedList.mem_foldl_insertNew h).resolve_left List.not_mem_nil)

/-- Every id of an attached object is there among the objects. It may be there for
another object, which was listed first. -/
theorem exists_mem_objects {object : Object} (h : element.Attaches object) :
    ∃ listed ∈ element.objects, listed.id = object.id :=
  SortedList.exists_key_foldl_insertNew (.empty : ObjectSet) _ (.inr (attaches_iff_mem.1 h))

/-- The objects of an element are those that are attached to it. Where ids tell the
blocks apart, the object that is listed for an id is the one that was looked for. -/
theorem mem_objects_iff (hdistinct : element.Distinct) {object : Object} :
    object ∈ element.objects ↔ element.Attaches object := by
  refine ⟨attaches_of_mem_objects, fun h => ?_⟩
  obtain ⟨listed, hlisted, hid⟩ := exists_mem_objects h
  exact hdistinct.eq_of_id_eq (attaches_of_mem_objects hlisted) h hid ▸ hlisted

end Element

end BlockStyles
