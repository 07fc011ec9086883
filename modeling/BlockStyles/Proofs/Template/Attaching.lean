import BlockStyles.Proofs.Template.Attachments

/-!
# `BlockStyles.Proofs.Template.Attaching`: attaching in any order

Whatever is attached to an element has a place on it: among the static objects, among the
conditional ones, or in a group, each under the id of the object. A place that is taken stays as
it is. So a list of calls leaves at every place what was there, or else the first call for it, and
that is all there is to know of the element. The order of the calls matters only where two calls
for one place differ; if ids tell the blocks apart, these are calls that attach one object under
different conditions.

* `Element.at?_attachAll`: what is at a place after any calls.
* `Element.ext_of_at?`: an element is what is at its places.
* `Element.Gathers`: what an element has got from calls, without a word about their order.
* `Element.attachAll_rearranged`: the same calls in another order, or some of them again, lead to
  the same element.
-/

set_option autoImplicit false

namespace BlockStyles

open BlockStyles.Text (Position)

namespace Element

/-! ### Calls and places -/

/-- A call that attaches an object. What it is given is all that the element may get
from it. -/
inductive Attachment where
  | static (object : Object)
  | dynamic (object : Object) (condition : Option String)
  | exclusive (group : String) (object : Object)

/-- Where an object can be attached. In a group an object may be there once for each
name of a group. -/
inductive Place where
  | static (id : ObjectId)
  | dynamic (id : ObjectId)
  | exclusive (group : String) (id : ObjectId)
deriving DecidableEq

namespace Attachment

/-- The object that is attached. -/
def object : Attachment → Object
  | static object => object
  | dynamic object _ => object
  | exclusive _ object => object

/-- Where it is attached. -/
def place : Attachment → Place
  | static object => .static object.id
  | dynamic object _ => .dynamic object.id
  | exclusive group object => .exclusive group object.id

end Attachment

/-- The element after a call. -/
def attach (element : Element) : Attachment → Element
  | .static object => element.addStatic object
  | .dynamic object condition => element.addDynamic object condition
  | .exclusive group object => element.addExclusive group object

/-- The element after calls, one after the other. -/
def attachAll (element : Element) (calls : List Attachment) : Element :=
  calls.foldl attach element

/-- What is at a place of the element, as the call that could have brought it there.
So what is there can be compared with calls. -/
def at? (element : Element) : Place → Option Attachment
  | .static id => (element.statics.find? id).map .static
  | .dynamic id => (element.dynamics.find? id).map fun entry => .dynamic entry.1 entry.2
  | .exclusive group id => ((element.groupObjects group).find? id).map (.exclusive group)

variable {element other : Element} {calls calls' : List Attachment}

/-- A call changes nothing but its own place, and that only if nothing is there. The
nine cases are the ways of attaching with those of being attached. -/
theorem at?_attach (element : Element) (call : Attachment) (place : Place) :
    (element.attach call).at? place
      = (element.at? place).or (if call.place = place then some call else none) := by
  cases call with
  | static object =>
    cases place with
    | static id =>
      simp only [attach, at?, addStatic, SortedList.find?_insertNew, Option.map_or,
        Attachment.place, Place.static.injEq]
      congr 1
      split <;> rfl
    | dynamic id => simp [attach, at?, addStatic, Attachment.place]
    | exclusive group id => simp [attach, at?, addStatic, groupObjects, Attachment.place]
  | dynamic object condition =>
    cases place with
    | static id => simp [attach, at?, addDynamic, Attachment.place]
    | dynamic id =>
      simp only [attach, at?, addDynamic, SortedList.find?_insertNew, Option.map_or,
        Attachment.place, Place.dynamic.injEq]
      congr 1
      split <;> rfl
    | exclusive group id => simp [attach, at?, addDynamic, groupObjects, Attachment.place]
  | exclusive group object =>
    cases place with
    | static id => simp [attach, at?, addExclusive, Attachment.place]
    | dynamic id => simp [attach, at?, addExclusive, Attachment.place]
    | exclusive otherGroup id =>
      simp only [attach, at?, Attachment.place, Place.exclusive.injEq]
      by_cases hgroup : otherGroup = group
      · subst hgroup
        simp only [groupObjects_addExclusive, SortedList.find?_insertNew, Option.map_or, true_and]
        congr 1
        split <;> rfl
      -- The other groups are as they were.
      · rw [groupObjects_addExclusive_of_ne element object hgroup,
          if_neg fun h => hgroup h.1.symm, Option.or_none]

/-- At every place there is what was there, or else the first call for it. Later calls
for the place come too late. -/
theorem at?_attachAll (element : Element) (calls : List Attachment) (place : Place) :
    (element.attachAll calls).at? place
      = (element.at? place).or (calls.find? (·.place = place)) := by
  induction calls generalizing element with
  | nil => rw [List.find?_nil, Option.or_none]; rfl
  | cons call calls ih =>
    have hfirst : (call :: calls).find? (·.place = place)
        = (if call.place = place then some call else none).or
          (calls.find? (·.place = place)) := by
      by_cases h : call.place = place <;> simp [h]
    rw [attachAll, List.foldl_cons, ← attachAll, ih, at?_attach, Option.or_assoc, hfirst]

/-- A group is there if it was, or if a call is for it. This has to be said apart from
places, since a group is there with its members or it is not. -/
theorem contains_attachAll (element : Element) (calls : List Attachment) (group : String) :
    (element.attachAll calls).exclusives.contains group ↔
      element.exclusives.contains group ∨ ∃ object, .exclusive group object ∈ calls := by
  induction calls generalizing element with
  | nil => simp [attachAll]
  | cons call calls ih =>
    rw [attachAll, List.foldl_cons, ← attachAll, ih]
    cases call with
    | static object => simp [attach, addStatic]
    | dynamic object condition => simp [attach, addDynamic]
    | exclusive name object =>
      simp only [attach, addExclusive, SortedList.contains_insert, List.mem_cons,
        Attachment.exclusive.injEq, exists_or, exists_and_left, exists_eq, and_true, or_assoc,
        eq_comm (a := group)]

/-- Attaching does not change the id of the element. Id and position are given when an
element is started. -/
@[simp]
theorem id_attachAll (element : Element) (calls : List Attachment) :
    (element.attachAll calls).id = element.id := by
  induction calls generalizing element with
  | nil => rfl
  | cons call calls ih =>
    rw [attachAll, List.foldl_cons, ← attachAll, ih]
    cases call <;> rfl

/-- Attaching does not change the position of the element. -/
@[simp]
theorem position_attachAll (element : Element) (calls : List Attachment) :
    (element.attachAll calls).position = element.position := by
  induction calls generalizing element with
  | nil => rfl
  | cons call calls ih =>
    rw [attachAll, List.foldl_cons, ← attachAll, ih]
    cases call <;> rfl

/-- The objects of a group, if it is there. A group that is not there has none, so the
two cases must be told apart. -/
theorem find?_exclusives (element : Element) (group : String) :
    element.exclusives.find? group
      = if element.exclusives.contains group then some (group, element.groupObjects group)
        else none := by
  unfold groupObjects SortedList.contains
  cases hfind : element.exclusives.find? group with
  | none => rfl
  | some entry =>
    obtain ⟨-, rfl⟩ := SortedList.find?_eq_some_iff.1 hfind
    rfl

/-- An element is what is at its places, and what groups there are. Each of its three
lists is sorted by ids or names, so it is known from what is found in it. -/
theorem ext_of_at? (hid : element.id = other.id) (hposition : element.position = other.position)
    (hat : ∀ place, element.at? place = other.at? place)
    (hgroups : ∀ group, element.exclusives.contains group ↔ other.exclusives.contains group) :
    element = other := by
  have hstatics : element.statics = other.statics := SortedList.ext_of_find? fun id =>
    Option.map_injective (fun _ _ h => Attachment.static.inj h) (hat (.static id))
  have hdynamics : element.dynamics = other.dynamics := SortedList.ext_of_find? fun id =>
    Option.map_injective (fun a b h => by injection h with h h'; exact Prod.ext h h')
      (hat (.dynamic id))
  have hobjects : ∀ group, element.groupObjects group = other.groupObjects group := fun group =>
    SortedList.ext_of_find? fun id =>
      Option.map_injective (fun _ _ h => (Attachment.exclusive.inj h).2) (hat (.exclusive group id))
  -- For groups it must be known as well which of them are there.
  have hexclusives : element.exclusives = other.exclusives := by
    refine SortedList.ext_of_find? fun group => ?_
    rw [find?_exclusives, find?_exclusives, hobjects, Bool.eq_iff_iff.2 (hgroups group)]
  cases element
  cases other
  simp_all

/-! ### All objects -/

/-- The element holds the object by its id, in whatever way, if the id is among those
of all objects. The objects are listed once for each id, so it may be another object
that is listed. -/
theorem isAttached_iff (element : Element) (object : Object) :
    element.isAttached object ↔ object.id ∈ element.objects.map Object.id := by
  -- The list of all objects has the ids of those that are attached.
  have hlisted : object.id ∈ element.objects.map Object.id ↔
      ∃ attached, element.Attaches attached ∧ attached.id = object.id := by
    rw [List.mem_map]
    constructor
    · rintro ⟨listed, hlisted, hid⟩
      exact ⟨listed, attaches_of_mem_objects hlisted, hid⟩
    · rintro ⟨attached, hattached, hid⟩
      obtain ⟨listed, hlisted, hsame⟩ := exists_mem_objects hattached
      exact ⟨listed, hlisted, hsame.trans hid⟩
  rw [hlisted, isAttached, isStatic]
  simp only [Bool.or_eq_true, List.any_eq_true, SortedList.contains_iff_exists, Attaches]
  constructor
  · rintro ((⟨attached, h, hid⟩ | ⟨entry, h, hid⟩) | ⟨entry, hentry, attached, h, hid⟩)
    · exact ⟨attached, .inl h, hid⟩
    · exact ⟨entry.1, .inr (.inl ⟨entry.2, h⟩), hid⟩
    · exact ⟨attached, .inr (.inr ⟨entry, hentry, h⟩), hid⟩
  · rintro ⟨attached, h | ⟨condition, h⟩ | ⟨entry, hentry, h⟩, hid⟩
    · exact .inl (.inl ⟨attached, h, hid⟩)
    · exact .inl (.inr ⟨(attached, condition), h, hid⟩)
    · exact .inr ⟨entry, hentry, attached, h, hid⟩

/-- All objects come in the order of their ids, each once. With this they are
determined by which of them there are. -/
theorem ascending_objects (element : Element) :
    (element.objects.map Object.id).Pairwise fun a b => compare a b = .lt :=
  List.pairwise_map.2 (SortedList.ascending _)

/-! ### Other orders -/

/-- The calls are made in another order, where calls for one conditional object stay
in theirs, or some of them are made again. A call that is made again must come behind
the first one. -/
inductive Rearranged : List Attachment → List Attachment → Prop where
  | reordered {calls calls' : List Attachment} (h : calls.Perm calls')
      (hdynamic : ∀ id, calls.filter (·.place = .dynamic id)
        = calls'.filter (·.place = .dynamic id)) : Rearranged calls calls'
  | repeated (before between after : List Attachment) (call : Attachment) :
      Rearranged (before ++ call :: between ++ after) (before ++ call :: between ++ call :: after)
  | trans {calls calls' calls'' : List Attachment} (h : Rearranged calls calls')
      (h' : Rearranged calls' calls'') : Rearranged calls calls''

/-- The calls are the same, though some may be there more often. An element that has
all of them once is not changed by one that comes again. -/
theorem Rearranged.mem_iff (h : Rearranged calls calls') (call : Attachment) :
    call ∈ calls' ↔ call ∈ calls := by
  induction h with
  | reordered h => exact h.mem_iff.symm
  | repeated before between after again =>
    simp only [List.mem_append, List.mem_cons]
    tauto
  | trans _ _ ih ih' => exact ih'.trans ih

/-- The first call for a conditional object is the same, since those calls stay in
their order. -/
theorem Rearranged.first_dynamic (h : Rearranged calls calls') (id : ObjectId) :
    calls'.find? (·.place = .dynamic id) = calls.find? (·.place = .dynamic id) := by
  induction h with
  | reordered h hdynamic => rw [← List.head?_filter, ← List.head?_filter, hdynamic]
  | repeated before between after again =>
    by_cases hplace : again.place = .dynamic id <;> simp [List.find?_append, hplace]
  | trans _ _ ih ih' => exact ih'.trans ih

/-- The blocks of the objects that are attached are told apart by their ids. Otherwise
two objects could be meant for one place. -/
def TellsApart (calls : List Attachment) : Prop :=
  ∀ a ∈ calls, ∀ b ∈ calls, a.object.block.id = b.object.block.id → a.object.block = b.object.block

/-- A library keeps one block for each id, so its blocks are told apart. So the
hypothesis about ids holds wherever the objects come from one library. -/
theorem tellsApart_of_registered {library : Library}
    (h : ∀ call ∈ calls, call.object.block ∈ library.blocks) : TellsApart calls :=
  fun a ha b hb hid => SortedList.eq_of_key_eq (h a ha) (h b hb) hid

/-- Two calls for one place are the same, unless the object there is conditional. The
place has the id of the object, by which it is known, and nothing else is said in the
call. -/
theorem TellsApart.eq_of_place (h : TellsApart calls) {a b : Attachment} (ha : a ∈ calls)
    (hb : b ∈ calls) (hplace : a.place = b.place) (hdynamic : ∀ id, a.place ≠ .dynamic id) :
    a = b := by
  have hobject : a.object.id = b.object.id → a.object = b.object := fun hid => by
    refine Object.eq_of_id_eq hid (h a ha b hb ?_)
    rw [← a.object.block_id, ← b.object.block_id, hid]
  -- The ways of attaching are those of the place, so they are the same.
  cases a with
  | static object =>
    cases b with
    | static object' => exact congrArg _ (hobject (Place.static.inj hplace))
    | _ => cases hplace
  | dynamic object condition => exact absurd rfl (hdynamic object.id)
  | exclusive group object =>
    cases b with
    | exclusive group' object' =>
      obtain ⟨rfl, hid⟩ := Place.exclusive.inj hplace
      exact congrArg _ (hobject hid)
    | _ => cases hplace

/-- Where all calls for a place are the same, each of them is the first. So it does
not matter in which order they are made. -/
theorem TellsApart.find?_eq_some_iff (h : TellsApart calls)
    (hmem : ∀ call, call ∈ calls' ↔ call ∈ calls) {place : Place}
    (hdynamic : ∀ id, place ≠ .dynamic id) (call : Attachment) :
    calls'.find? (·.place = place) = some call ↔ call ∈ calls ∧ call.place = place := by
  have hplace : ∀ first, calls'.find? (·.place = place) = some first →
      first ∈ calls ∧ first.place = place := fun first hfirst =>
    ⟨(hmem first).1 (List.mem_of_find?_eq_some hfirst), by simpa using List.find?_some hfirst⟩
  refine ⟨hplace call, ?_⟩
  rintro ⟨hcall, rfl⟩
  have hsome : (calls'.find? (·.place = call.place)).isSome :=
    List.find?_isSome.2 ⟨call, (hmem call).2 hcall, by simp⟩
  obtain ⟨first, hfirst⟩ := Option.isSome_iff_exists.1 hsome
  obtain ⟨hin, hsame⟩ := hplace first hfirst
  rw [hfirst, h.eq_of_place hin hcall hsame (hsame ▸ hdynamic)]

/-- The first call for any place is the same. For conditional objects this is because
of their order, for all others because calls for one place are the same. -/
theorem Rearranged.first (h : Rearranged calls calls') (hapart : TellsApart calls)
    (place : Place) :
    calls'.find? (·.place = place) = calls.find? (·.place = place) := by
  by_cases hdynamic : ∃ id, place = .dynamic id
  · obtain ⟨id, rfl⟩ := hdynamic
    exact h.first_dynamic id
  · have hother : ∀ id, place ≠ .dynamic id := fun id hid => hdynamic ⟨id, hid⟩
    refine Option.ext fun call => ?_
    rw [hapart.find?_eq_some_iff h.mem_iff hother,
      hapart.find?_eq_some_iff (fun _ => Iff.rfl) hother]

/-- The element is what calls make of an earlier one, whatever their order. Nothing is
said about how it came to be, so that it can be compared for two lists of calls. -/
structure Gathers (before : Element) (calls : List Attachment) (element : Element) : Prop where
  id : element.id = before.id
  position : element.position = before.position
  /-- What was there stays, and of several conditions for an object the first is kept. -/
  first : ∀ place, element.at? place = (before.at? place).or (calls.find? (·.place = place))
  groups : ∀ group, element.exclusives.contains group ↔
    before.exclusives.contains group ∨ ∃ object, .exclusive group object ∈ calls
  ascending : (element.objects.map Object.id).Pairwise fun a b => compare a b = .lt
  attached_iff : ∀ object, element.isAttached object ↔
    object.id ∈ element.objects.map Object.id

/-- Making the calls leads to such an element. What such an element is like does not
speak of the order of the calls. -/
theorem gathers_attachAll (element : Element) (calls : List Attachment) :
    Gathers element calls (element.attachAll calls) where
  id := element.id_attachAll calls
  position := element.position_attachAll calls
  first := element.at?_attachAll calls
  groups := element.contains_attachAll calls
  ascending := (element.attachAll calls).ascending_objects
  attached_iff := (element.attachAll calls).isAttached_iff

/-- There is only one element that calls make of an earlier one. An element is what is
at its places, and of each place it is known what is there. -/
theorem Gathers.unique {before : Element} (h : Gathers before calls element)
    (h' : Gathers before calls other) : element = other :=
  ext_of_at? (h.id.trans h'.id.symm) (h.position.trans h'.position.symm)
    (fun place => (h.first place).trans (h'.first place).symm)
    (fun group => (h.groups group).trans (h'.groups group).symm)

/-- Calls that have been rearranged gather the same. Only the first call for each
place and the calls themselves count, and these are the same. -/
theorem Gathers.rearranged {before : Element} (h : Gathers before calls' element)
    (hcalls : Rearranged calls calls') (hapart : TellsApart calls) :
    Gathers before calls element where
  id := h.id
  position := h.position
  first place := by rw [h.first, hcalls.first hapart]
  groups group := by simp only [h.groups, hcalls.mem_iff]
  ascending := h.ascending
  attached_iff := h.attached_iff

/-- The same calls in another order, or some of them again, lead to the same element,
which can be ended with the same result and is written down in the same way. Both
elements gather the same, and that leaves only one. Conditions of one object may
differ, and then the first is kept; so two calls with different conditions must keep
their order, which is part of what a rearrangement is. -/
theorem attachAll_rearranged (hcalls : Rearranged calls calls') (hapart : TellsApart calls)
    (element : Element) :
    Gathers element calls (element.attachAll calls)
      ∧ Gathers element calls (element.attachAll calls')
      ∧ element.attachAll calls' = element.attachAll calls
      ∧ (element.attachAll calls').objects = (element.attachAll calls).objects
      ∧ (∀ analysis : Analysis,
        analysis.finish (element.attachAll calls') = analysis.finish (element.attachAll calls))
      ∧ (element.attachAll calls').toEntry = (element.attachAll calls).toEntry := by
  have hgathers := (element.gathers_attachAll calls').rearranged hcalls hapart
  have hsame : element.attachAll calls' = element.attachAll calls :=
    hgathers.unique (element.gathers_attachAll calls)
  refine ⟨element.gathers_attachAll calls, hgathers, hsame, ?_, fun analysis => ?_, ?_⟩
  all_goals rw [hsame]

/-- The static call comes last, and a conditional one is made again. Of the two
conditions that are given for the button the first one stays. The call that is made
again comes behind the others, and changes nothing. -/
theorem attachAll_rearranged_repeated :
    let block : Block :=
      { Block.bare 1 "menu" "/menu.css" [] with others := [⟨"button", [], .empty⟩] }
    let root : Object := .cls block.rootRef
    let button : Object := .cls ⟨block, ⟨1, by decide⟩⟩
    let isOpen : Attachment := .dynamic button (some "isOpen")
    let isLast : Attachment := .dynamic button (some "isLast")
    let element := Element.bare 7 .unknown
    let calls := [.static root, isOpen, .exclusive "size" root, isLast]
    let calls' := [isOpen, .exclusive "size" root, isLast, .static root, isOpen]
    Rearranged calls calls' ∧ TellsApart calls
      ∧ element.attachAll calls' = element.attachAll calls
      ∧ (element.attachAll calls').at? isOpen.place = some isOpen := by
  intro block root button isOpen isLast element calls calls'
  -- First the static call is moved to the end, then a conditional one is repeated.
  have hordered : Rearranged calls [isOpen, .exclusive "size" root, isLast, .static root] :=
    .reordered (List.perm_append_singleton _ [isOpen, .exclusive "size" root, isLast]).symm
      fun id => rfl
  have hcalls : Rearranged calls calls' :=
    hordered.trans (.repeated [] [.exclusive "size" root, isLast, .static root] [] isOpen)
  have hapart : TellsApart calls := by
    refine @tellsApart_of_registered _ (Library.empty.register block) fun call hcall => ?_
    have hblock : call.object.block = block := by
      simp only [calls, List.mem_cons, List.not_mem_nil, or_false] at hcall
      rcases hcall with rfl | rfl | rfl | rfl <;> rfl
    rw [hblock]
    exact List.mem_singleton_self block
  obtain ⟨-, hgathers, hsame, -⟩ := attachAll_rearranged hcalls hapart element
  exact ⟨hcalls, hapart, hsame, hgathers.first isOpen.place⟩

end Element

end BlockStyles
