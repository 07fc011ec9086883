import BlockStyles.Block.Object
import BlockStyles.Text.Position

/-!
# `BlockStyles.Template.Element`: the objects on an element of a template

Objects are attached to an element for good, on a condition, or as one choice of
an exclusive group. Attaching the same object again in the same way changes
nothing; for a conditional object the first condition stays.
-/

set_option autoImplicit false

namespace BlockStyles

open BlockStyles.Text (Position)

/-- Objects by id. -/
abbrev ObjectSet : Type := SortedList Object.id

/-- An element with what is attached to it. -/
structure Element where
  /-- The number that tells the element from all others. -/
  id : Nat
  position : Position
  /-- The objects that are always there. -/
  statics : ObjectSet
  /-- The objects that are there on a condition, which need not be known. -/
  dynamics : SortedList fun entry : Object × Option String => entry.1.id
  /-- By group, the objects of which one is there. -/
  exclusives : SortedList (Prod.fst : String × ObjectSet → String)

namespace Element

/-- An element that nothing is attached to. -/
def bare (id : Nat) (position : Position) : Element := ⟨id, position, .empty, .empty, .empty⟩

/-- Attaches an object for good. -/
def addStatic (element : Element) (object : Object) : Element :=
  { element with statics := element.statics.insertNew object }

/-- Attaches an object on a condition. -/
def addDynamic (element : Element) (object : Object) (condition : Option String) : Element :=
  { element with dynamics := element.dynamics.insertNew (object, condition) }

/-- The objects of an exclusive group. -/
def groupObjects (element : Element) (group : String) : ObjectSet :=
  match element.exclusives.find? group with
  | some (_, objects) => objects
  | none => .empty

/-- Attaches an object as a choice of an exclusive group. -/
def addExclusive (element : Element) (group : String) (object : Object) : Element :=
  { element with
    exclusives :=
      element.exclusives.insert (group, (element.groupObjects group).insertNew object) }

/-- All attached objects, in whatever way, by id. -/
def objects (element : Element) : List Object :=
  let attached :=
    element.statics.toList ++ element.dynamics.toList.map Prod.fst
      ++ element.exclusives.toList.flatMap (·.2.toList)
  (attached.foldl SortedList.insertNew (.empty : ObjectSet)).toList

/-- Whether an object is attached for good. -/
def isStatic (element : Element) (object : Object) : Bool :=
  element.statics.contains object.id

/-- Whether an object is attached in any way. -/
def isAttached (element : Element) (object : Object) : Bool :=
  element.isStatic object || element.dynamics.contains object.id
    || element.exclusives.toList.any (·.2.contains object.id)

/-- Whether nothing is attached. -/
def isEmpty (element : Element) : Bool :=
  element.statics.isEmpty && element.dynamics.isEmpty && element.exclusives.isEmpty

end Element

end BlockStyles
