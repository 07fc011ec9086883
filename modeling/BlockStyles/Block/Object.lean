import BlockStyles.Block.Basic

/-!
# `BlockStyles.Block.Object`: the objects of a block

A class or a state of a block is named by a handle: the block and the place of
the class, and of the state in it. Handles are compared by the id of the block
and these places; a class comes before its states.
-/

set_option autoImplicit false

namespace BlockStyles

/-- A class of a block. -/
structure ClassRef where
  block : Block
  index : Fin block.classes.length

namespace ClassRef

/-- What is declared for the class. -/
def data (ref : ClassRef) : ClassData :=
  ref.block.classes[ref.index]

/-- The name of the class. -/
def name (ref : ClassRef) : String :=
  ref.data.name

/-- Whether the class stands for the block itself. -/
def isRoot (ref : ClassRef) : Bool :=
  ref.index.val == 0

/-- The selector of the class. -/
def source (ref : ClassRef) : String :=
  "." ++ ref.name

end ClassRef

/-- A state of a class. -/
structure StateRef where
  cls : ClassRef
  index : Fin cls.data.states.length

namespace StateRef

/-- What is declared for the state. -/
def data (ref : StateRef) : StateData :=
  ref.cls.data.states[ref.index]

/-- What the state is called. -/
def label (ref : StateRef) : StateName :=
  ref.data.label

/-- The block whose class has the state. -/
def block (ref : StateRef) : Block :=
  ref.cls.block

/-- The selector of the state: an attribute, on the class unless that is the root. -/
def source (ref : StateRef) : String :=
  let attr :=
    "[" ++ stateSpace ++ "|"
      ++ (match ref.label.group with | some group => group ++ "=" | none => "")
      ++ ref.label.name ++ "]"
  if ref.cls.isRoot then attr else ref.cls.source ++ attr

end StateRef

namespace ClassRef

/-- The states of the class. -/
def states (ref : ClassRef) : List StateRef :=
  (List.finRange ref.data.states.length).map fun index => ⟨ref, index⟩

/-- The state of the class that is called so. -/
def ownState? (ref : ClassRef) (label : StateName) : Option StateRef :=
  (ref.data.states.findFinIdx? (·.label == label)).map fun index => ⟨ref, index⟩

end ClassRef

/-- A class or a state of a block. -/
inductive Object where
  | cls (ref : ClassRef)
  | state (ref : StateRef)

/-- What tells objects apart: the block, the place of the class, and for a state
its place in the class. -/
structure ObjectId where
  block : Nat
  cls : Nat
  state : Option Nat
deriving DecidableEq, Repr

namespace ObjectId

/-- Ids are ordered by block, then by class, then by state, where the class
itself comes before its states. -/
instance : Ord ObjectId where
  compare := compareLex (compareOn block) (compareLex (compareOn cls) (compareOn state))

/-- Ids can be sorted, as each of the three steps of the comparison is transitive. -/
instance : Std.TransOrd ObjectId :=
  inferInstanceAs <|
    Std.TransCmp (compareLex (compareOn block) (compareLex (compareOn cls) (compareOn state)))

/-- Ids that are in the same place of the order are the same, so a sorted list has
no two objects of one id. -/
instance : Std.LawfulEqOrd ObjectId where
  toReflCmp := inferInstance
  eq_of_compare {a b} h := by
    change compareLex _ (compareLex _ _) a b = .eq at h
    simp only [compareLex_eq_eq, compareOn, Std.LawfulEqOrd.compare_eq_iff_eq] at h
    obtain ⟨hblock, hcls, hstate⟩ := h
    cases a
    cases b
    cases hblock
    cases hcls
    cases hstate
    rfl

end ObjectId

namespace Object

/-- What tells the object from others. -/
def id : Object → ObjectId
  | cls ref => ⟨ref.block.id, ref.index, none⟩
  | state ref => ⟨ref.block.id, ref.cls.index, some ref.index⟩

/-- The class that the object is or belongs to. -/
def owner : Object → ClassRef
  | cls ref => ref
  | state ref => ref.cls

/-- The block that declares the object. -/
def block (object : Object) : Block :=
  object.owner.block

/-- The class that the object is. -/
def cls? : Object → Option ClassRef
  | cls ref => some ref
  | state _ => none

/-- The state that the object is. -/
def state? : Object → Option StateRef
  | cls _ => none
  | state ref => some ref

/-- The name of the object, without its group. -/
def name : Object → String
  | cls ref => ref.name
  | state ref => ref.label.name

/-- The style of the object. -/
def style : Object → Style
  | cls ref => ref.data.style
  | state ref => ref.data.style

/-- The selector of the object in its own block. -/
def source : Object → String
  | cls ref => ref.source
  | state ref => ref.source

/-- The selector behind the name of the block. -/
def qualifiedName (object : Object) : String :=
  object.block.name ++ object.source

end Object

namespace Block

/-- The class that stands for the block. -/
def rootRef (block : Block) : ClassRef :=
  ⟨block, ⟨0, Nat.zero_lt_succ _⟩⟩

/-- The classes of the block, without those of its base. -/
def classRefs (block : Block) : List ClassRef :=
  (List.finRange block.classes.length).map fun index => ⟨block, index⟩

/-- The class of the block itself that has a name. -/
def ownClass? (block : Block) (name : String) : Option ClassRef :=
  (block.classes.findFinIdx? (·.name == name)).map fun index => ⟨block, index⟩

/-- The objects of the block, without those of its base: each class with its
states behind it. -/
def objects (block : Block) : List Object :=
  block.classRefs.flatMap fun ref => .cls ref :: ref.states.map .state

end Block

end BlockStyles
