import BlockStyles.Block.Selected

/-!
# `BlockStyles.Block.Declare`: declaring the objects of a block

Naming an object declares it; naming it again changes nothing. A class of the
block and a state or group of the root must not have the same name, and neither
must a boolean state and a group on the same class.
-/

set_option autoImplicit false

namespace BlockStyles

namespace ClassData

/-- Whether the class has the state. -/
def hasState (cls : ClassData) (label : StateName) : Bool :=
  cls.states.any (·.label == label)

/-- The class with a state, which comes last if it is new. -/
def withState (cls : ClassData) (label : StateName) : ClassData :=
  if cls.hasState label then cls else { cls with states := cls.states ++ [⟨label, .empty⟩] }

/-- Whether the class has a boolean state where a group is to be, or a group where
a boolean state is to be. -/
def clashes (cls : ClassData) (label : StateName) : Bool :=
  match label.group with
  | none => cls.states.any (·.label.group == some label.name)
  | some group => cls.states.any (·.label == ⟨none, group⟩)

/-- Whether a state of the class or its group has this name. -/
def speaksOf (cls : ClassData) (name : String) : Bool :=
  cls.states.any fun state => state.label.name == name || state.label.group == some name

/-- The class with the style of one of its objects changed: that of a state, or
its own. -/
def restyle (change : Style → Style) (label : Option StateName) (cls : ClassData) : ClassData :=
  match label with
  | none => { cls with style := change cls.style }
  | some label =>
    { cls with
      states := cls.states.map fun state =>
        if state.label == label then { state with style := change state.style } else state }

end ClassData

namespace Block

/-- Whether the block itself has a class of this name. -/
def hasClass (block : Block) (name : String) : Bool :=
  block.classes.any (·.name == name)

/-- The block with a class, which comes last if it is new. -/
def withClass (block : Block) (name : String) : Block :=
  if block.hasClass name then block else { block with others := block.others ++ [.bare name] }

/-- The block with the classes of one name changed. -/
def changeClass (block : Block) (name : String) (change : ClassData → ClassData) : Block :=
  let changed (cls : ClassData) := if cls.name == name then change cls else cls
  { block with root := changed block.root, others := block.others.map changed }

/-- The classes after one has been asked for: it comes last, and a class that
the block has already is not added again. The root class is never added, as
the block has it from the beginning. -/
theorem classes_withClass (block : Block) (name : String) :
    (block.withClass name).classes
      = if block.hasClass name then block.classes else block.classes ++ [.bare name] := by
  unfold withClass
  split <;> rfl

/-- The classes after those of one name have been changed. The root class and
the others are treated alike, so no lemma about changes has to tell them
apart. -/
theorem classes_changeClass (block : Block) (name : String) (change : ClassData → ClassData) :
    (block.changeClass name change).classes
      = block.classes.map fun cls => if cls.name == name then change cls else cls := rfl

/-- The names that a state brings with it: its own and that of its group. -/
def namesOf (label : StateName) : List String :=
  label.name :: label.group.toList

/-- Declares a state of a class that the block has. -/
def declareState (block : Block) (cls : String) (label : StateName) :
    Except SelectorFault Block :=
  match if cls = rootName then (namesOf label).find? block.hasClass else none with
  | some name => .error (.classAndState name)
  | none =>
    if block.classes.any fun data => data.name == cls && data.clashes label then
      .error (.booleanAndGroup (label.group.getD label.name))
    else
      .ok (block.changeClass cls (·.withState label))

/-- Declares an object: its class, and then the state if there is one. -/
def declare (block : Block) (object : ObjectName) : Except SelectorFault Block :=
  if object.cls ≠ rootName ∧ block.root.speaksOf object.cls then
    .error (.classAndState object.cls)
  else
    match object.state with
    | none => .ok (block.withClass object.cls)
    | some label => (block.withClass object.cls).declareState object.cls label

/-- The block with the style of an object changed. -/
def restyle (block : Block) (object : ObjectName) (change : Style → Style) : Block :=
  block.changeClass object.cls (.restyle change object.state)

end Block

end BlockStyles
