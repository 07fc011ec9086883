import BlockStyles.Block.Basic
import BlockStyles.Block.SelectorFault
import BlockStyles.Text.Identifier

/-!
# `BlockStyles.Block.Selected`: which object a compound selector names

In the stylesheet of a block each compound selector names one object: a class,
a state of the root, or a state of a class. On the key of a selector
pseudo-classes and pseudo-elements may follow the object; everything else is a
fault. The simple selectors are gone through from left to right, and the first
fault counts.
-/

set_option autoImplicit false

namespace BlockStyles

open BlockStyles.Selector (Attribute Compound Simple)
open BlockStyles.Text (isIdentifier)

/-- The name of an object in its block: a class, and perhaps a state of it. -/
structure ObjectName where
  cls : String
  state : Option StateName
deriving DecidableEq, Repr

/-- The class and the state that have been named so far. -/
structure Selected where
  cls : Option String
  state : Option StateName
deriving DecidableEq, Repr

namespace Selected

/-- Nothing named yet. -/
def nothing : Selected := ⟨none, none⟩

/-- Whether no object has been named. -/
def isNothing (selected : Selected) : Bool :=
  selected.cls.isNone && selected.state.isNone

/-- The state that an attribute names. The value is the name of the state and the attribute
the name of its group; without a value the attribute is the state. -/
def stateOf (attr : Attribute) : Except SelectorFault StateName :=
  match attr.value with
  | some value =>
    if !isIdentifier attr.name then .error (.illegalGroup attr.name)
    else if !isIdentifier value then .error (.illegalState value)
    else .ok ⟨some attr.name, value⟩
  | none =>
    if !isIdentifier attr.name then .error (.illegalState attr.name)
    else .ok ⟨none, attr.name⟩

/-- Goes on by one simple selector. -/
def add (isKey : Bool) (selected : Selected) : Simple → Except SelectorFault Selected
  | .cls name =>
    if selected.state.isSome then
      .error .classBehindState
    else
      match selected.cls with
      | some first =>
        if first = rootName ∨ name = rootName then .error .classOnRoot else .error .twoClasses
      | none => .ok { selected with cls := some name }
  | .attr attr =>
    if attr.isIn stateSpace then
      if selected.state.isSome then
        .error .twoStates
      else
        (stateOf attr).map fun state => { selected with state := some state }
    else
      .error (.foreignAttribute attr)
  | .pseudoClass _ => pseudo
  | .pseudoElement _ => pseudo
  | .type name => .error (.typeSelector name)
  | .id name => .error (.idSelector name)
  | .universal => .error .universalSelector
  | .parent => .error .parentSelector
where
  /-- A pseudo selector adds nothing, but it has to follow an object on the key. -/
  pseudo : Except SelectorFault Selected :=
    if !isKey then .error .pseudoOffKey
    else if selected.isNothing then .error .noObject
    else .ok selected

end Selected

/-- The object that a compound selector names. -/
def ObjectName.ofCompound (isKey : Bool) (compound : Compound) : Except SelectorFault ObjectName :=
  match compound.foldlM (Selected.add isKey) .nothing with
  | .error fault => .error fault
  | .ok selected =>
    if selected.isNothing then .error .noObject
    else .ok ⟨selected.cls.getD rootName, selected.state⟩

end BlockStyles
