import BlockStyles.Selector.Basic

/-!
# `BlockStyles.Block.SelectorFault`: selectors that no block can have

Every compound selector of a block has to name one of its objects, and the
classes and states of a block must not get in each other's way.
-/

set_option autoImplicit false

namespace BlockStyles

open BlockStyles.Selector (Attribute)

/-- What is wrong with a selector. -/
inductive SelectorFault where
  | classBehindState
  | classOnRoot
  | twoClasses
  | twoStates
  | illegalGroup (name : String)
  | illegalState (name : String)
  | foreignAttribute (attr : Attribute)
  | pseudoOffKey
  | noObject
  | typeSelector (name : String)
  | idSelector (name : String)
  | universalSelector
  | parentSelector
  /-- A class of the block and a state, or a group of states, of its root have the
  same name. -/
  | classAndState (name : String)
  /-- A boolean state and a group of states on one class have the same name. -/
  | booleanAndGroup (name : String)
deriving DecidableEq, Repr

namespace SelectorFault

/-- What is wrong, in words. -/
def message : SelectorFault → String
  | classBehindState => "The class must precede the state"
  | classOnRoot => "Cannot put block classes on the block's root element"
  | twoClasses => "Two distinct classes cannot be selected on the same element"
  | twoStates => "Only one state may be selected per compound selector"
  | illegalGroup name => "Illegal state group name \"" ++ name ++ "\""
  | illegalState name => "Illegal state name \"" ++ name ++ "\""
  | foreignAttribute attr =>
    "Attribute selector " ++ attr.text ++ " is not a state; states use the \"state\" namespace"
  | pseudoOffKey => "Pseudo selectors may only be used on the key selector"
  | noObject => "Missing block object"
  | typeSelector name => "Tag name selectors are not allowed (\"" ++ name ++ "\")"
  | idSelector name => "ID selectors are not allowed (\"#" ++ name ++ "\")"
  | universalSelector => "The universal selector is not allowed"
  | parentSelector => "Unexpected parent selector"
  | classAndState name => "Cannot declare \"" ++ name ++ "\" as both a class and a state"
  | booleanAndGroup name =>
    "Cannot mix boolean and exclusive state \"" ++ name ++ "\" in the same scope"

end SelectorFault

end BlockStyles
