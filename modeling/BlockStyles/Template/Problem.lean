/-!
# `BlockStyles.Template.Problem`: what is wrong with an element

A validator reports problems of an element of a template. Objects are given by
their text.
-/

set_option autoImplicit false

namespace BlockStyles

/-- What a validator has found. -/
inductive Problem where
  /-- Two states of one group are both attached for good. -/
  | sameGroup (group first second : String)
  /-- The root of a block and another class of it are on one element. -/
  | rootAndClass (root cls block : String)
  /-- Two classes of a block are on one element. -/
  | classPair (first second : String)
  /-- A state is on an element without its class. -/
  | orphanState (state owner : String)
  /-- Two objects set a property and neither says which one is to win. -/
  | unresolved (property first second : String)
  /-- The finding of a validator from outside. -/
  | reported (message : String)
deriving DecidableEq, Repr

namespace Problem

/-- What is wrong, in words. -/
def message : Problem → String
  | sameGroup group first second =>
    "Cannot statically apply more than one state of group \"" ++ group ++ "\": \"" ++ first
      ++ "\" and \"" ++ second ++ "\""
  | rootAndClass root cls block =>
    "Cannot put block classes on the block's root element: \"" ++ root ++ "\" and \"" ++ cls
      ++ "\" of block \"" ++ block ++ "\""
  | classPair first second =>
    "Classes \"" ++ first ++ "\" and \"" ++ second
      ++ "\" from the same block are not allowed on the same element at the same time."
  | orphanState state owner =>
    "Cannot use state \"" ++ state ++ "\" without its class \"" ++ owner
      ++ "\" also applied to the element."
  | unresolved property first second =>
    "The property \"" ++ property ++ "\" is set by both \"" ++ first ++ "\" and \"" ++ second
      ++ "\" on the same element and must be resolved."
  | reported text => text

end Problem

end BlockStyles
