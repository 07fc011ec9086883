import BlockStyles.Block.Object
import BlockStyles.Selector.Reader

/-!
# `BlockStyles.Block.Lookup`: finding the objects of a block

Classes and states are looked for along the lineage of a block: what a block
does not declare itself it has from the nearest base that does. A state is
looked for on the classes of the same name. Objects can also be named by text,
by a selector or by a selector behind the alias of another block.
-/

set_option autoImplicit false

namespace BlockStyles

open BlockStyles.Text (trim)
open BlockStyles.Selector (Attribute Compound Simple)

namespace ClassRef

/-- The classes of the same name along the lineage of the block, nearest first. -/
def namesakes (ref : ClassRef) : List ClassRef :=
  ref.block.lineage.filterMap (·.ownClass? ref.name)

/-- The state of the class that is called so, or the nearest inherited one. -/
def state? (ref : ClassRef) (label : StateName) : Option StateRef :=
  ref.namesakes.findSome? (·.ownState? label)

/-- The states of a group that can be reached on the class: an inherited state
is left out if a nearer class declares one of the same name. -/
def groupStates (ref : ClassRef) (group : String) : List StateRef :=
  (ref.namesakes.flatMap ClassRef.states).filter fun state =>
    state.label.group == some group
      && (ref.state? ⟨some group, state.label.name⟩).any fun found =>
        (Object.state found).id == (Object.state state).id

end ClassRef

/-- What a selector asks for: a class, or else the root, and perhaps a state of it. -/
structure Sought where
  cls : Option String
  state : Option StateName

namespace Sought

/-- The state that an attribute in the namespace of states stands for. -/
def stateOf? (attr : Attribute) : Option StateName :=
  if attr.isIn stateSpace then
    match attr.value with
    | some value => some ⟨some attr.name, value⟩
    | none => some ⟨none, attr.name⟩
  else
    none

/-- What a compound selector asks for: only a class, only a state, or a class and
a state of it. -/
def ofCompound? : Compound → Option Sought
  | [.cls name] => some ⟨some name, none⟩
  | [.attr attr] => (stateOf? attr).map fun state => ⟨none, some state⟩
  | [.cls name, .attr attr] => (stateOf? attr).map fun state => ⟨some name, some state⟩
  | _ => none

/-- What a selector asks for. White space around it does not matter, and an empty
one asks for the root. -/
def ofSelector? (selector : List Char) : Option Sought :=
  match trim selector with
  | [] => some ⟨none, none⟩
  | text =>
    match Compound.read text with
    | .ok (compound, []) => ofCompound? compound
    | _ => none

end Sought

namespace Block

/-- The class of a name, of the block or of the nearest base that has one. -/
def class? (block : Block) (name : String) : Option ClassRef :=
  block.lineage.findSome? (·.ownClass? name)

/-- The state of the root that is called so. -/
def rootState? (block : Block) (label : StateName) : Option StateRef :=
  block.rootRef.state? label

/-- The object that is asked for. -/
def sought? (block : Block) (sought : Sought) : Option Object :=
  let cls? :=
    match sought.cls with
    | some name => block.class? name
    | none => some block.rootRef
  match cls?, sought.state with
  | none, _ => none
  | some cls, none => some (.cls cls)
  | some cls, some label => (cls.state? label).map .state

/-- The object of a selector. -/
def findObject? (block : Block) (selector : List Char) : Option Object :=
  (Sought.ofSelector? selector).bind block.sought?

/-- The block that an alias means: the one referred to by it in the nearest block
of the lineage, or the block itself for an empty alias. -/
def aliased? (block : Block) (localName : List Char) : Option Block :=
  match localName with
  | [] => some block
  | _ => block.lineage.findSome? (·.referenced? (.ofList localName))

/-- Whether a character starts the selector of a reference. -/
def startsSelector (c : Char) : Bool :=
  c == '.' || c == '['

/-- The object that a reference means: an alias, then a selector in that block. -/
def lookup? (block : Block) (reference : String) : Option Object :=
  let text := reference.toList
  (block.aliased? (text.takeWhile (!startsSelector ·))).bind
    (·.findObject? (text.dropWhile (!startsSelector ·)))

end Block

end BlockStyles
