import BlockStyles.SortedList

/-!
# `BlockStyles.Block.Basic`: blocks

A block is what a stylesheet declares: a root class and further classes, and on
each class states, which are boolean or belong to a group. Each of these objects
has a style: the properties that are set on it, and how clashes with other
objects over a property are resolved. A block may extend a base block, and it
knows other blocks by aliases.

Blocks are told apart by their ids. A block is a finite tree of the blocks it extends
and refers to, so its lineage ends.
-/

set_option autoImplicit false

namespace BlockStyles

/-- A statement that a clash over a property with the object `target` is settled. -/
structure Resolution where
  property : String
  target : String
deriving DecidableEq, Repr

/-- The properties set on an object, and its resolutions in the order in which
they are written. -/
structure Style where
  properties : SortedList (id : String → String)
  resolutions : List Resolution
deriving DecidableEq, Inhabited

/-- The style of an object nothing is set on. -/
def Style.empty : Style := ⟨.empty, []⟩

/-- What a state is called: boolean states have a name, others a name in a group. -/
structure StateName where
  group : Option String
  name : String
deriving DecidableEq, Repr, Inhabited

/-- A state of a class. -/
structure StateData where
  label : StateName
  style : Style
deriving DecidableEq, Inhabited

/-- A class with its states in the order of their declaration. -/
structure ClassData where
  name : String
  states : List StateData
  style : Style
deriving DecidableEq, Inhabited

/-- The name of the class that stands for the block itself. -/
def rootName : String := "root"

/-- The name of the namespace whose attributes are states. -/
def stateSpace : String := "state"

/-- A class that is named and nothing else. -/
def ClassData.bare (name : String) : ClassData := ⟨name, [], .empty⟩

/-- A compiled stylesheet. -/
structure Block where
  /-- The number that tells the block from all others. -/
  id : Nat
  name : String
  /-- The identifier of the file the block comes from. -/
  identifier : String
  base : Option Block
  /-- The blocks that are referred to, by alias, in the order of the references. -/
  references : List (String × Block)
  root : ClassData
  /-- The classes besides the root, in the order of their declaration. -/
  others : List ClassData
deriving Inhabited

namespace Block

/-- A block that declares nothing yet. -/
def bare (id : Nat) (name identifier : String) (references : List (String × Block)) : Block where
  id
  name
  identifier
  base := none
  references
  root := .bare rootName
  others := []

/-- All classes, the root first. -/
def classes (block : Block) : List ClassData :=
  block.root :: block.others

/-- The block, its base, the base of that, and so on. -/
def lineage : Block → List Block
  | block@⟨_, _, _, none, _, _, _⟩ => [block]
  | block@⟨_, _, _, some base, _, _, _⟩ => block :: base.lineage

/-- Whether a block is another one or extends it, directly or not. -/
def inherits (block other : Block) : Bool :=
  block.lineage.any (·.id == other.id)

/-- Whether one of two blocks inherits from the other. -/
def isRelatedTo (block other : Block) : Bool :=
  block.inherits other || other.inherits block

/-- The block that is referred to by an alias. -/
def referenced? (block : Block) (localName : String) : Option Block :=
  block.references.lookup localName

end Block

end BlockStyles
