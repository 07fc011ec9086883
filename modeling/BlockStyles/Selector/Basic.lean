/-!
# `BlockStyles.Selector.Basic`: selectors

A *simple* selector states one condition on an element. A *compound* selector
is a run of simple selectors on the same element. A *complex* selector is a
chain of compounds, each part carrying the combinator that leads to the next;
its last compound is the *key*, the element that is styled. Each has one
written form, `text`.
-/

set_option autoImplicit false

namespace BlockStyles.Selector

/-- The condition `[state|size=large]`: an attribute name, perhaps in a namespace
and perhaps with a value. All three are kept as written, without
the quotes around the value. -/
structure Attribute where
  space : Option String
  name : String
  value : Option String
deriving DecidableEq, Repr, Inhabited

namespace Attribute

/-- Whether the attribute is written in the namespace `space`. -/
def isIn (space : String) (attr : Attribute) : Bool :=
  attr.space == some space

/-- The written form: brackets, `|` after the namespace, `=` before the value. -/
def text (attr : Attribute) : String :=
  "["
    ++ (match attr.space with | some space => space ++ "|" | none => "")
    ++ attr.name
    ++ (match attr.value with | some value => "=" ++ value | none => "")
    ++ "]"

end Attribute

/-- One condition on an element. -/
inductive Simple where
  /-- An element type, `div`. -/
  | type (name : String)
  /-- A class, `.button`. -/
  | cls (name : String)
  /-- An element id, `#main`. -/
  | id (name : String)
  /-- Any element, `*`. -/
  | universal
  /-- A pseudo-class, `:hover`. -/
  | pseudoClass (name : String)
  /-- A pseudo-element, `::before`. -/
  | pseudoElement (name : String)
  /-- The element of the enclosing rule, `&`. -/
  | parent
  /-- An attribute, `[href]`. -/
  | attr (condition : Attribute)
deriving DecidableEq, Repr, Inhabited

namespace Simple

/-- The written form of a simple selector. -/
def text : Simple → String
  | type name => name
  | cls name => "." ++ name
  | id name => "#" ++ name
  | universal => "*"
  | pseudoClass name => ":" ++ name
  | pseudoElement name => "::" ++ name
  | parent => "&"
  | attr condition => condition.text

end Simple

/-- Conditions on one element. -/
abbrev Compound : Type := List Simple

/-- The conditions one after another. -/
def Compound.text (compound : Compound) : String :=
  String.join (compound.map Simple.text)

/-- How the next element of a chain relates to this one. -/
inductive Combinator where
  /-- There is no next element. -/
  | none
  /-- Anywhere inside. -/
  | descendant
  /-- Directly inside. -/
  | child
  /-- The next sibling. -/
  | adjacent
  /-- A later sibling. -/
  | general
deriving DecidableEq, Repr, Inhabited

/-- The written form, with one space on each side of a symbol. -/
def Combinator.text : Combinator → String
  | none => ""
  | descendant => " "
  | child => " > "
  | adjacent => " + "
  | general => " ~ "

/-- A compound and the combinator that leads from it to the next part. -/
structure Part where
  compound : Compound
  combinator : Combinator
deriving DecidableEq, Repr, Inhabited

/-- The compound and then the combinator. -/
def Part.text (part : Part) : String :=
  part.compound.text ++ part.combinator.text

/-- A complex selector, which is a chain of compounds. -/
structure Chain where
  parts : List Part
deriving DecidableEq, Repr, Inhabited

namespace Chain

/-- The parts one after another. -/
def text (selector : Chain) : String :=
  String.join (selector.parts.map Part.text)

/-- The compound of the element that is styled. -/
def key? (selector : Chain) : Option Compound :=
  selector.parts.getLast?.map Part.compound

end Chain

/-- The written form of a list of selectors, separated by commas. -/
def listText (selectors : List Chain) : String :=
  ", ".intercalate (selectors.map Chain.text)

end BlockStyles.Selector
