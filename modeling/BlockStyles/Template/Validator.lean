import BlockStyles.Block.Lookup
import BlockStyles.Template.Element
import BlockStyles.Template.Problem

/-!
# `BlockStyles.Template.Validator`: rules for elements

A validator looks at an element and reports what is wrong with it. Four are
built in and can be switched off one by one; others come from outside. One rule
always holds and goes first: two static states of one group must not meet on a class.
The first problem found is the one that is reported.
-/

set_option autoImplicit false

namespace BlockStyles

/-- What a validator may know besides the element: the template, and the blocks
by their aliases in it. -/
structure Context where
  template : String
  blocks : SortedList (Prod.fst : String × Block → String)

namespace Context

/-- The first alias of a block that is the given one or extends it. -/
def aliasFor? (context : Context) (block : Block) : Option String :=
  (context.blocks.toList.find? (·.2.inherits block)).map Prod.fst

end Context

/-- The first answer for two members of a list, one before the other. -/
def firstOfPairs {α β : Type} (answer : α → α → Option β) : List α → Option β
  | [] => none
  | a :: rest =>
    match rest.findSome? (answer a) with
    | some b => some b
    | none => firstOfPairs answer rest

/-! ### States of one group -/

/-- Whether two classes are the same class as far as states go: of one name, in
blocks of one line. -/
def sameScope (a b : ClassRef) : Bool :=
  a.name == b.name && a.block.isRelatedTo b.block

/-- Finds two static states of one group on the same class. -/
def sameGroupProblem (element : Element) : Option Problem :=
  firstOfPairs (fun a b =>
    match a.label.group with
    | some group =>
      if b.label.group == some group && sameScope a.cls b.cls then
        some (.sameGroup group (Object.state a).qualifiedName (Object.state b).qualifiedName)
      else
        none
    | none => none)
    (element.statics.toList.filterMap Object.state?)

/-! ### The built-in validators -/

/-- The validators that come with the library. -/
inductive BuiltIn where
  | noRootClasses
  | noClassPairs
  | noStateOrphans
  | noRequiredResolution
deriving DecidableEq, Repr

namespace BuiltIn

/-- All of them, in the order in which they run. -/
def all : List BuiltIn := [noRootClasses, noClassPairs, noStateOrphans, noRequiredResolution]

/-- What a validator is called. -/
def name : BuiltIn → String
  | noRootClasses => "no-root-classes"
  | noClassPairs => "no-class-pairs"
  | noStateOrphans => "no-state-orphans"
  | noRequiredResolution => "no-required-resolution"

/-- The validator of a name. -/
def ofName? (name : String) : Option BuiltIn :=
  all.find? (·.name == name)

end BuiltIn

/-- Finds the root of a block together with another class of it. -/
def rootAndClassProblem (element : Element) : Option Problem :=
  let classes := element.objects.filterMap Object.cls?
  (classes.filter (·.isRoot)).findSome? fun root =>
    (classes.find? fun cls => !cls.isRoot && cls.block.id == root.block.id).map fun cls =>
      .rootAndClass root.source cls.source root.block.name

/-- The first class of a list that is not the first of its block, behind the one
of that block before it. -/
def secondOfBlock? (seen : List ClassRef) : List ClassRef → Option (ClassRef × ClassRef)
  | [] => none
  | cls :: rest =>
    match seen.find? (·.block.id == cls.block.id) with
    | some previous => some (previous, cls)
    | none => secondOfBlock? (cls :: seen) rest

/-- Finds two static classes of a block besides the root. -/
def classPairProblem (element : Element) : Option Problem :=
  let classes := (element.statics.toList.filterMap Object.cls?).filter (!·.isRoot)
  (secondOfBlock? [] classes).map fun (first, second) => .classPair first.source second.source

/-- Finds a state whose class is not there, neither from its own block nor from
one that extends it. -/
def orphanStateProblem (element : Element) : Option Problem :=
  let objects := element.objects
  let isOwned (state : StateRef) : Bool :=
    (objects.filterMap Object.cls?).any fun cls =>
      cls.name == state.cls.name && cls.block.inherits state.block
  ((objects.filterMap Object.state?).find? (!isOwned ·)).map fun state =>
    .orphanState (Object.state state).qualifiedName (Object.cls state.cls).qualifiedName

/-- Whether an object says how its clash with another one over a property is
settled: by naming it, or its class. -/
def settles (object : Object) (property : String) (other : Object) : Bool :=
  object.style.resolutions.any fun resolution =>
    resolution.property == property
      && (object.block.lookup? resolution.target).any fun target =>
        target.id == other.id
          || target.cls?.any fun cls => (Object.cls cls).id == (Object.cls other.owner).id

/-- Finds two static objects of unrelated blocks that set the same property
without either settling the clash. -/
def unresolvedProblem (element : Element) : Option Problem :=
  firstOfPairs (fun a b =>
    if a.block.isRelatedTo b.block then
      none
    else
      (a.style.properties.toList.find? fun property =>
        b.style.properties.contains property && !settles a property b && !settles b property a).map
          fun property => .unresolved property a.qualifiedName b.qualifiedName)
    element.statics.toList

/-- What a built-in validator finds. -/
def BuiltIn.check (validator : BuiltIn) (element : Element) : Option Problem :=
  match validator with
  | noRootClasses => rootAndClassProblem element
  | noClassPairs => classPairProblem element
  | noStateOrphans => orphanStateProblem element
  | noRequiredResolution => unresolvedProblem element

/-! ### Validators -/

/-- A validator from outside answers the messages that it reports. -/
abbrev Check : Type := Element → Context → List String

/-- A rule for elements. -/
inductive Validator where
  | builtIn (validator : BuiltIn)
  | custom (name : String) (check : Check)

namespace Validator

/-- What the validator is called. -/
def name : Validator → String
  | builtIn validator => validator.name
  | custom name _ => name

/-- How the validator is described. -/
def text : Validator → String
  | builtIn validator => "BuiltIn(" ++ validator.name ++ ")"
  | custom name _ => "Custom(" ++ name ++ ")"

/-- The first problem that the validator finds. -/
def check (element : Element) (context : Context) : Validator → Option Problem
  | builtIn validator => validator.check element
  | custom _ check => (check element context).head?.map .reported

/-- How validators are described together. -/
def listText (validators : List Validator) : String :=
  "[" ++ ", ".intercalate (validators.map text) ++ "]"

end Validator

/-- The first problem of an element: of the states of one group, then of the
validators in their order. -/
def firstProblem (validators : List Validator) (element : Element) (context : Context) :
    Option Problem :=
  match sameGroupProblem element with
  | some problem => some problem
  | none => validators.findSome? (·.check element context)

end BlockStyles
