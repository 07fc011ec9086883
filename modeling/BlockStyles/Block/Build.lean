import BlockStyles.Block.Declare
import BlockStyles.Block.Lookup
import BlockStyles.Error
import BlockStyles.Stylesheet.Basic
import BlockStyles.Text.Quoted

/-!
# `BlockStyles.Block.Build`: from the rules of a stylesheet to a block

The rules are gone through in order. The compounds of a rule's selectors declare
objects; the keys are what its declarations apply to. The properties `extends`
and `block-name` speak of the block itself and stand only in a plain `.root`
rule. A value `resolve("…")` is a resolution, whose target must exist once the
block is complete.
-/

set_option autoImplicit false

namespace BlockStyles

open BlockStyles.Selector (Chain Part)
open BlockStyles.Text (isIdentifier trim unquote)

/-- A block in the making. -/
structure Draft where
  block : Block
  /-- The targets of resolutions so far, with the places where they stand. -/
  targets : List (String × Location)

/-- What a declaration applies to: an object, and whether the rule speaks of
nothing but the root. -/
structure Key where
  object : ObjectName
  isPlainRoot : Bool

/-- The property that names the base block. -/
def extendsProperty : String := "extends"

/-- The property that names the block. -/
def nameProperty : String := "block-name"

/-! ### Selectors -/

namespace Block

/-- Declares the objects that the parts of a selector name. The answer is the
block and the object of the last part. -/
def declareParts (block : Block) : List Part → Except SelectorFault (Block × ObjectName)
  | [] => .error .noObject
  | [key] =>
    match ObjectName.ofCompound true key.compound with
    | .error fault => .error fault
    | .ok object => (block.declare object).map (·, object)
  | part :: next :: parts =>
    match ObjectName.ofCompound false part.compound with
    | .error fault => .error fault
    | .ok object =>
      match block.declare object with
      | .error fault => .error fault
      | .ok block => block.declareParts (next :: parts)

/-- Whether a selector is nothing but the root class. -/
def isPlainRoot (selector : Chain) : Bool :=
  match selector.parts with
  | [⟨[.cls name], _⟩] => name == rootName
  | _ => false

/-- Declares the objects of a selector and answers what the declarations behind
it apply to. -/
def declareSelector (location : Location) (block : Block) (selector : Chain) :
    Except Error (Block × Key) :=
  match block.declareParts selector.parts with
  | .error fault => .error (.located location (.selector fault selector))
  | .ok (block, object) => .ok (block, ⟨object, isPlainRoot selector⟩)

/-- Declares the objects of selectors, one after the other. -/
def declareSelectors (location : Location) (block : Block) :
    List Chain → Except Error (Block × List Key)
  | [] => .ok (block, [])
  | selector :: selectors =>
    match block.declareSelector location selector with
    | .error error => .error error
    | .ok (block, key) =>
      (block.declareSelectors location selectors).map fun (block, keys) => (block, key :: keys)

end Block

/-! ### Declarations -/

/-- The text between a front and an end part of `text`. -/
def between? (front back text : List Char) : Option (List Char) :=
  if front.isPrefixOf text then
    let inner := text.drop front.length
    if back.isSuffixOf inner then some (inner.take (inner.length - back.length)) else none
  else
    none

/-- The reference of a value `resolve(…)`, with or without quotes. -/
def resolveTarget? (value : List Char) : Option String :=
  match between? "resolve(".toList [')'] value with
  | none => none
  | some inner =>
    match unquote (trim inner) with
    | [] => none
    | reference => some (.ofList reference)

namespace Draft

/-- Makes the block that an alias means the base. -/
def extend (draft : Draft) (location : Location) (localName : String) : Except Error Draft :=
  match draft.block.referenced? localName with
  | none => .error (.located location (.unknownBase localName))
  | some base =>
    match draft.block.base with
    | some present =>
      if present.id = base.id then
        .ok { draft with block := { draft.block with base := some base } }
      else
        .error (.located location (.secondBase present.name))
    | none => .ok { draft with block := { draft.block with base := some base } }

/-- Gives the block a name, which may be quoted. -/
def rename (draft : Draft) (location : Location) (value : List Char) : Except Error Draft :=
  let name := String.ofList (unquote value)
  if isIdentifier name then
    .ok { draft with block := { draft.block with name } }
  else
    .error (.located location (.illegalBlockName name))

/-- Sets a property on an object, and records a resolution if the value is one. -/
def setProperty (draft : Draft) (location : Location) (object : ObjectName) (property : String)
    (value : List Char) : Draft :=
  match resolveTarget? value with
  | none =>
    { draft with
      block := draft.block.restyle object fun style =>
        { style with properties := style.properties.insertNew property } }
  | some target =>
    { block := draft.block.restyle object fun style =>
        { properties := style.properties.insertNew property
          resolutions := style.resolutions ++ [⟨property, target⟩] }
      targets := draft.targets ++ [(target, location)] }

/-- Applies a declaration to the key of a selector. -/
def applyTo (declaration : Declaration) (draft : Draft) (key : Key) : Except Error Draft :=
  let location : Location := ⟨draft.block.identifier, declaration.position⟩
  let value := trim declaration.value.toList
  if declaration.property = extendsProperty ∨ declaration.property = nameProperty then
    -- A misplaced property is reported whatever its value is.
    if !key.isPlainRoot then
      .error (.located location (.misplacedProperty declaration.property))
    else if declaration.property = extendsProperty then
      draft.extend location (.ofList value)
    else
      draft.rename location value
  else
    .ok (draft.setProperty location key.object declaration.property value)

/-- Applies a declaration to all keys of a rule. -/
def apply (keys : List Key) (draft : Draft) (declaration : Declaration) : Except Error Draft :=
  keys.foldlM (applyTo declaration) draft

/-! ### Rules -/

/-- Adds a rule: its selectors, then its declarations. -/
def addRule (draft : Draft) (rule : Rule) : Except Error Draft :=
  let location : Location := ⟨draft.block.identifier, rule.position⟩
  match draft.block.declareSelectors location rule.selectors with
  | .error error => .error error
  | .ok (block, keys) => rule.declarations.foldlM (apply keys) { draft with block }

/-- The block, once all targets of its resolutions are found. -/
def finish (draft : Draft) : Except Error Block :=
  match draft.targets.find? fun (target, _) => (draft.block.lookup? target).isNone with
  | some (target, location) => .error (.located location (.unknownTarget target))
  | none => .ok draft.block

end Draft

/-- The block that rules describe, given its references. -/
def Block.ofRules (id : Nat) (name identifier : String) (references : List (String × Block))
    (rules : List Rule) : Except Error Block :=
  match rules.foldlM Draft.addRule ⟨.bare id name identifier references, []⟩ with
  | .error error => .error error
  | .ok draft => draft.finish

end BlockStyles
