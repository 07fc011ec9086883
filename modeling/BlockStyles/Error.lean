import BlockStyles.Block.SelectorFault
import BlockStyles.Stylesheet.SyntaxError
import BlockStyles.Template.Problem

/-!
# `BlockStyles.Error`: what can go wrong

Errors are causes with the place they concern. A cause determines the kind of
the error and its message.
-/

set_option autoImplicit false

namespace BlockStyles

open BlockStyles.Text (Position)
open BlockStyles.Selector (Chain)

/-- A place in a file. -/
structure Location where
  file : String
  position : Position
deriving DecidableEq, Repr, Inhabited

namespace Location

/-- A file, without a place in it. -/
def ofFile (file : String) : Location := ⟨file, .unknown⟩

/-- The file, and the position behind a colon if it is known. -/
def text (location : Location) : String :=
  if location.position.isKnown then
    location.file ++ ":" ++ location.position.text
  else
    location.file

end Location

/-- The four kinds of errors. -/
inductive ErrorKind where
  /-- A stylesheet says something it must not. -/
  | ofStylesheet
  /-- A block that is referred to cannot be had. -/
  | ofImport
  /-- The library is used in a way it is not meant to be. -/
  | ofUsage
  /-- An element of a template breaks a rule. -/
  | ofTemplate
deriving DecidableEq, Repr

/-- What went wrong. -/
inductive Cause where
  /-- The source cannot be read as a stylesheet. -/
  | unreadable (fault : SyntaxError)
  /-- A `@block-reference` does not have the form it should have. -/
  | malformedReference (prelude : String)
  /-- Two references have the same alias. -/
  | repeatedAlias (localName : String)
  /-- A selector does not fit into the block. -/
  | selector (fault : SelectorFault) (selector : Chain)
  /-- A declaration about the block itself stands outside a plain root rule. -/
  | misplacedProperty (property : String)
  /-- The block already extends another one. -/
  | secondBase (name : String)
  /-- A block name is no identifier. -/
  | illegalBlockName (name : String)
  /-- A resolution names no object. -/
  | unknownTarget (target : String)
  /-- A block extends an alias it does not refer to. -/
  | unknownBase (localName : String)
  /-- Files refer to each other in a circle. -/
  | cyclicReference (walk : List String)
  /-- References lead through too many files. -/
  | tooDeep (limit : Nat)
  /-- There is no such file. -/
  | missingFile (identifier : String)
  /-- An element is started while another one is open. -/
  | elementOpen
  /-- An element is started after the end of the analysis. -/
  | analysisEnded
  /-- An element is ended that is not the open one. -/
  | notTheOpenElement
  /-- An element is ended while none is open. -/
  | noOpenElement
  /-- The analysis is ended while an element is open. -/
  | endWithOpenElement
  /-- An object is attached whose block the analysis does not know. -/
  | unregisteredBlock (object block : String)
  /-- There is no validator of this name. -/
  | unknownValidator (name : String)
  /-- A text is no written analysis. -/
  | malformedDocument
  /-- A text is no set of validator options; with the first unknown name, if that is why. -/
  | invalidOptions (unknown : Option String)
  /-- A written analysis needs a block that is not given. -/
  | missingBlock (identifier localName : String)
  /-- A written analysis names an object that no block has. -/
  | unknownObject (id : String)
  /-- A validator has found a problem. -/
  | problem (finding : Problem)
deriving DecidableEq, Repr

namespace Cause

/-- The kind of error that a cause leads to. -/
def kind : Cause → ErrorKind
  | unreadable _ => .ofStylesheet
  | malformedReference _ => .ofStylesheet
  | repeatedAlias _ => .ofStylesheet
  | selector _ _ => .ofStylesheet
  | misplacedProperty _ => .ofStylesheet
  | secondBase _ => .ofStylesheet
  | illegalBlockName _ => .ofStylesheet
  | unknownTarget _ => .ofStylesheet
  | unknownBase _ => .ofImport
  | cyclicReference _ => .ofImport
  | tooDeep _ => .ofImport
  | missingFile _ => .ofImport
  | elementOpen => .ofUsage
  | analysisEnded => .ofUsage
  | notTheOpenElement => .ofUsage
  | noOpenElement => .ofUsage
  | endWithOpenElement => .ofUsage
  | unregisteredBlock _ _ => .ofUsage
  | unknownValidator _ => .ofUsage
  | malformedDocument => .ofUsage
  | invalidOptions _ => .ofUsage
  | missingBlock _ _ => .ofUsage
  | unknownObject _ => .ofUsage
  | problem _ => .ofTemplate

/-- What went wrong, in words. -/
def message : Cause → String
  | unreadable fault => fault.message
  | malformedReference written =>
    "Malformed block reference: `@block-reference " ++ written ++ "`"
  | repeatedAlias localName => "Duplicate block reference alias \"" ++ localName ++ "\""
  | selector fault written => fault.message ++ ": " ++ written.text
  | misplacedProperty property =>
    "The \"" ++ property ++ "\" property may only be declared in a plain .root rule"
  | secondBase name =>
    "A block may only extend one base block (already extends \"" ++ name ++ "\")"
  | illegalBlockName name => "Illegal block name \"" ++ name ++ "\""
  | unknownTarget target => "Cannot find block object \"" ++ target ++ "\" to resolve against"
  | unknownBase localName => "No block named \"" ++ localName ++ "\" is referenced from this block"
  | cyclicReference walk => "Cyclic block reference: " ++ " -> ".intercalate walk
  | tooDeep limit => "Block references nested deeper than " ++ toString limit ++ " files"
  | missingFile identifier => "Could not import block \"" ++ identifier ++ "\": file not found"
  | elementOpen => "Cannot start an element while another element is open"
  | analysisEnded => "Cannot start an element after the analysis has ended"
  | notTheOpenElement => "Cannot end an element that is not the open element"
  | noOpenElement => "Cannot end an element that was never started"
  | endWithOpenElement => "Cannot end the analysis while an element is open"
  | unregisteredBlock object block =>
    "Cannot attach \"" ++ object ++ "\": block \"" ++ block
      ++ "\" is not registered with this analysis"
  | unknownValidator name => "Unknown validator \"" ++ name ++ "\""
  | malformedDocument => "Malformed serialized analysis"
  | invalidOptions none => "Invalid validator options"
  | invalidOptions (some name) =>
    "Invalid validator options: Unknown validator \"" ++ name ++ "\""
  | missingBlock identifier localName =>
    "No block \"" ++ identifier ++ "\" is provided for alias \"" ++ localName ++ "\""
  | unknownObject id => "Unknown block object \"" ++ id ++ "\""
  | problem finding => finding.message

end Cause

/-- A cause, and the place that it concerns if there is one. -/
structure Error where
  cause : Cause
  location : Option Location
deriving DecidableEq, Repr

namespace Error

/-- An error at a place. -/
def located (location : Location) (cause : Cause) : Error := ⟨cause, some location⟩

/-- An error that concerns no place. -/
def general (cause : Cause) : Error := ⟨cause, none⟩

/-- The message, with the place in parentheses behind it. -/
def text (error : Error) : String :=
  error.cause.message
    ++ (match error.location with | some location => " (" ++ location.text ++ ")" | none => "")

end Error

end BlockStyles
