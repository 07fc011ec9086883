import BlockStyles.Template.Options
import BlockStyles.Text.Escape

/-!
# `BlockStyles.Template.Analysis`: recording the elements of a template

An analysis goes through a template: elements are started, get their objects,
and are ended, one at a time. An element is recorded when it is ended, if every
object on it comes from a block of the analysis and no validator objects. In
the end the analysis is closed.

Whoever has started an element holds it in hand and may hand in a copy, or a
changed one; what counts is its id.
-/

set_option autoImplicit false

namespace BlockStyles

open BlockStyles.Text (Position)

/-- Where an analysis stands. A stage stands for two fields in one: the `state` (idle, an
element open, closed) and the `open_element`, an id and a position that are only there
while an element is open. The two have to agree, and by this type they do: only `inside`
has an id and a position, so no analysis is idle with an element still open, and none has
an open element without knowing which. -/
inductive Stage where
  /-- Between two elements. -/
  | idle
  /-- Inside the element of this id, which starts at this position. -/
  | inside (id : Nat) (position : Position)
  /-- At its end. -/
  | closed
deriving DecidableEq, Repr

/-- What is known of a template. -/
structure Analysis where
  /-- The identifier of the template. -/
  template : String
  /-- The blocks that the template may use, by alias. -/
  blocks : SortedList (Prod.fst : String × Block → String)
  /-- The elements in the order in which they were ended. -/
  elements : List Element
  /-- The rules that elements have to follow. -/
  validators : List Validator
  stage : Stage

namespace Analysis

/-- An analysis that has not begun. -/
def begin (template : String) (options : Options) : Analysis :=
  ⟨template, .empty, [], options.validators, .idle⟩

/-- Gives a block an alias. A block that had the alias loses it. -/
def addBlock (analysis : Analysis) (localName : String) (block : Block) : Analysis :=
  { analysis with blocks := analysis.blocks.insert (localName, block) }

/-- What validators may know. -/
def context (analysis : Analysis) : Context := ⟨analysis.template, analysis.blocks⟩

/-- An error at a place of the template. -/
def errorAt (analysis : Analysis) (position : Position) (cause : Cause) : Error :=
  .located ⟨analysis.template, position⟩ cause

/-- Starts an element, which gets the given id. -/
def start (analysis : Analysis) (id : Nat) (position : Position) :
    Except Error (Element × Analysis) :=
  match analysis.stage with
  | .idle => .ok (.bare id position, { analysis with stage := .inside id position })
  | .inside _ here => .error (analysis.errorAt here .elementOpen)
  | .closed => .error (analysis.errorAt position .analysisEnded)

/-- Why an element cannot be recorded: an object of a block that the analysis
does not know, or a problem. -/
def objection? (analysis : Analysis) (element : Element) : Option Cause :=
  match element.objects.find? fun object => (analysis.context.aliasFor? object.block).isNone with
  | some object => some (.unregisteredBlock object.qualifiedName object.block.name)
  | none => (firstProblem analysis.validators element analysis.context).map .problem

/-- Ends an element. If it is the open one, it is open no longer, whether it can
be recorded or not. -/
def finish (analysis : Analysis) (element : Element) : Analysis × Except Error Unit :=
  let refuse (analysis : Analysis) (cause : Cause) : Analysis × Except Error Unit :=
    (analysis, .error (analysis.errorAt element.position cause))
  match analysis.stage with
  | .inside id _ =>
    if id = element.id then
      -- From here on the element is open no longer, even if it is refused.
      let analysis := { analysis with stage := .idle }
      match analysis.objection? element with
      | some cause => refuse analysis cause
      | none => ({ analysis with elements := analysis.elements ++ [element] }, .ok ())
    else
      refuse analysis .notTheOpenElement
  | _ => refuse analysis .noOpenElement

/-- Closes the analysis. -/
def close (analysis : Analysis) : Except Error Analysis :=
  match analysis.stage with
  | .inside _ here => .error (analysis.errorAt here .endWithOpenElement)
  | _ => .ok { analysis with stage := .closed }

/-- The blocks whose objects are on recorded elements, by id. -/
def referencedBlocks (analysis : Analysis) : List Block :=
  let blocks := (analysis.elements.flatMap Element.objects).map Object.block
  (blocks.foldl SortedList.insertNew (.empty : SortedList Block.id)).toList

/-- How a stage is described. -/
def Stage.text : Stage → String
  | .idle => "Idle"
  | .inside _ _ => "ElementOpen"
  | .closed => "Closed"

/-- How an analysis is described. -/
def text (analysis : Analysis) : String :=
  let aliases := analysis.blocks.toList.map fun (localName, _) => Text.quoted localName
  "TemplateAnalysis \x7b template: " ++ Text.quoted analysis.template
    ++ ", blocks: [" ++ ", ".intercalate aliases
    ++ "], elements: " ++ toString analysis.elements.length
    ++ ", validators: " ++ Validator.listText analysis.validators
    ++ ", state: " ++ Stage.text analysis.stage ++ " \x7d"

end Analysis

end BlockStyles
