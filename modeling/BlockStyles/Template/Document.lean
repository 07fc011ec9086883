import BlockStyles.Error
import BlockStyles.Json.Reader
import BlockStyles.Json.Writer
import BlockStyles.SortedList

/-!
# `BlockStyles.Template.Document`: written analyses

A document is an analysis without its blocks: they are given by identifiers, and
objects by ids that name a block and a selector in it. Documents are written as
JSON and read again. Reading takes every record as an object or as an array of
its fields; a position or a condition that is missing is the same as `null`.
-/

set_option autoImplicit false

namespace BlockStyles

open BlockStyles.Json (Value)
open BlockStyles.Text (Position)

namespace Document

/-- An object that is there on a condition. -/
structure Dynamic where
  id : String
  condition : Option String
deriving DecidableEq, Repr

/-- An object that is a choice of a group. -/
structure Exclusive where
  group : String
  id : String
deriving DecidableEq, Repr

/-- An element. -/
structure Entry where
  position : Option Position
  statics : List String
  dynamics : List Dynamic
  exclusives : List Exclusive
deriving DecidableEq, Repr

end Document

/-- A written analysis. -/
structure Document where
  template : String
  /-- The identifiers of the blocks, by alias. -/
  blocks : SortedList (Prod.fst : String × String → String)
  elements : List Document.Entry
deriving DecidableEq

namespace Document

/-! ### Writing -/

/-- A string, or `null` if there is none. -/
def ofOption : Option String → Value
  | some s => .string s
  | none => .null

/-- A position as a record. -/
def ofPosition (position : Position) : Value :=
  .object [("line", .natural position.line.toNat), ("column", .natural position.column.toNat)]

/-- A conditional object as a record. -/
def Dynamic.toJson (entry : Dynamic) : Value :=
  .object [("id", .string entry.id), ("condition", ofOption entry.condition)]

/-- A choice of a group as a record. -/
def Exclusive.toJson (entry : Exclusive) : Value :=
  .object [("group", .string entry.group), ("id", .string entry.id)]

/-- An element as a record. -/
def Entry.toJson (entry : Entry) : Value :=
  .object [
    ("position", match entry.position with | some p => ofPosition p | none => .null),
    ("static", .array (entry.statics.map .string)),
    ("dynamic", .array (entry.dynamics.map Dynamic.toJson)),
    ("exclusive", .array (entry.exclusives.map Exclusive.toJson))]

/-- A document as a record. -/
def toJson (document : Document) : Value :=
  .object [
    ("template", .string document.template),
    ("blocks", .object (document.blocks.toList.map fun (localName, id) => (localName, .string id))),
    ("elements", .array (document.elements.map Entry.toJson))]

/-- The written form of a document. -/
def text (document : Document) : String :=
  document.toJson.text

/-! ### Reading -/

/-- The position that a record is. -/
def position? (value : Value) : Option Position :=
  match value.fields? ["line", "column"] with
  | some [some line, some column] => do some ⟨← line.word?, ← column.word?⟩
  | _ => none

/-- The conditional object that a record is. -/
def Dynamic.ofJson? (value : Value) : Option Dynamic :=
  match value.fields? ["id", "condition"] with
  | some [some id, condition] => do some ⟨← id.string?, ← Value.optional Value.string? condition⟩
  | _ => none

/-- The choice of a group that a record is. -/
def Exclusive.ofJson? (value : Value) : Option Exclusive :=
  match value.fields? ["group", "id"] with
  | some [some group, some id] => do some ⟨← group.string?, ← id.string?⟩
  | _ => none

/-- The element that a record is. -/
def Entry.ofJson? (value : Value) : Option Entry :=
  match value.fields? ["position", "static", "dynamic", "exclusive"] with
  | some [position, some statics, some dynamics, some exclusives] => do
    some {
      position := ← Value.optional position? position
      statics := ← statics.list? Value.string?
      dynamics := ← dynamics.list? Dynamic.ofJson?
      exclusives := ← exclusives.list? Exclusive.ofJson? }
  | _ => none

/-- The document that a record is. Of repeated aliases the last counts. -/
def ofJson? (value : Value) : Option Document :=
  match value.fields? ["template", "blocks", "elements"] with
  | some [some template, some blocks, some elements] => do
    some {
      template := ← template.string?
      blocks := .ofList Prod.fst (← blocks.members? Value.string?)
      elements := ← elements.list? Entry.ofJson? }
  | _ => none

/-- Reads a document. -/
def ofText (text : String) : Except Error Document :=
  match (Value.ofText? text).bind ofJson? with
  | some document => .ok document
  | none => .error (.general .malformedDocument)

end Document

end BlockStyles
