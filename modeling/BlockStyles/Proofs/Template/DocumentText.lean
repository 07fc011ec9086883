import BlockStyles.Proofs.Json.Written
import BlockStyles.Proofs.SortedList
import BlockStyles.Template.Document
import Mathlib.Data.List.Basic

/-!
# `BlockStyles.Proofs.Template.DocumentText`: the text of a document is all of it

Each record of a document is read from what it is written as, field by field, and no record
holds a value that is foreign. So a document is read from its text.

* `Document.ofJson?_toJson`: a document is read from the record that it is written as.
* `Document.ofText_text`: a document is read from its text.
-/

set_option autoImplicit false

namespace BlockStyles

open BlockStyles.Json (Value)
open BlockStyles.Text (Position)

/-! ### Lists of records -/

namespace Json.Value

variable {α : Type} {read : Value → Option α}

/-- Items that are read one by one are read as a list. It is enough to know that each
is read from what it is written as. -/
theorem list?_map {write : α → Value} (h : ∀ a, read (write a) = some a) (l : List α) :
    (Value.array (l.map write)).list? read = some l := by
  change (l.map write).mapM read = some l
  induction l with
  | nil => rfl
  | cons a l ih => rw [List.map_cons, List.mapM_cons, h, ih]; rfl

/-- Members that are read one by one are read as the members of a record, with their
names. -/
theorem members?_map {write : α → Value} (h : ∀ a, read (write a) = some a)
    (l : List (String × α)) :
    (Value.object (l.map fun member => (member.1, write member.2))).members? read = some l := by
  change (l.map fun member => (member.1, write member.2)).mapM
    (fun member => (read member.2).map (member.1, ·)) = some l
  induction l with
  | nil => rfl
  | cons member l ih => rw [List.map_cons, List.mapM_cons, h, ih]; rfl

/-- A text is read from what it is written as. -/
theorem string?_string (s : String) : (Value.string s).string? = some s := rfl

/-- A number that fits into a word is read from what it is written as. Numbers of
lines and columns are words, so none of them is lost. -/
theorem word?_natural (n : UInt32) : (Value.natural n.toNat).word? = some n := by
  rw [word?, if_pos n.toNat_lt]
  exact congrArg some UInt32.ofNat_toNat

/-- A record is native if what it has in its fields is. Records are objects with a
fixed list of fields, which is checked field by field. -/
theorem IsNative.record {members : List (String × Value)}
    (h : members.Forall fun member => member.2.IsNative) : (Value.object members).IsNative :=
  .object (List.forall_iff_forall_mem.1 h)

/-- A list is native if all that is written into it is. Native values are those that
can be written and read again without loss. -/
theorem isNative_array_map {write : α → Value} (h : ∀ a, (write a).IsNative) (l : List α) :
    (Value.array (l.map write)).IsNative := by
  refine .array fun item hitem => ?_
  obtain ⟨a, -, rfl⟩ := List.mem_map.1 hitem
  exact h a

end Json.Value

namespace Document

/-! ### Records -/

/-- A position is read from what it is written as. It has both its fields, in the
order in which they are looked for. -/
theorem position?_ofPosition (position : Position) :
    position? (ofPosition position) = some position := by
  have hfields : (ofPosition position).fields? ["line", "column"]
      = some [some (.natural position.line.toNat), some (.natural position.column.toNat)] := rfl
  simp [position?, hfields, Value.word?_natural]

/-- A conditional object is read from its record. A condition that is missing is
written as null, and read as missing again. -/
theorem Dynamic.ofJson?_toJson (entry : Dynamic) : ofJson? entry.toJson = some entry := by
  have hfields : entry.toJson.fields? ["id", "condition"]
      = some [some (.string entry.id), some (ofOption entry.condition)] := rfl
  have hcondition : Value.optional Value.string? (some (ofOption entry.condition))
      = some entry.condition := by
    cases entry.condition <;> rfl
  simp [ofJson?, hfields, hcondition, Value.string?_string]

/-- An object in a group is read from its record. -/
theorem Exclusive.ofJson?_toJson (entry : Exclusive) : ofJson? entry.toJson = some entry := rfl

/-- An entry is read from its record: its position, if there is one, and three lists
of objects. -/
theorem Entry.ofJson?_toJson (entry : Entry) : ofJson? entry.toJson = some entry := by
  have hfields : entry.toJson.fields? ["position", "static", "dynamic", "exclusive"]
      = some [some (entry.position.elim .null ofPosition),
        some (.array (entry.statics.map .string)),
        some (.array (entry.dynamics.map Dynamic.toJson)),
        some (.array (entry.exclusives.map Exclusive.toJson))] := by
    obtain ⟨position, statics, dynamics, exclusives⟩ := entry
    cases position <;> rfl
  have hposition : Value.optional position? (some (entry.position.elim .null ofPosition))
      = some entry.position := by
    cases entry.position with
    | none => rfl
    | some position => exact congrArg (Option.map some) (position?_ofPosition position)
  have hstatics := Value.list?_map Value.string?_string entry.statics
  have hdynamics := Value.list?_map Dynamic.ofJson?_toJson entry.dynamics
  have hexclusives := Value.list?_map Exclusive.ofJson?_toJson entry.exclusives
  simp [ofJson?, hfields, hposition, hstatics, hdynamics, hexclusives]

/-- A document is read from the record that it is written as. This does not look at
texts yet, only at the values that they stand for. -/
theorem ofJson?_toJson (document : Document) : ofJson? document.toJson = some document := by
  have hfields : document.toJson.fields? ["template", "blocks", "elements"]
      = some [some (.string document.template),
        some (.object (document.blocks.toList.map fun entry => (entry.1, .string entry.2))),
        some (.array (document.elements.map Entry.toJson))] := rfl
  have hblocks := Value.members?_map Value.string?_string document.blocks.toList
  have helements := Value.list?_map Entry.ofJson?_toJson document.elements
  -- The aliases come in their order, so each of them is kept.
  simp [ofJson?, hfields, hblocks, helements, SortedList.ofList_toList, Value.string?_string]

/-! ### Nothing is foreign -/

/-- A position is written without foreign values. -/
theorem isNative_ofPosition (position : Position) : (ofPosition position).IsNative :=
  .record ⟨.natural _, .natural _⟩

/-- A conditional object is written without foreign values, with a condition or
without. -/
theorem Dynamic.isNative_toJson (entry : Dynamic) : entry.toJson.IsNative := by
  refine .record ⟨.string _, ?_⟩
  cases entry.condition with
  | none => exact .null
  | some condition => exact .string condition

/-- An object in a group is written without foreign values. -/
theorem Exclusive.isNative_toJson (entry : Exclusive) : entry.toJson.IsNative :=
  .record ⟨.string _, .string _⟩

/-- An entry is written without foreign values, field by field. Fields that are empty
are written as well. -/
theorem Entry.isNative_toJson (entry : Entry) : entry.toJson.IsNative := by
  refine .record ⟨?position, ?statics, ?dynamics, ?exclusives⟩
  case position =>
    cases entry.position with
    | none => exact .null
    | some position => exact isNative_ofPosition position
  case statics => exact Value.isNative_array_map .string _
  case dynamics => exact Value.isNative_array_map Dynamic.isNative_toJson _
  case exclusives => exact Value.isNative_array_map Exclusive.isNative_toJson _

/-- A document is written without foreign values. So it is read again as it was, by
what is known of all native values. -/
theorem isNative_toJson (document : Document) : document.toJson.IsNative := by
  refine .record ⟨.string _, ?blocks, ?elements⟩
  case blocks =>
    refine .object fun entry hentry => ?_
    obtain ⟨written, -, rfl⟩ := List.mem_map.1 hentry
    exact .string _
  case elements => exact Value.isNative_array_map Entry.isNative_toJson _

/-! ### Texts -/

/-- A document is read from its text. The text is read as the values it was written
from, since none of these is foreign, and the values as the document. The fields of a
document are found by their names, and their order in the text is that in which they
are written. No hypothesis is needed: all strings are escaped, and positions are
natural numbers. -/
theorem ofText_text (document : Document) : ofText document.text = .ok document := by
  rw [ofText, text, Value.ofText?_text (isNative_toJson document), Option.bind_some,
    ofJson?_toJson]

end Document

end BlockStyles
