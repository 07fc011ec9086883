import BlockStyles.Template.Analysis
import BlockStyles.Template.Document
import BlockStyles.Text.Split

/-!
# `BlockStyles.Template.Restore`: from analyses to documents and back

`Analysis.toDocument` writes an analysis down; `Analysis.ofDocument` restores it,
given the blocks. The id of an object is the identifier of its block and its
selector, with a colon between them; identifiers may hold colons, selectors
never do, so the last colon is the one that counts.
-/

set_option autoImplicit false

namespace BlockStyles

open BlockStyles.Text (Position splitLast)

/-! ### Writing down -/

/-- The id of an object in documents. -/
def Object.writtenId (object : Object) : String :=
  object.block.identifier ++ ":" ++ object.source

/-- An element as it is written down. -/
def Element.toEntry (element : Element) : Document.Entry where
  position := if element.position.isKnown then some element.position else none
  statics := element.statics.toList.map Object.writtenId
  dynamics := element.dynamics.toList.map fun (object, condition) => ⟨object.writtenId, condition⟩
  exclusives :=
    element.exclusives.toList.flatMap fun (group, objects) =>
      objects.toList.map fun object => ⟨group, object.writtenId⟩

namespace Analysis

/-- The analysis as a document. -/
def toDocument (analysis : Analysis) : Document where
  template := analysis.template
  blocks :=
    .ofList Prod.fst (analysis.blocks.toList.map fun (name, block) => (name, block.identifier))
  elements := analysis.elements.map Element.toEntry

/-! ### Restoring -/

/-- The blocks of a document, by alias: for each alias the given block, which
must have the identifier that is written down. -/
def blocksFor (document : Document) (blocks : List (String × Block)) :
    Except Error (List (String × Block)) :=
  document.blocks.toList.mapM fun (localName, identifier) =>
    match blocks.lookup localName with
    | some block =>
      if block.identifier = identifier then
        .ok (localName, block)
      else
        .error (.general (.missingBlock identifier localName))
    | none => .error (.general (.missingBlock identifier localName))

/-- The object of a written id: the selector is looked up in the first block of
that identifier along the lineages of the blocks, in the order of their aliases. -/
def objectFor (analysis : Analysis) (id : String) : Except Error Object :=
  let found? : Option Object :=
    match splitLast ':' id.toList with
    | none => none
    | some (identifier, selector) =>
      let lineages := analysis.blocks.toList.flatMap (·.2.lineage)
      match lineages.find? (·.identifier == String.ofList identifier) with
      | some block => block.findObject? selector
      | none => none
  match found? with
  | some object => .ok object
  | none => .error (.general (.unknownObject id))

/-- Restores an element, which gets the given id. -/
def elementFor (analysis : Analysis) (id : Nat) (entry : Document.Entry) :
    Except Error Element := do
  let element := Element.bare id (entry.position.getD .unknown)
  let element ← entry.statics.foldlM (fun element written =>
    (analysis.objectFor written).map element.addStatic) element
  let element ← entry.dynamics.foldlM (fun element dynamic =>
    (analysis.objectFor dynamic.id).map fun object =>
      element.addDynamic object dynamic.condition) element
  entry.exclusives.foldlM (fun element choice =>
    (analysis.objectFor choice.id).map (element.addExclusive choice.group)) element

/-- Restores elements, which get ids from `next` on. -/
def elementsFor (analysis : Analysis) (next : Nat) :
    List Document.Entry → Except Error (List Element)
  | [] => .ok []
  | entry :: entries => do
    let element ← analysis.elementFor next entry
    return element :: (← analysis.elementsFor (next + 1) entries)

/-- Restores an analysis from a document, given the blocks by alias. It is
closed. Its elements get ids from `next` on. -/
def ofDocument (document : Document) (blocks : List (String × Block)) (next : Nat) :
    Except Error Analysis := do
  let blocks ← blocksFor document blocks
  let analysis : Analysis :=
    { begin document.template .default with blocks := .ofList Prod.fst blocks }
  let elements ← analysis.elementsFor next document.elements
  return { analysis with elements, stage := .closed }

end Analysis

end BlockStyles
