import BlockStyles.Proofs.Block.Find
import BlockStyles.Proofs.Library.Arena
import BlockStyles.Proofs.Library.Failures
import BlockStyles.Proofs.Library.Sheets
import BlockStyles.Proofs.Stylesheet.Written

/-!
# `BlockStyles.Proofs.Block.Legible`: objects are found again by what they are written as

The selector of an object leads back to the object, in a block that has been built from text. It
does so with any blocks that this one extends: the search begins at the block itself, where the
object is. As a reference the selector has no alias in front, so that it is looked for in the
block itself.

* `Block.FromText.tidy`: a block from text is tidy, whatever it refers to.
* `Session.fromText_of_reachable`, `Library.fromText_of_addSource`: loaded blocks are from text.
* `Block.FromText.legible`: printing an object and finding it undo each other.
-/

set_option autoImplicit false

namespace BlockStyles

open BlockStyles.Text

/-! ### Blocks from text -/

namespace Block

variable {block : Block}

/-- A block that has been built from a file is from text. The source of the file is
that text, and its id and references are those it was built with. -/
theorem IsOfFile.fromText {config : Config} (h : block.IsOfFile config) : block.FromText := by
  obtain ⟨source, sheet, -, hsheet, -, hbuilt⟩ := h
  exact ⟨source, sheet, block.id, _, block.identifier, block.references, hsheet, hbuilt⟩

end Block

/-- All blocks that are loaded from files are from text, in every session. A block is
built when its references are there, and by then its file has been read. -/
theorem Session.fromText_of_reachable {config : Config} {session : Session}
    (h : Reachable config session) : ∀ block ∈ session.library.blocks, block.FromText := by
  refine blocks_keep (fun s i reference waiting file block hs hi hpending hbuilt => ?_) h
  obtain ⟨request, -, hreads, -⟩ := (settled_of_reachable hs).origins i reference _ hi
  exact (hreads.isOfFile hpending hbuilt).fromText

/-- Blocks of sources that are none of the files come from text as well. Sheets that
are built by hand are not covered, as their names need not be such as can be written. -/
theorem Library.fromText_of_addSource {config : Config} {library : Library}
    {source identifier name : String} {block : Block}
    (h : (library.addSource config source identifier name).2 = some (.ok block)) :
    block.FromText := by
  unfold addSource at h
  split at h
  · rename_i sheet hsheet
    obtain ⟨references, -, hbuilt⟩ := addSheet_eq_ok_iff.1 h
    exact ⟨source, sheet, _, name, identifier, references, hsheet, hbuilt⟩
  · cases h

/-! ### Printing and finding -/

/-- The selector of an object starts as selectors do, with no alias in front of it. A
lookup takes what stands in front of the first such character for an alias, so the
alias is empty here and the block itself is meant. -/
theorem Object.exists_toList_source (object : Object) :
    ∃ c rest, object.source.toList = c :: rest ∧ Block.startsSelector c := by
  rw [toList_source]
  cases hname : object.writtenClass with
  | some name => exact ⟨'.', _, rfl, rfl⟩
  | none =>
    cases hlabel : object.writtenState with
    | some label => exact ⟨'[', _, rfl, rfl⟩
    -- Every object has a class or a state to be written by.
    | none => cases object <;> simp [writtenClass, writtenState] at hname hlabel

/-- In its own block, an object is what its selector refers to, for without an alias
the block itself is searched. -/
theorem Block.lookup?_source {object : Object} (h : object.block.Tidy) :
    object.block.lookup? object.source = some object := by
  obtain ⟨c, rest, hsource, hstarts⟩ := object.exists_toList_source
  have hfound := findObject?_source h
  rw [hsource] at hfound
  simp [lookup?, hsource, hstarts, aliased?, hfound]

/-- The objects of a block can be told by what they are written as. -/
structure Block.Legible (block : Block) : Prop where
  found : ∀ object ∈ block.objects, block.findObject? object.source.toList = some object
  looked_up : ∀ object ∈ block.objects, block.lookup? object.source = some object
  /-- No selector of an object can be taken for one behind an alias or a name. -/
  no_colon : ∀ object ∈ block.objects, ':' ∉ object.source.toList
  distinct : ∀ object ∈ block.objects, ∀ other ∈ block.objects,
    object.source = other.source → object = other

/-- Printing an object and finding it undo each other, in every block from text. The
bases of the block may be anything: the search finds the object before it comes to
them. Names from text are identifiers, so each selector is read back as it was
printed, and a colon is in none of them. -/
theorem Block.FromText.legible {block : Block} (h : block.FromText) : block.Legible := by
  have htidy : ∀ object ∈ block.objects, object.block.Tidy := fun object hobject =>
    (block_of_mem_objects hobject).symm ▸ h.tidy
  have hfound : ∀ object ∈ block.objects,
      block.findObject? object.source.toList = some object := by
    intro object hobject
    have hown := findObject?_source (htidy object hobject)
    rwa [block_of_mem_objects hobject] at hown
  constructor
  case found => exact hfound
  case looked_up =>
    intro object hobject
    have hown := lookup?_source (htidy object hobject)
    rwa [block_of_mem_objects hobject] at hown
  case no_colon => exact fun object hobject => object.colon_not_mem_source (htidy object hobject)
  case distinct =>
    -- Two objects that are written alike are both what this selector means.
    intro object hobject other hother hsource
    have hsame := hfound object hobject
    rw [hsource, hfound other hother] at hsame
    exact (Option.some.inj hsame).symm

/-- A block with a Greek name in it, which extends a block that has a class and a
state of the same names. The objects of the block itself are found, and not those that
they hide. Letters outside of ASCII are part of identifiers like all others. -/
theorem Block.FromText.legible_inheriting :
    let theirs : ClassData := ⟨"μέγεθος", [⟨⟨some "βαθμός", "δύο"⟩, .empty⟩], .empty⟩
    let base : Block := { Block.bare 1 "a" "/r/a.css" [] with others := [theirs] }
    let source := ".root\x7bextends:a\x7d.μέγεθος[state|βαθμός=δύο]\x7b\x7d"
    ∃ sheet block, Stylesheet.ofSource source = .ok sheet
      ∧ Block.ofRules 2 "b" "/r/b.css" [("a", base)] sheet.rules = .ok block
      ∧ block.lineage.map Block.id = [2, 1]
      ∧ block.objects.map Object.source
        = [".root", ".μέγεθος", ".μέγεθος[state|βαθμός=δύο]"]
      ∧ block.Legible := by
  intro theirs base source
  let second := '.' :: "μέγεθος[state|βαθμός=δύο]\x7b\x7d".toList
  let body := "extends:a\x7d".toList ++ second
  let text := '.' :: ("root\x7b".toList ++ body)
  let extending : Declaration := ⟨"extends", "a", false, ⟨1, 7⟩⟩
  let two : Selector.Attribute := ⟨some "state", "βαθμός", some "δύο"⟩
  let root : Rule := ⟨[⟨[⟨[.cls "root"], .none⟩]⟩], [.declaration extending], ⟨1, 1⟩⟩
  let own : Rule := ⟨[⟨[⟨[.cls "μέγεθος", .attr two], .none⟩]⟩], [], ⟨1, 17⟩⟩
  have hitems : readItems text body = ([.declaration extending], '\x7d' :: second) := by
    -- The declaration is no rule: what could be its selector is followed by a closing brace.
    have hitem : ∃ left, Rule.read text body = .error left := by
      have hlist : Selector.readList (skipBlanks body)
          = .ok ([⟨[⟨[.type "extends", .pseudoClass "a"], .none⟩]⟩], '\x7d' :: second) := by
        decide +kernel
      refine Rule.exists_read_eq_error fun selectors afterSelectors h rest hopen => ?_
      rw [hlist] at h
      cases h
      cases hopen
    have hread : Declaration.read? text body = some (extending, '\x7d' :: second) := by
      decide +kernel
    rw [readItems_declaration hitem.choose_spec hread, readItems_close rfl]
  have hroot : Rule.read text text = .ok (root, second) := by
    refine Rule.read_eq_ok_iff.2 ⟨root.selectors, '\x7b' :: body, body, by decide +kernel,
      by decide +kernel, ?_, ?_⟩
    · rw [hitems]
      rfl
    · have hposition : Position.ofSuffix text (skipBlanks text) = ⟨1, 1⟩ := by decide +kernel
      rw [hitems, hposition]
  have hown : Rule.read text second = .ok (own, []) := by
    have hposition : Position.ofSuffix text (skipBlanks second) = ⟨1, 17⟩ := by decide +kernel
    have hlist : Selector.readList (skipBlanks second)
        = .ok (own.selectors, ['\x7b', '\x7d']) := by decide +kernel
    rw [Rule.read_close hlist rfl rfl, hposition]
  have hstatements : Stylesheet.readStatements text text = .ok ⟨[], [root, own]⟩ := by
    rw [Stylesheet.readStatements_rule rfl (by decide) hroot,
      Stylesheet.readStatements_rule rfl (by decide) hown, Stylesheet.readStatements_end rfl]
    rfl
  have hsheet : Stylesheet.ofSource source = .ok ⟨[], [root, own]⟩ := by
    have hplain : blankComments source.toList = text := by decide +kernel
    rw [Stylesheet.ofSource, hplain, hstatements]
    rfl
  have hbuilds : (Block.ofRules 2 "b" "/r/b.css" [("a", base)] [root, own]).map (fun block =>
      (block.lineage.map Block.id, block.objects.map Object.source))
        = .ok ([2, 1], [".root", ".μέγεθος", ".μέγεθος[state|βαθμός=δύο]"]) := by
    decide +kernel
  obtain ⟨block, hbuilt, hshown⟩ := map_eq_ok.1 hbuilds
  obtain ⟨hlineage, hobjects⟩ := Prod.mk.inj hshown
  exact ⟨_, block, hsheet, hbuilt, hlineage, hobjects,
    FromText.legible ⟨source, _, 2, "b", "/r/b.css", _, hsheet, hbuilt⟩⟩

end BlockStyles
