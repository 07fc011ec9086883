import BlockStyles.Proofs.Block.Alike
import BlockStyles.Proofs.Block.Declares
import BlockStyles.Proofs.Block.WellFormed
import BlockStyles.Proofs.Library.Workshop

/-!
# `BlockStyles.Proofs.Library.Sheets`: what becomes of a stylesheet

A stylesheet is accepted when its references can be had and its rules make a block from them.
Which references there are is a matter of the at-rules alone, so what is known of the blocks that
rules make is known of the blocks that come out of a library.

* `Library.addSheet_eq_ok_iff`: when a sheet is accepted, and the block that comes of it.
* `Library.addSheet_nil`, `Library.addSheet_of_binds`: sheets for which nothing has to be loaded.
* `Library.addSheet_declares`: the block declares what the rules of the sheet say.
* `Library.addSheet_perm`: it does not matter in which order the rules are.
* `Workshop.blocks_wellFormed`: every block there is in a library is well formed.
-/

set_option autoImplicit false

namespace BlockStyles

namespace Library

variable {config : Config} {library library' : Library} {atRules : List AtRule}
  {rules rules' : List Rule} {identifier name : String} {block : Block}

/-! ### Accepted sheets -/

/-- The references that at-rules lead to, if all of them can be had: those of the
block that they make without any rules. This says it in terms of the library alone,
without a look at its tasks. -/
def loaded? (config : Config) (library : Library) (atRules : List AtRule)
    (identifier name : String) : Option (List (String × Block)) :=
  match (library.addSheet config ⟨atRules, []⟩ identifier name).2 with
  | some (.ok block) => some block.references
  | _ => none

/-- Without rules every block can be built, and it is bare. -/
theorem ofRules_nil (id : Nat) (references : List (String × Block)) :
    Block.ofRules id name identifier references [] = .ok (.bare id name identifier references) :=
  rfl

/-- A sheet ends with a block if its references can be had and its rules make one. If
a reference fails, its error is the outcome, and the rules are not looked at. -/
theorem conclude_eq_ok_iff {id : Nat} {outcome : Option (Except Error (List (String × Block)))} :
    (conclude library id name identifier outcome rules).2 = some (.ok block)
      ↔ ∃ references, outcome = some (.ok references)
        ∧ Block.ofRules id name identifier references rules = .ok block := by
  rcases outcome with _ | _ | references
  · simp [conclude]
  · simp [conclude]
  · cases hbuilt : Block.ofRules id name identifier references rules <;> simp [conclude, hbuilt]

/-- The block that the rules make is registered, and it is the answer. -/
theorem conclude_of_built {id : Nat} {references : List (String × Block)}
    (h : Block.ofRules id name identifier references rules = .ok block) :
    conclude library id name identifier (some (.ok references)) rules
      = (library.register block, some (.ok block)) := by
  simp only [conclude, h]

/-- A sheet is accepted if its references can be had and its rules make a block from
them. The first is a matter of its at-rules, and the second one of its rules;
everything that is known about `Block.ofRules` comes into libraries by this lemma. -/
theorem addSheet_eq_ok_iff :
    (library.addSheet config ⟨atRules, rules⟩ identifier name).2 = some (.ok block)
      ↔ ∃ references, library.loaded? config atRules identifier name = some references
        ∧ Block.ofRules library.nextId name identifier references rules = .ok block := by
  obtain ⟨after, outcome, heq⟩ := exists_addSheet_eq config library atRules identifier name
  have hloaded : ∀ references, library.loaded? config atRules identifier name = some references
      ↔ outcome = some (.ok references) := by
    intro references
    rw [loaded?, heq]
    rcases outcome with _ | _ | references <;> simp [conclude, ofRules_nil, Block.bare]
  simp only [heq, conclude_eq_ok_iff, hloaded]

/-- The block of a sheet that is accepted is registered. Concluding registers it, and
nothing comes after that. -/
theorem mem_blocks_of_addSheet {sheet : Stylesheet}
    (h : (library.addSheet config sheet identifier name).2 = some (.ok block)) :
    block ∈ (library.addSheet config sheet identifier name).1.blocks := by
  obtain ⟨after, outcome, heq⟩ := exists_addSheet_eq config library sheet.atRules identifier name
  have hsheet : library.addSheet config sheet identifier name = _ := heq sheet.rules
  rw [hsheet] at h ⊢
  obtain ⟨references, rfl, hbuilt⟩ := conclude_eq_ok_iff.1 h
  rw [conclude, hbuilt]
  exact (mem_blocks_register after).2 (.inl rfl)

/-- A block that has just been registered is bound to its identifier. -/
theorem blockFor?_register_self (library : Library) (block : Block) :
    (library.register block).blockFor? block.identifier = some block := by
  rw [blockFor?_register, if_pos rfl]

/-- A sheet without at-rules needs no references. It only takes an id. So what becomes
of it is a matter of its rules alone. -/
theorem addSheet_nil (config : Config) (library : Library) (rules : List Rule)
    (identifier name : String) :
    library.addSheet config ⟨[], rules⟩ identifier name
      = conclude { library with nextId := library.nextId + 1 } library.nextId name identifier
          (some (.ok [])) rules :=
  complete_compiling ⟨rfl, rfl, rfl, rfl⟩ rfl

/-- A sheet without at-rules is accepted if its rules make a block. -/
theorem addSheet_nil_of_built
    (h : Block.ofRules library.nextId name identifier [] rules = .ok block) :
    (library.addSheet config ⟨[], rules⟩ identifier name).2 = some (.ok block) := by
  rw [addSheet_nil, conclude_eq_ok_iff]
  exact ⟨[], rfl, h⟩

/-- A sheet whose only reference is to a block that is bound is built at once. Nothing
is loaded for it, so what comes of it can be given as an equation. -/
theorem addSheet_of_binds {atRule : AtRule} {reference : BlockReference} {target : Block}
    (h : library.BindsReference config identifier atRule reference target)
    (hdepth : 1 < config.maxDepth) (rules : List Rule) (name : String) :
    library.addSheet config ⟨[atRule], rules⟩ identifier name
      = conclude { library with nextId := library.nextId + 1 } library.nextId name identifier
          (some (.ok [(reference.localName, target)])) rules := by
  have hpending : (OpenFile.ofSheet library.nextId ⟨[atRule], rules⟩ identifier name).pending
      = [atRule] := rfl
  have hopened : BindsReference config { library with nextId := library.nextId + 1 } identifier
      atRule reference target := ⟨h.name, h.prelude, h.other, h.bound⟩
  have hfirst := complete_compiling_of_binds hpending hopened rfl hdepth
  exact hfirst.trans (complete_compiling ⟨rfl, rfl, rfl, rfl⟩ rfl)

/-- The library has one block more then. No file is loaded for the reference, since
its block is there. -/
theorem addSheet_fst_of_binds {atRule : AtRule} {reference : BlockReference} {target : Block}
    (h : library.BindsReference config identifier atRule reference target)
    (hdepth : 1 < config.maxDepth)
    (hbuilt : Block.ofRules library.nextId name identifier [(reference.localName, target)] rules
      = .ok block) :
    (library.addSheet config ⟨[atRule], rules⟩ identifier name).1
      = { library with nextId := library.nextId + 1 }.register block := by
  rw [addSheet_of_binds h hdepth, conclude_of_built hbuilt]

/-- The reference that is loaded is the one that has been bound. The limit has to
leave room for one file below the sheet. -/
theorem loaded?_of_binds {atRule : AtRule} {reference : BlockReference} {target : Block}
    (h : library.BindsReference config identifier atRule reference target)
    (hdepth : 1 < config.maxDepth) (name : String) :
    library.loaded? config [atRule] identifier name = some [(reference.localName, target)] := by
  rw [loaded?, addSheet_of_binds h hdepth]
  rfl

/-! ### What a sheet says -/

/-- The block of a sheet that is accepted has what the rules of the sheet say and
nothing else. This does not depend on the library, nor on where the references come
from. It is read off what the draft shows when all rules have been added, as finishing
changes nothing. -/
theorem addSheet_declares {sheet : Stylesheet}
    (h : (library.addSheet config sheet identifier name).2 = some (.ok block)) :
    block.Declares sheet.rules := by
  obtain ⟨references, -, hbuilt⟩ := addSheet_eq_ok_iff.1 h
  exact Block.declares_of_ofRules hbuilt

/-- Two rules style one class, one of them together with a state of another. The block
has what both say. A property that is set by both is there once. -/
theorem addSheet_declares_repeated :
    let config : Config := ⟨[], "/r", 32, []⟩
    let large : Selector.Attribute := ⟨some "state", "size", some "large"⟩
    let shared : Rule := ⟨[⟨[⟨[.cls "a"], .none⟩]⟩, ⟨[⟨[.cls "b", .attr large], .none⟩]⟩],
      [.declaration ⟨"color", "red", false, .unknown⟩], .unknown⟩
    let again : Rule := ⟨[⟨[⟨[.cls "a"], .none⟩]⟩],
      [.declaration ⟨"color", "resolve('.b[state|size=large]')", false, .unknown⟩,
        .declaration ⟨"width", "1px", false, .unknown⟩], .unknown⟩
    let sheet : Stylesheet := ⟨[], [shared, again]⟩
    ∃ block, (Library.empty.addSheet config sheet "/r/a.css" "a").2 = some (.ok block)
      ∧ block.objects.map (fun object => (object.fullName, object.style.properties.toList))
        = [(⟨"root", none⟩, []), (⟨"a", none⟩, ["color", "width"]), (⟨"b", none⟩, []),
          (⟨"b", some ⟨some "size", "large"⟩⟩, ["color"])]
      ∧ block.Declares sheet.rules := by
  intro config large shared again sheet
  -- What is said of the objects is evaluated, since blocks cannot be compared.
  have hbuilds : (Block.ofRules 1 "a" "/r/a.css" [] sheet.rules).map (fun block =>
        block.objects.map fun object => (object.fullName, object.style.properties.toList))
      = .ok [(⟨"root", none⟩, []), (⟨"a", none⟩, ["color", "width"]), (⟨"b", none⟩, []),
          (⟨"b", some ⟨some "size", "large"⟩⟩, ["color"])] := by decide +kernel
  obtain ⟨block, hbuilt, hobjects⟩ := map_eq_ok.1 hbuilds
  have haccepted : (Library.empty.addSheet config sheet "/r/a.css" "a").2 = some (.ok block) := by
    rw [addSheet_nil, conclude_eq_ok_iff]
    exact ⟨[], rfl, hbuilt⟩
  exact ⟨block, haccepted, hobjects, addSheet_declares haccepted⟩

/-! ### The order of the rules -/

/-- The references of a sheet have been registered, so that their ids tell them apart.
The sheet without its rules is accepted with the same references, and its block refers
to registered blocks only. -/
theorem Made.distinctIds (h : library.Made config) {references : List (String × Block)}
    (hloaded : library.loaded? config atRules identifier name = some references) :
    DistinctIds references := by
  have hbare := addSheet_eq_ok_iff.2 ⟨references, hloaded, ofRules_nil library.nextId references⟩
  obtain ⟨registered, hreachable⟩ := h.addSheet ⟨atRules, []⟩ identifier name
  have hkept := Workshop.kept_of_reachable hreachable
  have hregistered : Block.bare library.nextId name identifier references ∈ registered :=
    (hkept.blocks _).1 (mem_blocks_of_addSheet hbare)
  intro reference hreference reference' hreference' hid
  exact hkept.eq_of_id (hkept.reference_mem hregistered hreference)
    (hkept.reference_mem hregistered hreference') hid

/-- The rules of a sheet can be put in another order: with the same references, the
sheets are accepted or rejected together, and their blocks have the same content. The
libraries may differ, as long as they give the at-rules the same references. That the
first one has been made by operations is needed for the bases, which are compared by
their ids: two references with one id are then the same block. -/
theorem addSheet_perm (h : library.Made config) (hperm : rules.Perm rules')
    (hsame : library.loaded? config atRules identifier name
      = library'.loaded? config atRules identifier name) :
    ((∃ block, (library.addSheet config ⟨atRules, rules⟩ identifier name).2 = some (.ok block))
        ↔ ∃ block,
          (library'.addSheet config ⟨atRules, rules'⟩ identifier name).2 = some (.ok block))
      ∧ ∀ block block',
        (library.addSheet config ⟨atRules, rules⟩ identifier name).2 = some (.ok block) →
        (library'.addSheet config ⟨atRules, rules'⟩ identifier name).2 = some (.ok block') →
          block.SameContent block' ∧ (block.name = block'.name ∨ Rule.NamesDiffer rules) := by
  simp only [addSheet_eq_ok_iff, ← hsame]
  cases hloaded : library.loaded? config atRules identifier name with
  | none => simp
  | some references =>
    simpa using Block.ofRules_perm hperm (h.distinctIds hloaded)

/-- Rules that extend a block are handed in as they are and then the other way round.
In the second library there is one more block, and the references are the same. The
hypothesis on references is one on their blocks, and not on the libraries. -/
theorem addSheet_perm_reverse :
    let config : Config := ⟨[], "/r", 32, []⟩
    let reference : AtRule := ⟨"block-reference", "a from './a.css'", .unknown⟩
    let extending : Rule := ⟨[⟨[⟨[.cls "root"], .none⟩]⟩],
      [.declaration ⟨"extends", "a", false, .unknown⟩], .unknown⟩
    let open' : Selector.Attribute := ⟨some "state", "open", none⟩
    let shown : Rule := ⟨[⟨[⟨[.attr open'], .descendant⟩, ⟨[.cls "item"], .none⟩]⟩],
      [.declaration ⟨"color", "resolve('[state|open]')", false, .unknown⟩], .unknown⟩
    let rules : List Rule := [extending, shown]
    let library := (Library.empty.addSheet config ⟨[], []⟩ "/r/a.css" "a").1
    let library' := (library.addSheet config ⟨[reference], rules⟩ "/r/b.css" "b").1
    ∃ block block',
      (library.addSheet config ⟨[reference], rules⟩ "/r/b.css" "b").2 = some (.ok block)
        ∧ (library'.addSheet config ⟨[reference], rules.reverse⟩ "/r/b.css" "b").2
          = some (.ok block')
        ∧ block.base.map Block.id = some 1 ∧ block.SameContent block' := by
  intro config reference extending open' shown rules library library'
  let base : Block := .bare 1 "a" "/r/a.css" []
  have hmade : library.Made config := Made.empty.addSheet ⟨[], []⟩ "/r/a.css" "a"
  have hlibrary : library = { Library.empty with nextId := 2 }.register base :=
    congrArg Prod.fst ((addSheet_nil ..).trans (conclude_of_built rfl))
  have hnextId : library.nextId = 2 := congrArg Library.nextId hlibrary
  have hbound : library.blockFor? "/r/a.css" = some base := by
    rw [hlibrary]
    exact blockFor?_register_self _ base
  -- From here on the library is known by its next id and the block that is bound.
  clear_value library
  have hpath : Path.resolve (some "/r/b.css") "./a.css" config.root = "/r/a.css" := by
    decide +kernel
  have hbinds : ∀ library : Library, library.blockFor? "/r/a.css" = some base →
      library.BindsReference config "/r/b.css" reference ⟨"a", "./a.css"⟩ base :=
    fun library hbound => ⟨rfl, by decide +kernel, by rw [hpath]; decide, by rwa [hpath]⟩
  have hloaded := loaded?_of_binds (hbinds library hbound) (by decide) "b"
  have hbuilds : (Block.ofRules 2 "b" "/r/b.css" [("a", base)] rules).map (fun block =>
      block.base.map Block.id) = .ok (some 1) := by decide +kernel
  obtain ⟨block, hbuilt, hbase⟩ := map_eq_ok.1 hbuilds
  rw [← hnextId] at hbuilt
  have haccepted : (library.addSheet config ⟨[reference], rules⟩ "/r/b.css" "b").2
      = some (.ok block) := addSheet_eq_ok_iff.2 ⟨_, hloaded, hbuilt⟩
  have hlibrary' : library' = { library with nextId := library.nextId + 1 }.register block :=
    addSheet_fst_of_binds (hbinds library hbound) (by decide) hbuilt
  have hbound' : library'.blockFor? "/r/a.css" = some base := by
    have hidentifier : block.identifier = "/r/b.css" := (Block.ofRules_keeps hbuilt).identifier
    rw [hlibrary', blockFor?_register, hidentifier, if_neg (by decide)]
    exact hbound
  have hloaded' := loaded?_of_binds (hbinds library' hbound') (by decide) "b"
  obtain ⟨haccepts, hcontent⟩ := addSheet_perm hmade (List.reverse_perm rules).symm
    (hloaded.trans hloaded'.symm)
  obtain ⟨block', haccepted'⟩ := haccepts.1 ⟨block, haccepted⟩
  exact ⟨block, block', haccepted, haccepted', hbase, (hcontent _ _ haccepted haccepted').1⟩

end Library

namespace Workshop

variable {config : Config} {workshop : Workshop}

/-- The blocks of a library are well formed, whatever has been done, and so is that of
the next sheet that is accepted, which is then one of them. No condition on the sheet
is needed, as building a block makes it well formed. -/
theorem blocks_wellFormed (h : Reachable config workshop) :
    (∀ block ∈ workshop.library.blocks, block.WellFormed)
      ∧ ∀ sheet identifier name block,
        (workshop.library.addSheet config sheet identifier name).2 = some (.ok block) →
          block ∈ (workshop.library.addSheet config sheet identifier name).1.blocks
            ∧ block.WellFormed := by
  constructor
  · intro block hblock
    have hkept := kept_of_reachable h
    have hregistered := (hkept.blocks block).1 hblock
    obtain ⟨id, name, identifier, rules, hbuilt⟩ := hkept.built block hregistered
    exact Block.wellFormed_of_ofRules hbuilt
  · intro sheet identifier name block haccepted
    obtain ⟨references, -, hbuilt⟩ := Library.addSheet_eq_ok_iff.1 haccepted
    exact ⟨Library.mem_blocks_of_addSheet haccepted, Block.wellFormed_of_ofRules hbuilt⟩

/-- The target of a resolution is a class of the base, which a later rule makes the
base. So it can only be looked for when all rules have been gone through. When the
rule with the resolution is added, the class cannot be found yet. -/
theorem blocks_wellFormed_inherited :
    let config : Config := ⟨[], "/r", 32, []⟩
    let shown : Rule := ⟨[⟨[⟨[.cls "shown"], .none⟩]⟩], [], .unknown⟩
    let reference : AtRule := ⟨"block-reference", "a from './a.css'", .unknown⟩
    let item : Rule := ⟨[⟨[⟨[.cls "item"], .none⟩]⟩],
      [.declaration ⟨"color", "resolve('.shown')", false, .unknown⟩], .unknown⟩
    let extending : Rule := ⟨[⟨[⟨[.cls "root"], .none⟩]⟩],
      [.declaration ⟨"extends", "a", false, .unknown⟩], .unknown⟩
    let library := (Library.empty.addSheet config ⟨[], [shown]⟩ "/r/a.css" "a").1
    let added := library.addSheet config ⟨[reference], [item, extending]⟩ "/r/b.css" "b"
    ∃ registered block, Reachable config ⟨library, [], registered⟩ ∧ added.2 = some (.ok block)
      ∧ block.classes.map ClassData.name = ["root", "item"]
      ∧ block ∈ added.1.blocks ∧ block.WellFormed := by
  intro config shown reference item extending library added
  let base : Block := { Block.bare 1 "a" "/r/a.css" [] with others := [.bare "shown"] }
  have hmade : library.Made config := Library.Made.empty.addSheet ⟨[], [shown]⟩ "/r/a.css" "a"
  obtain ⟨registered, hreachable⟩ := hmade
  -- The first sheet has no references, so it is built at once.
  have hlibrary : library = { Library.empty with nextId := 2 }.register base :=
    congrArg Prod.fst ((Library.addSheet_nil ..).trans (Library.conclude_of_built rfl))
  have hnextId : library.nextId = 2 := congrArg Library.nextId hlibrary
  have hpath : Path.resolve (some "/r/b.css") "./a.css" config.root = "/r/a.css" := by
    decide +kernel
  have hbound : library.blockFor? "/r/a.css" = some base := by
    rw [hlibrary]
    exact Library.blockFor?_register_self _ base
  have hbinds : library.BindsReference config "/r/b.css" reference ⟨"a", "./a.css"⟩ base :=
    ⟨rfl, by decide +kernel, by rw [hpath]; decide, by rwa [hpath]⟩
  -- The reference of the second sheet is bound, so it is had without loading anything.
  have hloaded := Library.loaded?_of_binds hbinds (by decide) "b"
  have hbuilds : (Block.ofRules 2 "b" "/r/b.css" [("a", base)] [item, extending]).map
      (fun block => block.classes.map ClassData.name) = .ok ["root", "item"] := by decide +kernel
  obtain ⟨block, hbuilt, hclasses⟩ := map_eq_ok.1 hbuilds
  rw [← hnextId] at hbuilt
  have haccepted : added.2 = some (.ok block) :=
    Library.addSheet_eq_ok_iff.2 ⟨_, hloaded, hbuilt⟩
  obtain ⟨hblocks, hnext⟩ := blocks_wellFormed hreachable
  obtain ⟨hin, hwellFormed⟩ := hnext _ _ _ _ haccepted
  exact ⟨registered, block, hreachable, haccepted, hclasses, hin, hwellFormed⟩

end Workshop

end BlockStyles
