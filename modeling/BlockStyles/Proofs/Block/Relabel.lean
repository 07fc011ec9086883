import BlockStyles.Proofs.Block.Edits

/-!
# `BlockStyles.Proofs.Block.Relabel`: blocks under other ids

The id of a block depends on when its file was read. What a block says does not:
it is built in the same way if the blocks that it refers to have other ids, as long
as these tell the same blocks apart. `Block.relabel` gives a block, and all blocks in
it, ids that depend on nothing but their identifiers, and `Block.withoutIds` gives
all of them the same one.

Ids are compared in one place only, when a block that has a base gets one again.
`Block.Grounded` is what is needed there.

* `Block.relabel_relabel`: only the last relabelling counts.
* `Block.lookup?_relabel_isNone`: an object is there, or is not, whatever the ids are.
* `Draft.addRule_relabel`: adding a rule commutes with relabelling, from the classes of a
  selector up to the keys and declarations of a rule.
* `Block.ofRules_relabel`: building commutes with relabelling.
* `Block.withoutIds_relabel`: without ids, relabelled blocks are the same as before.
-/

set_option autoImplicit false

namespace BlockStyles

open BlockStyles.Selector (Chain Part)

/-! ### Relabelling -/

namespace Block

mutual

/-- The block and all blocks in it, with ids taken from their identifiers. -/
def relabel (number : String → Nat) : Block → Block
  | ⟨_, name, identifier, base, references, root, others⟩ =>
    ⟨number identifier, name, identifier, relabelBase number base,
      relabelAll number references, root, others⟩

/-- The base of a block with ids taken from identifiers. -/
def relabelBase (number : String → Nat) : Option Block → Option Block
  | none => none
  | some base => some (relabel number base)

/-- The references of a block with ids taken from identifiers. -/
def relabelAll (number : String → Nat) : List (String × Block) → List (String × Block)
  | [] => []
  | reference :: references => relabelEntry number reference :: relabelAll number references

/-- A reference with ids taken from identifiers. -/
def relabelEntry (number : String → Nat) : String × Block → String × Block
  | (localName, block) => (localName, relabel number block)

end

/-- The block and all blocks in it, all with the same id. -/
def withoutIds : Block → Block :=
  relabel fun _ => 0

variable (number : String → Nat) (block : Block)

/-- The references are relabelled one by one. The recursion spells this out so that it
can be seen to end; in proofs it is a map. -/
theorem relabelAll_eq_map (references : List (String × Block)) :
    relabelAll number references = references.map (relabelEntry number) := by
  induction references with
  | nil => rfl
  | cons reference references ih => rw [relabelAll, ih, List.map_cons]

/-- The id of a relabelled block is the number of its identifier. So blocks with one
identifier get one id, whatever ids they had. -/
@[simp]
theorem id_relabel : (block.relabel number).id = number block.identifier := by
  cases block
  rfl

/-- Relabelling keeps the name. Relabelling is about ids, and a class has none of its
own. -/
@[simp]
theorem name_relabel : (block.relabel number).name = block.name := by
  cases block
  rfl

/-- Relabelling keeps the identifier, so that a block can be relabelled again. -/
@[simp]
theorem identifier_relabel : (block.relabel number).identifier = block.identifier := by
  cases block
  rfl

/-- The base is relabelled with the block. It is a block of its own, with its own
identifier, so it gets the number of that. -/
@[simp]
theorem base_relabel : (block.relabel number).base = block.base.map (relabel number) := by
  obtain ⟨_, _, _, base, _, _, _⟩ := block
  cases base <;> rfl

/-- The references of a relabelled block are the relabelled ones, each under its
alias. -/
@[simp]
theorem references_relabel :
    (block.relabel number).references = block.references.map (relabelEntry number) := by
  cases block
  exact relabelAll_eq_map number _

/-- Relabelling keeps the root class. -/
@[simp]
theorem root_relabel : (block.relabel number).root = block.root := by
  cases block
  rfl

/-- Relabelling keeps the classes, so an index into them is one into those of the
relabelled block. -/
@[simp]
theorem classes_relabel : (block.relabel number).classes = block.classes := by
  cases block
  rfl

/-- A block with nothing but its root, relabelled, is one of that kind again. So a
draft can begin with references that are relabelled already. -/
theorem bare_relabel (id : Nat) (name identifier : String) (references : List (String × Block)) :
    (bare id name identifier references).relabel number
      = bare (number identifier) name identifier (references.map (relabelEntry number)) := by
  rw [bare, relabel, relabelAll_eq_map]
  rfl

/-! ### Relabelling twice -/

variable (number' : String → Nat)

mutual

/-- Only the last relabelling counts, as ids are taken from identifiers, which stay.
The four lemmas follow the recursion through bases and references. -/
theorem relabel_relabel : (block : Block) →
    (block.relabel number).relabel number' = block.relabel number'
  | ⟨_, _, _, base, references, _, _⟩ => by
    rw [relabel, relabel, relabel, relabelBase_relabelBase base,
      relabelAll_relabelAll references]

/-- Relabelling a base twice is relabelling it once, if there is one. It is proved by
recursion together with the statement for blocks. -/
theorem relabelBase_relabelBase : (base : Option Block) →
    relabelBase number' (relabelBase number base) = relabelBase number' base
  | none => rfl
  | some base => by
    rw [relabelBase, relabelBase, relabelBase, relabel_relabel base]

/-- Relabelling a list of references twice is relabelling it once. The ids of the
first time are all replaced, inside the references as well. -/
theorem relabelAll_relabelAll : (references : List (String × Block)) →
    relabelAll number' (relabelAll number references) = relabelAll number' references
  | [] => rfl
  | reference :: references => by
    rw [relabelAll, relabelAll, relabelAll, relabelEntry_relabelEntry reference,
      relabelAll_relabelAll references]

/-- Relabelling one reference twice is relabelling it once. -/
theorem relabelEntry_relabelEntry : (reference : String × Block) →
    relabelEntry number' (relabelEntry number reference) = relabelEntry number' reference
  | (localName, block) => by
    rw [relabelEntry, relabelEntry, relabelEntry, relabel_relabel block]

end

/-- Without ids, relabelled blocks are the same as before. So what is known up to a
numbering is known up to ids. -/
@[simp]
theorem withoutIds_relabel : (block.relabel number).withoutIds = block.withoutIds :=
  relabel_relabel number _ block

/-! ### Lookup -/

/-- The lineage of a relabelled block is the relabelled lineage. The induction follows
the bases, which are relabelled with the block. -/
theorem lineage_relabel : (block.relabel number).lineage = block.lineage.map (relabel number) := by
  fun_induction lineage block with
  | case1 => rfl
  | case2 id name identifier references root others base ih =>
    rw [relabel, relabelBase, lineage, ih]
    rfl

/-- An alias is looked up among relabelled references as among the references
themselves. -/
theorem lookup_relabelEntry (references : List (String × Block)) (localName : String) :
    (references.map (relabelEntry number)).lookup localName
      = (references.lookup localName).map (relabel number) := by
  induction references with
  | nil => rfl
  | cons reference references ih =>
    obtain ⟨name, target⟩ := reference
    rw [List.map_cons, relabelEntry, List.lookup_cons, List.lookup_cons, ih]
    cases localName == name <;> rfl

/-- An alias of a block refers to the same block, relabelled. -/
theorem referenced?_relabel (localName : String) :
    (block.relabel number).referenced? localName
      = (block.referenced? localName).map (relabel number) := by
  rw [referenced?, referenced?, references_relabel, lookup_relabelEntry]

/-- What stands behind an alias in the lineage of a block is the same, relabelled. The
lineage of the relabelled block is the lineage, relabelled block by block. -/
theorem aliased?_relabel (localName : List Char) :
    (block.relabel number).aliased? localName
      = (block.aliased? localName).map (relabel number) := by
  unfold aliased?
  split
  · rfl
  · rw [lineage_relabel, List.findSome?_map, List.map_findSome?]
    refine congrArg (List.findSome? · block.lineage) (funext fun ancestor => ?_)
    exact referenced?_relabel number ancestor _

end Block

namespace ClassRef

variable (number : String → Nat)

/-- The same class of the relabelled block. -/
def relabel (ref : ClassRef) : ClassRef :=
  ⟨ref.block.relabel number, ref.index.cast (by rw [Block.classes_relabel])⟩

/-- A class has the same data in the relabelled block. -/
@[simp]
theorem data_relabel (ref : ClassRef) : (ref.relabel number).data = ref.data := by
  obtain ⟨block, index⟩ := ref
  cases block
  rfl

/-- A class has the same name in the relabelled block. -/
@[simp]
theorem name_relabel (ref : ClassRef) : (ref.relabel number).name = ref.name := by
  rw [name, name, data_relabel]

end ClassRef

namespace Block

variable (number : String → Nat) (block : Block)

/-- A block finds the same class of its own. It stands in the same place, as
relabelling keeps the order of the classes. -/
theorem ownClass?_relabel (name : String) :
    (block.relabel number).ownClass? name
      = (block.ownClass? name).map (ClassRef.relabel number) := by
  rw [ownClass?, ownClass?, Option.map_map]
  cases block
  rfl

/-- A block finds the same class in its lineage. -/
theorem class?_relabel (name : String) :
    (block.relabel number).class? name = (block.class? name).map (ClassRef.relabel number) := by
  rw [class?, class?, lineage_relabel, List.findSome?_map, List.map_findSome?]
  refine congrArg (List.findSome? · block.lineage) (funext fun ancestor => ?_)
  exact ownClass?_relabel number ancestor name

/-- The root of the relabelled block is the same class. -/
theorem rootRef_relabel : (block.relabel number).rootRef = block.rootRef.relabel number := rfl

end Block

namespace ClassRef

variable (number : String → Nat)

/-- The classes of one name in the lineage are the same ones. States are looked for in
them, from the block itself up to its furthest ancestor. -/
theorem namesakes_relabel (ref : ClassRef) :
    (ref.relabel number).namesakes = ref.namesakes.map (relabel number) := by
  rw [namesakes, namesakes, name_relabel]
  change ((ref.block.relabel number).lineage.filterMap _) = _
  rw [Block.lineage_relabel, List.filterMap_map, List.map_filterMap]
  refine congrArg (List.filterMap · ref.block.lineage) (funext fun ancestor => ?_)
  exact Block.ownClass?_relabel number ancestor ref.name

/-- A state is there on a class, or is not, whatever the ids are. Ids play no part in
it, because states are looked for by their labels. -/
theorem ownState?_relabel_isNone (ref : ClassRef) (label : StateName) :
    ((ref.relabel number).ownState? label).isNone = (ref.ownState? label).isNone := by
  simp only [ownState?, Option.isNone_map]
  rw [data_relabel]

/-- A state can be reached on a class, or cannot, whatever the ids are. Whether a
state is there is a question of names, and those are not relabelled. -/
theorem state?_relabel_isNone (ref : ClassRef) (label : StateName) :
    ((ref.relabel number).state? label).isNone = (ref.state? label).isNone := by
  rw [Bool.eq_iff_iff, Option.isNone_iff_eq_none, Option.isNone_iff_eq_none, state?, state?,
    namesakes_relabel, List.findSome?_eq_none_iff, List.findSome?_eq_none_iff, List.forall_mem_map]
  refine forall₂_congr fun namesake _ => ?_
  rw [← Option.isNone_iff_eq_none, ownState?_relabel_isNone, Option.isNone_iff_eq_none]

end ClassRef

namespace Block

variable (number : String → Nat) (block : Block)

/-- What a selector asks for is there, or is not, whatever the ids are. The cases are
those of what can be sought: the root, a state of it, a class, a state of a class. -/
theorem sought?_relabel_isNone (sought : Sought) :
    ((block.relabel number).sought? sought).isNone = (block.sought? sought).isNone := by
  obtain ⟨cls, state⟩ := sought
  cases cls with
  | none =>
    cases state with
    | none => rfl
    | some label =>
      simp only [sought?, Option.isNone_map, rootRef_relabel, ClassRef.state?_relabel_isNone]
  | some name =>
    simp only [sought?, class?_relabel]
    cases block.class? name with
    | none => rfl
    | some ref =>
      cases state with
      | none => rfl
      | some label =>
        simp only [Option.map_some, Option.isNone_map, ClassRef.state?_relabel_isNone]

/-- An object is there, or is not, whatever the ids are. For the targets of
resolutions nothing more is needed, as the objects themselves are not kept. -/
theorem lookup?_relabel_isNone (reference : String) :
    ((block.relabel number).lookup? reference).isNone = (block.lookup? reference).isNone := by
  simp only [lookup?, aliased?_relabel]
  cases block.aliased? (reference.toList.takeWhile (!startsSelector ·)) with
  | none => rfl
  | some target =>
    simp only [Option.map_some, Option.bind_some, findObject?]
    cases Sought.ofSelector? (reference.toList.dropWhile (!startsSelector ·)) with
    | none => rfl
    | some sought => exact sought?_relabel_isNone number target sought

/-! ### Declarations of objects -/

/-- A relabelled block has the same classes. Whether a class is there decides what a
declaration adds, so this is needed for each of them. -/
theorem hasClass_relabel : (block.relabel number).hasClass = block.hasClass := by
  funext name
  rw [hasClass, hasClass, classes_relabel]

/-- Adding a class commutes with relabelling. -/
theorem withClass_relabel (name : String) :
    (block.relabel number).withClass name = (block.withClass name).relabel number := by
  rw [withClass, withClass, hasClass_relabel]
  cases block
  split <;> rfl

/-- Changing a class commutes with relabelling. The change is any function of the data
of a class, in which there are no ids. -/
theorem changeClass_relabel (name : String) (change : ClassData → ClassData) :
    (block.relabel number).changeClass name change
      = (block.changeClass name change).relabel number := by
  cases block
  rfl

/-- Changing a style commutes with relabelling. -/
theorem restyle_relabel (object : ObjectName) (change : Style → Style) :
    (block.relabel number).restyle object change = (block.restyle object change).relabel number :=
  changeClass_relabel number block _ _

/-- Declaring a state commutes with relabelling, the refusals included. The checks
look at names only. -/
theorem declareState_relabel (cls : String) (label : StateName) :
    (block.relabel number).declareState cls label
      = (block.declareState cls label).map (relabel number) := by
  unfold declareState
  rw [hasClass_relabel, classes_relabel, changeClass_relabel]
  split
  · rfl
  · split <;> rfl

/-- Declaring an object commutes with relabelling. Its class comes first, and then the
state if there is one. -/
theorem declare_relabel (object : ObjectName) :
    (block.relabel number).declare object = (block.declare object).map (relabel number) := by
  unfold declare
  rw [root_relabel, withClass_relabel]
  split
  · rfl
  · split
    · rfl
    · exact declareState_relabel number _ _ _

/-- Declaring the parts of a selector commutes with relabelling. The key is a name, so
it is the same on both sides. -/
theorem declareParts_relabel (parts : List Part) :
    (block.relabel number).declareParts parts
      = (block.declareParts parts).map fun (block, key) => (block.relabel number, key) := by
  -- Which object a part names, and what is wrong with one, does not depend on the block.
  fun_induction declareParts block parts with
  | case1 => rfl
  | case2 block part fault hfault => rw [declareParts, hfault]; rfl
  | case3 block part object hobject =>
    rw [declareParts, hobject]
    dsimp only
    rw [declare_relabel]
    cases block.declare object <;> rfl
  | case4 block part next parts fault hfault => rw [declareParts, hfault]; rfl
  | case5 block part next parts object hobject fault hfault =>
    rw [declareParts, hobject]
    dsimp only
    rw [declare_relabel, hfault]
    rfl
  | case6 block part next parts object hobject declared hdeclare ih =>
    rw [declareParts, hobject]
    dsimp only
    rw [declare_relabel, hdeclare]
    exact ih

/-- Declaring a selector commutes with relabelling; errors have the same place. The
key that is given back is made of names, and is the same. -/
theorem declareSelector_relabel (location : Location) (selector : Chain) :
    (block.relabel number).declareSelector location selector
      = (block.declareSelector location selector).map
        fun (block, key) => (block.relabel number, key) := by
  rw [declareSelector, declareSelector, declareParts_relabel]
  cases block.declareParts selector.parts <;> rfl

/-- Declaring all selectors of a rule commutes with relabelling. The induction is on
the selectors, and the block changes along the way. -/
theorem declareSelectors_relabel (location : Location) (selectors : List Chain) :
    (block.relabel number).declareSelectors location selectors
      = (block.declareSelectors location selectors).map
        fun (block, keys) => (block.relabel number, keys) := by
  induction selectors generalizing block with
  | nil => rfl
  | cons selector selectors ih =>
    rw [declareSelectors, declareSelectors, declareSelector_relabel]
    cases block.declareSelector location selector with
    | error error => rfl
    | ok declared =>
      obtain ⟨declared, key⟩ := declared
      simp only [Except.map]
      rw [ih]
      cases declared.declareSelectors location selectors <;> rfl

/-! ### Rules -/

/-- The ids of the references tell the same blocks apart as their numbers, and the base is one
of the references. -/
structure Grounded (number : String → Nat) (block : Block) : Prop where
  tells : ∀ reference ∈ block.references, ∀ reference' ∈ block.references,
    reference.2.id = reference'.2.id
      ↔ number reference.2.identifier = number reference'.2.identifier
  base : ∀ base, block.base = some base → ∃ localName, (localName, base) ∈ block.references

variable {number : String → Nat} {block : Block}

/-- Edits leave a block grounded, since its references stay and a new base is one of
them. -/
theorem Grounded.of_keeps {block' : Block} (h : block.Grounded number)
    (hkeeps : block.Keeps block') : block'.Grounded number := by
  refine ⟨hkeeps.references ▸ h.tells, fun base hbase => ?_⟩
  rw [hkeeps.references]
  exact (hkeeps.base base hbase).elim (h.base base) fun hin => hin

end Block

namespace Draft

variable {number : String → Nat} {draft : Draft}

/-- The draft with its block relabelled. -/
def relabel (number : String → Nat) (draft : Draft) : Draft :=
  { draft with block := draft.block.relabel number }

/-- Giving a base commutes with relabelling. Here ids are compared, and it is the
hypothesis that makes both sides come out alike. -/
theorem extend_relabel (h : draft.block.Grounded number) (location : Location)
    (localName : String) :
    (draft.relabel number).extend location localName
      = (draft.extend location localName).map (relabel number) := by
  unfold extend
  simp only [relabel, Block.referenced?_relabel, Block.base_relabel]
  cases hbase : draft.block.referenced? localName with
  | none => rfl
  | some base =>
    cases hpresent : draft.block.base with
    | none =>
      simp only [Option.map_some, Option.map_none, Except.map]
      congr 2
      cases draft.block
      rfl
    -- The base that is there and the one that is named are both among the references.
    | some present =>
      obtain ⟨name, hname⟩ := h.base present hpresent
      obtain ⟨front, back, hreferences, -⟩ := List.lookup_eq_some_iff.1 hbase
      have hsame : present.id = base.id
          ↔ number present.identifier = number base.identifier :=
        h.tells _ hname (localName, base) (by simp [hreferences])
      simp only [Option.map_some, Block.id_relabel, Block.name_relabel, hsame]
      split
      · simp only [Except.map]
        congr 2
        cases draft.block
        rfl
      · rfl

/-- Giving a name commutes with relabelling. The new name does not come from the ids
of anything. -/
theorem rename_relabel (location : Location) (value : List Char) :
    (draft.relabel number).rename location value
      = (draft.rename location value).map (relabel number) := by
  unfold rename
  dsimp only
  split
  · simp only [relabel, Except.map]
    congr 2
    cases draft.block
    rfl
  · rfl

/-- Setting a property commutes with relabelling. Targets are texts and have no ids. -/
theorem setProperty_relabel (location : Location) (object : ObjectName) (property : String)
    (value : List Char) :
    (draft.relabel number).setProperty location object property value
      = (draft.setProperty location object property value).relabel number := by
  unfold setProperty
  split <;> simp only [relabel, Block.restyle_relabel]

/-- Applying a declaration to a key commutes with relabelling. Only giving a base
looks at ids, and there the block has to be grounded. -/
theorem applyTo_relabel (h : draft.block.Grounded number) (declaration : Declaration)
    (key : Key) :
    applyTo declaration (draft.relabel number) key
      = (applyTo declaration draft key).map (relabel number) := by
  have hidentifier : (draft.relabel number).block.identifier = draft.block.identifier :=
    Block.identifier_relabel number _
  unfold applyTo
  simp only [hidentifier, extend_relabel h, rename_relabel, setProperty_relabel]
  split
  · split
    · rfl
    · split <;> rfl
  · rfl

/-- What commutes with relabelling for each element of a list does so for the list.
That it makes edits is needed as well, for the block has to be grounded at every
element. -/
theorem foldlM_relabel {α : Type} {f : Draft → α → Except Error Draft} {l : List α}
    (hf : ∀ a ∈ l, ∀ d : Draft, d.block.Grounded number →
      f (d.relabel number) a = (f d a).map (relabel number))
    (hedits : ∀ a ∈ l, ∀ d d', f d a = .ok d' →
      Block.Edits (fun _ => True) d.block d'.block)
    (h : draft.block.Grounded number) :
    l.foldlM f (draft.relabel number) = (l.foldlM f draft).map (relabel number) := by
  induction l generalizing draft with
  | nil => rfl
  | cons a l ih =>
    rw [List.foldlM_cons, List.foldlM_cons, hf a List.mem_cons_self draft h]
    cases ha : f draft a with
    | error error => rfl
    -- Edits leave a grounded block grounded, so the rest of the list commutes, too.
    | ok middle =>
      have hmiddle := h.of_keeps (hedits a List.mem_cons_self draft middle ha).keeps
      exact ih (fun b hb => hf b (List.mem_cons_of_mem _ hb))
        (fun b hb => hedits b (List.mem_cons_of_mem _ hb)) hmiddle

/-- Adding a rule commutes with relabelling: its selectors, and then two nested walks
over declarations and keys. -/
theorem addRule_relabel (h : draft.block.Grounded number) (rule : Rule) :
    (draft.relabel number).addRule rule = (draft.addRule rule).map (relabel number) := by
  have hidentifier : (draft.relabel number).block.identifier = draft.block.identifier :=
    Block.identifier_relabel number _
  have hdeclared := Block.declareSelectors_relabel number draft.block
    ⟨draft.block.identifier, rule.position⟩ rule.selectors
  unfold addRule
  simp only [hidentifier]
  simp only [relabel] at hdeclared ⊢
  rw [hdeclared]
  cases hselectors : draft.block.declareSelectors ⟨draft.block.identifier, rule.position⟩
      rule.selectors with
  | error error => rfl
  | ok declared =>
    obtain ⟨block, keys⟩ := declared
    -- Declaring leaves the references and the base alone, so the block is still grounded.
    have hedits : Block.Edits (fun _ => True) draft.block block :=
      Block.edits_of_declareSelectors trivial (fun _ _ _ _ _ _ => trivial) hselectors
    have hblock : block.Grounded number := h.of_keeps hedits.keeps
    have hdraft : ({ draft with block } : Draft).block.Grounded number := hblock
    refine foldlM_relabel (fun declaration _ d hd => ?_) (fun declaration _ d d' hd' => ?_) hdraft
    · exact foldlM_relabel (fun key _ e he => applyTo_relabel he declaration key)
        (fun key _ e e' he' => edits_of_applyTo he') hd
    · exact edits_of_foldlM (fun key _ e e' he => edits_of_applyTo he) hd'

/-- Finishing a draft commutes with relabelling. A target that is not found is missing
under all ids, so the error is the same. -/
theorem finish_relabel (draft : Draft) :
    (draft.relabel number).finish = draft.finish.map (Block.relabel number) := by
  -- All that counts about a resolution is whether its object is there.
  have hlookup : (fun entry : String × Location =>
      ((draft.block.relabel number).lookup? entry.1).isNone)
        = fun entry => (draft.block.lookup? entry.1).isNone :=
    funext fun entry => Block.lookup?_relabel_isNone number draft.block entry.1
  unfold finish
  simp only [relabel, hlookup]
  split <;> rfl

end Draft

/-- A block is built in the same way from relabelled references, and rules that are at
fault are so with the same error. It starts with a block that is grounded, which is
known of loaded references. -/
theorem Block.ofRules_relabel {number : String → Nat} {id : Nat} {name identifier : String}
    {references : List (String × Block)} (rules : List Rule)
    (h : (bare id name identifier references).Grounded number) :
    ofRules (number identifier) name identifier (references.map (relabelEntry number)) rules
      = (ofRules id name identifier references rules).map (relabel number) := by
  have hstart : (⟨.bare id name identifier references, []⟩ : Draft).block.Grounded number := h
  have hfold := Draft.foldlM_relabel (l := rules)
    (fun rule _ d hd => Draft.addRule_relabel hd rule)
    (fun rule _ d d' hd' => Draft.edits_of_addRule trivial (fun _ _ _ _ _ _ => trivial) hd') hstart
  rw [Draft.relabel, bare_relabel] at hfold
  unfold ofRules
  rw [hfold]
  cases rules.foldlM Draft.addRule ⟨.bare id name identifier references, []⟩ with
  | error error => rfl
  | ok draft => exact Draft.finish_relabel draft

end BlockStyles
