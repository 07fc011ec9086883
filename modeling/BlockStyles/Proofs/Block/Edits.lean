import BlockStyles.Block.Build
import BlockStyles.Proofs.Folds
import Mathlib.Logic.Relation

/-!
# `BlockStyles.Proofs.Block.Edits`: building a block step by step

The rules of a stylesheet turn an empty block into a finished one by edits of a
few kinds: a class or a state is added, the style of an object changes, the block
gets a base or a name. What each edit keeps, the whole construction keeps.

* `ObjectName.isLegal_ofCompound`: the names that selectors can bring into a block.
* `Block.edits_of_ofRules`: a block is built by edits.
* `Block.ofRules_keeps`: it has the id, the identifier and the references that it
  is given, and its base is among the references.
* `Block.Edits.keeps`: the step from one edit to all of them, of which the last theorem is
  an instance.
-/

set_option autoImplicit false

namespace BlockStyles

open Relation (ReflTransGen)
open BlockStyles.Selector (Chain Compound Part Simple)
open BlockStyles.Text (isIdentifier)

/-- The name of a state, and that of its group if it has one, are identifiers. -/
structure StateName.IsLegal (label : StateName) : Prop where
  name : isIdentifier label.name
  group : ∀ group, label.group = some group → isIdentifier group

/-- The name of an object is legal if that of its state is. About the name of its class nothing
is said but that it is one of the names that can be written. -/
structure ObjectName.IsLegal (IsClass : String → Prop) (object : ObjectName) : Prop where
  cls : IsClass object.cls
  state : ∀ label, object.state = some label → label.IsLegal

/-! ### Names in selectors -/

/-- What a compound selector has named so far is written in it. -/
structure Selected.IsLegal (IsClass : String → Prop) (selected : Selected) : Prop where
  cls : ∀ name, selected.cls = some name → IsClass name
  state : ∀ label, selected.state = some label → label.IsLegal

namespace Selected

variable {IsClass : String → Prop} {isKey : Bool} {selected selected' : Selected}

/-- A state that comes of an attribute has names that are identifiers. Others have
been refused, both for the group and for the state. -/
theorem isLegal_stateOf {attr : Selector.Attribute} {label : StateName}
    (h : stateOf attr = .ok label) : label.IsLegal := by
  unfold stateOf at h
  split at h
  · split at h
    · cases h
    · rename_i hgroup
      split at h
      · cases h
      · rename_i hname
        cases h
        exact ⟨by simpa using hname, fun group hg => by cases hg; simpa using hgroup⟩
  · split at h
    · cases h
    · rename_i hname
      cases h
      exact ⟨by simpa using hname, fun group hg => by cases hg⟩

/-- A pseudo selector names nothing: where it is allowed, what has been named stays
the same. -/
theorem eq_of_pseudo (h : add.pseudo isKey selected = .ok selected') : selected' = selected := by
  unfold add.pseudo at h
  split at h
  · cases h
  · split at h
    · cases h
    · cases h
      rfl

/-- A simple selector adds legal names to legal names. The name of a class is legal if
it is so in the selector; those of states are checked when they are added. -/
theorem IsLegal.add (h : selected.IsLegal IsClass) {simple : Simple}
    (hsimple : ∀ name, simple = .cls name → IsClass name)
    (hadd : selected.add isKey simple = .ok selected') : selected'.IsLegal IsClass := by
  cases simple with
  | cls name =>
    simp only [Selected.add] at hadd
    split at hadd
    · cases hadd
    · split at hadd
      · split at hadd <;> cases hadd
      · cases hadd
        exact ⟨fun n hn => by cases hn; exact hsimple _ rfl, h.state⟩
  -- An attribute must be in the space of states, and must not follow another state.
  | attr attr =>
    simp only [Selected.add] at hadd
    split at hadd
    · split at hadd
      · cases hadd
      · cases hstate : stateOf attr with
        | error fault =>
          rw [hstate] at hadd
          cases hadd
        | ok label =>
          rw [hstate] at hadd
          cases hadd
          exact ⟨h.cls, fun l hl => by cases hl; exact isLegal_stateOf hstate⟩
    · cases hadd
  | pseudoClass name => exact eq_of_pseudo hadd ▸ h
  | pseudoElement name => exact eq_of_pseudo hadd ▸ h
  | type name => cases hadd
  | id name => cases hadd
  | universal => cases hadd
  | parent => cases hadd

/-- A whole compound keeps names legal, one simple selector after the other. What is
legal is a parameter for classes, as these are not checked when rules are read. -/
theorem IsLegal.fold (h : selected.IsLegal IsClass) {compound : Compound}
    (hcompound : ∀ name, Simple.cls name ∈ compound → IsClass name)
    (hfold : compound.foldlM (Selected.add isKey) selected = .ok selected') :
    selected'.IsLegal IsClass := by
  refine foldlM_keeps (fun simple hsimple before after hadd hbefore => ?_) hfold h
  exact IsLegal.add hbefore (fun name hname => hcompound name (hname ▸ hsimple)) hadd

end Selected

/-- The names in an object that a compound selector names are written in the selector;
the root need not be. That is why the name of the root has to be one of the names that
can be written. -/
theorem ObjectName.isLegal_ofCompound {IsClass : String → Prop} {isKey : Bool}
    {compound : Compound} {object : ObjectName} (hroot : IsClass rootName)
    (hcompound : ∀ name, Simple.cls name ∈ compound → IsClass name)
    (h : ObjectName.ofCompound isKey compound = .ok object) : object.IsLegal IsClass := by
  have hnothing : Selected.nothing.IsLegal IsClass :=
    { cls := fun name hname => by cases hname
      state := fun label hlabel => by cases hlabel }
  unfold ObjectName.ofCompound at h
  split at h
  · cases h
  · rename_i selected hfold
    have hselected := hnothing.fold hcompound hfold
    split at h
    · cases h
    · cases h
      refine ⟨?_, hselected.state⟩
      cases hcls : selected.cls with
      -- Without a class the object is the root or one of its states.
      | none => exact hroot
      | some name => exact hselected.cls name hcls

/-! ### Edits -/

namespace Block

/-- One step of building a block. The classes that can be added are those whose name can be
written. -/
inductive Edit (IsClass : String → Prop) : Block → Block → Prop where
  | addClass (block : Block) (name : String) (h : IsClass name) :
      Edit IsClass block (block.withClass name)
  | addState (block : Block) (cls : String) (label : StateName) (h : label.IsLegal) :
      Edit IsClass block (block.changeClass cls (·.withState label))
  | restyle (block : Block) (object : ObjectName) (change : Style → Style) :
      Edit IsClass block (block.restyle object change)
  | extend (block : Block) (localName : String) (base : Block)
      (h : block.referenced? localName = some base) :
      Edit IsClass block { block with base := some base }
  | rename (block : Block) (name : String) : Edit IsClass block { block with name }

/-- Building a block, for as long as it takes. -/
abbrev Edits (IsClass : String → Prop) : Block → Block → Prop :=
  ReflTransGen (Edit IsClass)

variable {IsClass : String → Prop} {block block' : Block}

/-- To declare an object is to add its class, and then its state if it has one. The
checks before that refuse objects, but they change nothing. -/
theorem edits_of_declare {object : ObjectName} (hobject : object.IsLegal IsClass)
    (h : block.declare object = .ok block') : Edits IsClass block block' := by
  have hclass : Edits IsClass block (block.withClass object.cls) :=
    .single (.addClass block object.cls hobject.cls)
  unfold declare at h
  split at h
  · cases h
  · split at h
    · cases h
      exact hclass
    -- The class comes first, and the state is added to it.
    · rename_i label hstate
      unfold declareState at h
      split at h
      · cases h
      · split at h
        · cases h
        · cases h
          exact hclass.tail (.addState _ object.cls label (hobject.state label hstate))

/-- The classes of a selector can be written. -/
def Names (IsClass : String → Prop) (parts : List Part) : Prop :=
  ∀ part ∈ parts, ∀ name, Simple.cls name ∈ part.compound → IsClass name

/-- To declare the parts of a selector is to make edits, one object after the other.
The induction follows the cases of the function, of which four end in an error. -/
theorem edits_of_declareParts (hroot : IsClass rootName) {parts : List Part} {key : ObjectName}
    (hparts : Names IsClass parts) (h : block.declareParts parts = .ok (block', key)) :
    Edits IsClass block block' := by
  fun_induction declareParts block parts with
  | case1 => cases h
  | case2 => cases h
  | case3 block part object hobject =>
    have hlegal := ObjectName.isLegal_ofCompound hroot (hparts part List.mem_cons_self) hobject
    cases hdeclare : block.declare object with
    | error fault =>
      rw [hdeclare] at h
      cases h
    | ok declared =>
      rw [hdeclare] at h
      cases h
      exact edits_of_declare hlegal hdeclare
  | case4 => cases h
  | case5 => cases h
  -- A part with others behind it: its object is declared first, in the block that they go
  -- on with.
  | case6 block part next parts object hobject declared hdeclare ih =>
    have hlegal := ObjectName.isLegal_ofCompound hroot (hparts part List.mem_cons_self) hobject
    exact (edits_of_declare hlegal hdeclare).trans
      (ih (fun p hp => hparts p (List.mem_cons_of_mem _ hp)) h)

/-- To declare all selectors of a rule is to make edits. The keys that come of it play
no role here. -/
theorem edits_of_declareSelectors (hroot : IsClass rootName) {location : Location}
    {selectors : List Chain} {keys : List Key}
    (hselectors : ∀ selector ∈ selectors, Names IsClass selector.parts)
    (h : block.declareSelectors location selectors = .ok (block', keys)) :
    Edits IsClass block block' := by
  induction selectors generalizing block keys with
  | nil =>
    cases h
    exact .refl
  | cons selector selectors ih =>
    unfold declareSelectors at h
    split at h
    · cases h
    · rename_i middle key hselector
      unfold declareSelector at hselector
      split at hselector
      · cases hselector
      · rename_i declared object hparts
        cases hselector
        cases hrest : middle.declareSelectors location selectors with
        | error error =>
          rw [hrest] at h
          cases h
        | ok result =>
          obtain ⟨last, others⟩ := result
          rw [hrest] at h
          cases h
          -- The edits of this selector are made first, and then those of the others.
          exact (edits_of_declareParts hroot (hselectors selector List.mem_cons_self) hparts).trans
            (ih (fun s hs => hselectors s (List.mem_cons_of_mem _ hs)) hrest)

end Block

/-! ### Rules -/

namespace Draft

variable {IsClass : String → Prop} {draft draft' : Draft}

/-- What every element of a list can add by edits, they can add together.
Declarations, keys and rules are all gone through in this way. -/
theorem edits_of_foldlM {α : Type} {f : Draft → α → Except Error Draft} {l : List α}
    (hf : ∀ a ∈ l, ∀ draft draft', f draft a = .ok draft' →
      Block.Edits IsClass draft.block draft'.block)
    (h : l.foldlM f draft = .ok draft') : Block.Edits IsClass draft.block draft'.block := by
  -- What each element keeps is that there is a way by edits from the first block.
  have hkept : ∀ a ∈ l, ∀ before after, f before a = .ok after →
      Block.Edits IsClass draft.block before.block → Block.Edits IsClass draft.block after.block :=
    fun a ha before after hadd hbefore => hbefore.trans (hf a ha before after hadd)
  exact foldlM_keeps hkept h .refl

/-- To apply a declaration to a key is a single edit at most: a property is set, a
base is given, or the block gets its name. -/
theorem edits_of_applyTo {declaration : Declaration} {key : Key}
    (h : applyTo declaration draft key = .ok draft') :
    Block.Edits IsClass draft.block draft'.block := by
  unfold applyTo at h
  dsimp only at h
  split at h
  · split at h
    -- The object is not the root, so a property of the block does not belong here.
    · cases h
    · split at h
      · unfold extend at h
        split at h
        · cases h
        · rename_i base hbase
          split at h
          · split at h
            · cases h
              exact .single (.extend _ _ base hbase)
            · cases h
          · cases h
            exact .single (.extend _ _ base hbase)
      · unfold rename at h
        dsimp only at h
        split at h
        · cases h
          exact .single (.rename _ _)
        · cases h
  · cases h
    -- A target that is noted down is no edit, as targets are kept beside the block.
    unfold setProperty
    split <;> exact .single (.restyle _ _ _)

/-- To add a rule is to make edits: first its selectors are declared, and then its
declarations are applied. -/
theorem edits_of_addRule {rule : Rule} (hroot : IsClass rootName)
    (hrule : ∀ selector ∈ rule.selectors, Block.Names IsClass selector.parts)
    (h : draft.addRule rule = .ok draft') : Block.Edits IsClass draft.block draft'.block := by
  unfold addRule at h
  dsimp only at h
  split at h
  · cases h
  · rename_i block keys hdeclared
    -- The declarations are gone through, and for each of them the keys.
    have hdeclarations : Block.Edits IsClass block draft'.block := by
      refine edits_of_foldlM (fun declaration _ d d' hd => ?_) h
      exact edits_of_foldlM (fun key _ e e' he => edits_of_applyTo he) hd
    exact (Block.edits_of_declareSelectors hroot hrule hdeclared).trans hdeclarations

end Draft

namespace Block

variable {IsClass : String → Prop} {block block' : Block}

/-- A block is built by edits, beginning with nothing but its root. What remains to be
checked when the rules are over does not change it. -/
theorem edits_of_ofRules {id : Nat} {name identifier : String}
    {references : List (String × Block)} {rules : List Rule} (hroot : IsClass rootName)
    (hrules : ∀ rule ∈ rules, ∀ selector ∈ rule.selectors, Names IsClass selector.parts)
    (h : ofRules id name identifier references rules = .ok block) :
    Edits IsClass (.bare id name identifier references) block := by
  unfold ofRules at h
  split at h
  · cases h
  · rename_i draft hdraft
    unfold Draft.finish at h
    split at h
    · cases h
    · cases h
      exact Draft.edits_of_foldlM
        (fun rule hrule d d' hd => Draft.edits_of_addRule hroot (hrules rule hrule) hd) hdraft

/-! ### What edits keep -/

/-- Edits leave the id, the identifier and the references alone, and any base comes from the
references. -/
structure Keeps (block block' : Block) : Prop where
  id : block'.id = block.id
  identifier : block'.identifier = block.identifier
  references : block'.references = block.references
  base : ∀ base, block'.base = some base →
    block.base = some base ∨ ∃ localName, (localName, base) ∈ block.references

/-- An edit keeps the id, the identifier and the references, and gives no base but a
referenced one. -/
theorem Edit.keeps (h : Edit IsClass block block') : block.Keeps block' := by
  cases h with
  | addClass name =>
    unfold withClass
    split <;> exact ⟨rfl, rfl, rfl, fun base hbase => .inl hbase⟩
  | addState cls label => exact ⟨rfl, rfl, rfl, fun base hbase => .inl hbase⟩
  | restyle object change => exact ⟨rfl, rfl, rfl, fun base hbase => .inl hbase⟩
  | extend localName base hreferenced =>
    refine ⟨rfl, rfl, rfl, fun b hb => ?_⟩
    cases hb
    obtain ⟨front, back, hreferences, -⟩ := List.lookup_eq_some_iff.1 hreferenced
    exact .inr ⟨localName, by simp [hreferences]⟩
  | rename name => exact ⟨rfl, rfl, rfl, fun base hbase => .inl hbase⟩

/-- What one edit keeps, a series of them keeps. A base that comes up on the way is
still among the references in the end, because these stay the same. -/
theorem Edits.keeps (h : Edits IsClass block block') : block.Keeps block' := by
  induction h with
  | refl => exact ⟨rfl, rfl, rfl, fun base hbase => .inl hbase⟩
  | tail _ hlast ih =>
    have hkeeps := hlast.keeps
    refine ⟨hkeeps.id.trans ih.id, hkeeps.identifier.trans ih.identifier,
      hkeeps.references.trans ih.references, fun base hbase => ?_⟩
    rcases hkeeps.base base hbase with hbase | hbase
    · exact ih.base base hbase
    · exact .inr (ih.references ▸ hbase)

/-- A block that is built has the id, the identifier and the references that have been
given for it. Nothing is asked of the names in the rules. -/
theorem ofRules_keeps {id : Nat} {name identifier : String} {references : List (String × Block)}
    {rules : List Rule} (h : ofRules id name identifier references rules = .ok block) :
    (bare id name identifier references).Keeps block := by
  have hedits : Edits (fun _ => True) (.bare id name identifier references) block :=
    edits_of_ofRules trivial (fun _ _ _ _ _ _ _ _ => trivial) h
  exact hedits.keeps

end Block

end BlockStyles
