import BlockStyles.Proofs.Block.Edits

/-!
# `BlockStyles.Proofs.Block.Faults`: what can be wrong with rules

The rules of a stylesheet are made into a block, or one of them is at fault. Then the error is of
one of a few kinds, none of which has to do with other files, and it is at the place of the rule
or of the declaration.

* `Error.InRules`: an error about rules of a file.
* `Block.inRules_of_ofRules`: there are no other errors when a block is built.
-/

set_option autoImplicit false

namespace BlockStyles

open BlockStyles.Text (Position)
open BlockStyles.Selector (Chain)

/-- What can be wrong with rules. -/
inductive Cause.OfRules : Cause → Prop where
  | selector (fault : SelectorFault) (selector : Chain) : OfRules (.selector fault selector)
  | misplacedProperty (property : String) : OfRules (.misplacedProperty property)
  | secondBase (name : String) : OfRules (.secondBase name)
  | illegalBlockName (name : String) : OfRules (.illegalBlockName name)
  | unknownBase (localName : String) : OfRules (.unknownBase localName)
  | unknownTarget (target : String) : OfRules (.unknownTarget target)

/-- A rule is here, or one of its declarations. -/
def Rule.StandsAt (rule : Rule) (position : Position) : Prop :=
  position = rule.position ∨ ∃ declaration ∈ rule.declarations, position = declaration.position

/-- An error about rules of a file, at the place of one of them. -/
inductive Error.InRules (identifier : String) (rules : List Rule) : Error → Prop where
  | intro (rule : Rule) (position : Position) (cause : Cause) (hrule : rule ∈ rules)
      (hposition : rule.StandsAt position) (hcause : cause.OfRules) :
      InRules identifier rules (.located ⟨identifier, position⟩ cause)

namespace Draft

variable {identifier : String} {rules : List Rule} {draft draft' : Draft} {error : Error}

/-- The draft is one of the file, and its targets stand in the rules. -/
structure Placed (identifier : String) (rules : List Rule) (draft : Draft) : Prop where
  file : draft.block.identifier = identifier
  targets : ∀ target ∈ draft.targets, ∃ rule ∈ rules, ∃ position, rule.StandsAt position
    ∧ target.2 = ⟨identifier, position⟩

/-- A draft stays placed when a declaration is applied to a key. The place of a target
is that of the declaration, which belongs to one of the rules. -/
theorem Placed.applyTo (h : draft.Placed identifier rules) {rule : Rule} (hrule : rule ∈ rules)
    {declaration : Declaration} (hdeclaration : declaration ∈ rule.declarations) {key : Key}
    (happlied : applyTo declaration draft key = .ok draft') : draft'.Placed identifier rules := by
  have hedits : Block.Edits (fun _ => True) draft.block draft'.block := edits_of_applyTo happlied
  refine ⟨hedits.keeps.identifier.trans h.file, fun target htarget => ?_⟩
  unfold Draft.applyTo at happlied
  dsimp only at happlied
  -- Only a resolution brings a target, which stands at the declaration.
  split at happlied
  · split at happlied
    · cases happlied
    · split at happlied
      · unfold extend at happlied
        split at happlied
        · cases happlied
        · split at happlied
          · split at happlied
            · cases happlied
              exact h.targets target htarget
            · cases happlied
          · cases happlied
            exact h.targets target htarget
      · unfold rename at happlied
        dsimp only at happlied
        split at happlied
        · cases happlied
          exact h.targets target htarget
        · cases happlied
  · cases happlied
    unfold setProperty at htarget
    split at htarget
    · exact h.targets target htarget
    · rcases List.mem_append.1 htarget with htarget | htarget
      · exact h.targets target htarget
      · cases List.mem_singleton.1 htarget
        refine ⟨rule, hrule, declaration.position, .inr ⟨declaration, hdeclaration, rfl⟩, ?_⟩
        rw [h.file]

/-- What is wrong with a declaration is reported at the declaration. There are four
things that can be, and each of them is one of the causes that have to do with rules. -/
theorem inRules_of_applyTo (h : draft.Placed identifier rules) {rule : Rule} (hrule : rule ∈ rules)
    {declaration : Declaration} (hdeclaration : declaration ∈ rule.declarations) {key : Key}
    (herror : applyTo declaration draft key = .error error) : error.InRules identifier rules := by
  -- Errors carry the place of the declaration, whatever is wrong with it.
  have hplace : rule.StandsAt declaration.position := .inr ⟨declaration, hdeclaration, rfl⟩
  unfold Draft.applyTo at herror
  rw [h.file] at herror
  dsimp only at herror
  split at herror
  · split at herror
    · cases herror
      exact ⟨rule, _, _, hrule, hplace, .misplacedProperty _⟩
    · split at herror
      · unfold extend at herror
        split at herror
        · cases herror
          exact ⟨rule, _, _, hrule, hplace, .unknownBase _⟩
        · split at herror
          · split at herror
            · cases herror
            · cases herror
              exact ⟨rule, _, _, hrule, hplace, .secondBase _⟩
          · cases herror
      · unfold rename at herror
        dsimp only at herror
        split at herror
        · cases herror
        · cases herror
          exact ⟨rule, _, _, hrule, hplace, .illegalBlockName _⟩
  · cases herror

/-- A draft stays placed when a declaration is applied to all keys of its rule. The
location that is noted down with a target is that of the declaration. -/
theorem Placed.apply (h : draft.Placed identifier rules) {rule : Rule} (hrule : rule ∈ rules)
    {declaration : Declaration} (hdeclaration : declaration ∈ rule.declarations) {keys : List Key}
    (happlied : apply keys draft declaration = .ok draft') : draft'.Placed identifier rules :=
  foldlM_keeps (fun _ _ _ _ hkey hplaced => hplaced.applyTo hrule hdeclaration hkey) happlied h

end Draft

/-- What is wrong with a selector is reported at the rule that it belongs to.
Selectors have no places of their own, so this is as near as an error can be located. -/
theorem Block.inRules_of_declareSelectors {block : Block} {rules : List Rule} {rule : Rule}
    {selectors : List Chain} {error : Error} (hrule : rule ∈ rules)
    (h : block.declareSelectors ⟨block.identifier, rule.position⟩ selectors = .error error) :
    error.InRules block.identifier rules := by
  have hselector : ∀ {identifier : String} {block : Block} {selector : Chain} {error : Error},
      block.declareSelector ⟨identifier, rule.position⟩ selector = .error error →
        error.InRules identifier rules := by
    intro identifier block selector error h
    unfold declareSelector at h
    split at h
    · cases h
      exact ⟨rule, _, _, hrule, .inl rfl, .selector _ _⟩
    · cases h
  -- The location is that of the first block; later blocks have the same, but it is simpler
  -- to forget where it came from.
  generalize block.identifier = identifier at h ⊢
  induction selectors generalizing block with
  | nil => cases h
  | cons selector selectors ih =>
    unfold declareSelectors at h
    split at h
    · rename_i herror
      cases h
      exact hselector herror
    · exact ih (map_eq_error.1 h)

namespace Draft

variable {identifier : String} {rules : List Rule} {draft draft' : Draft} {error : Error}

/-- A draft stays placed when selectors are declared, for these bring no targets. The
identifier of the block stays too, since declaring is a run of edits. -/
theorem Placed.declareSelectors (h : draft.Placed identifier rules) {location : Location}
    {selectors : List Chain} {block : Block} {keys : List Key}
    (hdeclared : draft.block.declareSelectors location selectors = .ok (block, keys)) :
    Placed identifier rules { draft with block } := by
  have hedits : Block.Edits (fun _ => True) draft.block block :=
    Block.edits_of_declareSelectors trivial (fun _ _ _ _ _ _ => trivial) hdeclared
  exact ⟨hedits.keeps.identifier.trans h.file, h.targets⟩

/-- A draft stays placed when a rule is added. So what has been noted down can be
found again in the rules when the draft is finished. -/
theorem Placed.addRule (h : draft.Placed identifier rules) {rule : Rule} (hrule : rule ∈ rules)
    (hadded : draft.addRule rule = .ok draft') : draft'.Placed identifier rules := by
  unfold Draft.addRule at hadded
  dsimp only at hadded
  split at hadded
  · cases hadded
  · rename_i block keys hdeclared
    exact foldlM_keeps (fun _ hdeclaration _ _ happlied hbefore =>
      hbefore.apply hrule hdeclaration happlied) hadded (h.declareSelectors hdeclared)

/-- What is wrong with a rule is reported at the rule or at one of its declarations.
The draft that the walk had got to when it failed is one to which the invariant
applies. -/
theorem inRules_of_addRule (h : draft.Placed identifier rules) {rule : Rule} (hrule : rule ∈ rules)
    (herror : draft.addRule rule = .error error) : error.InRules identifier rules := by
  unfold Draft.addRule at herror
  dsimp only at herror
  split at herror
  · rename_i hdeclared
    cases herror
    exact h.file ▸ Block.inRules_of_declareSelectors hrule hdeclared
  · rename_i block keys hdeclared
    -- The walk over the declarations fails at one of them, and there at one of the keys.
    obtain ⟨declaration, hdeclaration, before, hbefore, hdeclarationFails⟩ :=
      foldlM_eq_error (fun _ hdeclaration _ _ happlied hbefore =>
        Placed.apply hbefore hrule hdeclaration happlied) herror (h.declareSelectors hdeclared)
    obtain ⟨key, -, first, hfirst, hkeyFails⟩ :=
      foldlM_eq_error (fun _ _ _ _ hkey hbefore =>
        Placed.applyTo hbefore hrule hdeclaration hkey) hdeclarationFails hbefore
    exact inRules_of_applyTo hfirst hrule hdeclaration hkeyFails

end Draft

/-- If no block comes of rules, one of them is at fault. An unknown target shows only
when all rules have been gone through, so the places of targets are part of what is
kept until then. -/
theorem Block.inRules_of_ofRules {id : Nat} {name identifier : String}
    {references : List (String × Block)} {rules : List Rule} {error : Error}
    (h : ofRules id name identifier references rules = .error error) :
    error.InRules identifier rules := by
  have hstart : Draft.Placed identifier rules ⟨.bare id name identifier references, []⟩ :=
    ⟨rfl, nofun⟩
  -- What is known of drafts is kept by every rule that is added.
  have hkeeps : ∀ rule ∈ rules, ∀ draft draft' : Draft, draft.addRule rule = .ok draft' →
      draft.Placed identifier rules → draft'.Placed identifier rules :=
    fun rule hrule draft draft' hadded hplaced => hplaced.addRule hrule hadded
  unfold ofRules at h
  split at h
  · rename_i hrules
    cases h
    obtain ⟨rule, hrule, draft, hplaced, hadded⟩ := foldlM_eq_error hkeeps hrules hstart
    exact Draft.inRules_of_addRule hplaced hrule hadded
  · rename_i draft hrules
    have hplaced := foldlM_keeps hkeeps hrules hstart
    -- All rules have been added, so it is a target that is at fault.
    unfold Draft.finish at h
    split at h
    · rename_i hfound
      cases h
      obtain ⟨rule, hrule, position, hposition, hlocation⟩ :=
        hplaced.targets _ (List.mem_of_find?_eq_some hfound)
      dsimp only at hlocation
      subst hlocation
      exact ⟨rule, position, _, hrule, hposition, .unknownTarget _⟩
    · cases h

end BlockStyles
