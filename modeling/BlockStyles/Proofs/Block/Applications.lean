import BlockStyles.Proofs.Block.Rules
import BlockStyles.Proofs.Block.Styles
import BlockStyles.Proofs.SortedList

/-!
# `BlockStyles.Proofs.Block.Applications`: what a declaration does to a block

A declaration either speaks of the block itself, by `extends` or `block-name`, or it sets
a property on the object it is applied to. Whether it can be applied depends on the
references of the block and, for a base, on the base that the block has already.

* `Draft.Took`: what is there after a declaration has been applied.
* `Draft.take_eq_ok_iff`: when a declaration can be applied.
-/

set_option autoImplicit false

namespace BlockStyles

open BlockStyles.Text (isIdentifier trim unquote)

/-- The declaration speaks of the block itself. -/
def Declaration.IsOfBlock (declaration : Declaration) : Prop :=
  declaration.property = extendsProperty ∨ declaration.property = nameProperty
deriving Decidable

namespace Application

/-- The value of the declaration, without the white space around it. -/
def value (application : Application) : List Char :=
  trim application.declaration.value.toList

/-- The resolution that is recorded. -/
def resolution? (application : Application) : Option Resolution :=
  if application.declaration.IsOfBlock then none
  else (resolveTarget? application.value).map (⟨application.declaration.property, ·⟩)

/-- The block that becomes the base. -/
def base? (references : List (String × Block)) (application : Application) : Option Block :=
  if application.declaration.property = extendsProperty then
    references.lookup (.ofList application.value)
  else
    none

/-- The base is one of the references. So nothing new comes into the lineage of a
block but what it has referred to. -/
theorem exists_mem_of_base? {references : List (String × Block)} {application : Application}
    {base : Block} (h : application.base? references = some base) :
    ∃ localName, (localName, base) ∈ references := by
  unfold base? at h
  split at h
  · obtain ⟨front, back, hreferences, -⟩ := List.lookup_eq_some_iff.1 h
    exact ⟨_, hreferences ▸ List.mem_append_right _ List.mem_cons_self⟩
  · cases h

/-- The name that the block gets. -/
def name? (application : Application) : Option String :=
  if application.declaration.property = nameProperty then
    some (.ofList (unquote application.value))
  else
    none

/-- What becomes of an object and its style. -/
def effect (application : Application) (entry : ObjectName × Style) : ObjectName × Style :=
  if application.declaration.IsOfBlock then entry
  else
    restyled application.key.object
      (fun style =>
        { properties := style.properties.insertNew application.declaration.property
          resolutions := style.resolutions ++ application.resolution?.toList })
      entry

/-- The application is in order, whatever has been applied before. -/
structure IsAcceptable (references : List (String × Block)) (application : Application) :
    Prop where
  placed : application.declaration.IsOfBlock → application.key.isPlainRoot
  base : application.declaration.property = extendsProperty →
    (application.base? references).isSome
  name : ∀ name, application.name? = some name → isIdentifier name

/-- When naming a base is in order: on the plain root, and for an alias that refers to
something. -/
theorem isAcceptable_iff_of_extends {references : List (String × Block)}
    {application : Application} (h : application.declaration.property = extendsProperty) :
    application.IsAcceptable references
      ↔ application.key.isPlainRoot ∧ (application.base? references).isSome := by
  have hname : application.name? = none := if_neg (h ▸ by decide)
  constructor
  · intro hacceptable
    exact ⟨hacceptable.placed (.inl h), hacceptable.base h⟩
  · rintro ⟨hplain, hbase⟩
    exact ⟨fun _ => hplain, fun _ => hbase, by simp [hname]⟩

/-- When naming the block is in order: on the plain root, and with an identifier. Of
the three conditions the one about bases is empty here. -/
theorem isAcceptable_iff_of_name {references : List (String × Block)}
    {application : Application} (h : application.declaration.property = nameProperty) :
    application.IsAcceptable references
      ↔ application.key.isPlainRoot ∧ isIdentifier (.ofList (unquote application.value)) := by
  have hname : application.name? = some (.ofList (unquote application.value)) := if_pos h
  have hextends : application.declaration.property ≠ extendsProperty := h ▸ by decide
  constructor
  · intro hacceptable
    exact ⟨hacceptable.placed (.inr h), hacceptable.name _ hname⟩
  · rintro ⟨hplain, hidentifier⟩
    exact ⟨fun _ => hplain, fun h => absurd h hextends, by simpa [hname] using hidentifier⟩

/-- To set a property on an object is always in order. A value that is a resolution is
not checked before all rules have been added. -/
theorem isAcceptable_of_not_isOfBlock (references : List (String × Block))
    {application : Application} (h : ¬ application.declaration.IsOfBlock) :
    application.IsAcceptable references := by
  have hname : application.name? = none := if_neg (mt .inr h)
  exact ⟨fun hblock => absurd hblock h, fun hextends => absurd (.inl hextends) h, by simp [hname]⟩

end Application

namespace Draft

/-- What is there after a declaration has been applied. -/
structure Took (draft : Draft) (application : Application) (draft' : Draft) : Prop where
  root : draft'.block.root.name = draft.block.root.name
  styles : draft'.block.styles = draft.block.styles.map application.effect
  references : draft'.block.references = draft.block.references
  base : draft'.block.base = (application.base? draft.block.references).or draft.block.base
  name : draft'.block.name = application.name?.getD draft.block.name
  targets : draft'.targets.map Prod.fst
    = draft.targets.map Prod.fst ++ (application.resolution?.map Resolution.target).toList

variable {draft draft' : Draft} {application : Application}

/-- Setting a property as one equation, with a resolution or without: what is recorded
is the list of the target, if there is one. -/
theorem setProperty_eq (draft : Draft) (location : Location) (object : ObjectName)
    (property : String) (value : List Char) :
    draft.setProperty location object property value
      = { block := draft.block.restyle object fun style =>
            { properties := style.properties.insertNew property
              resolutions := style.resolutions
                ++ ((resolveTarget? value).map (Resolution.mk property)).toList }
          targets := draft.targets ++ ((resolveTarget? value).map (·, location)).toList } := by
  unfold setProperty
  cases resolveTarget? value <;> simp

/-- A draft that takes a property changes at one object and perhaps in its targets,
and in nothing else. -/
theorem took_setProperty (location : Location) (h : ¬ application.declaration.IsOfBlock) :
    draft.Took application (draft.setProperty location application.key.object
      application.declaration.property application.value) := by
  -- A declaration that is not of the block gives neither a base nor a name.
  have hbase : application.base? draft.block.references = none := if_neg (mt .inl h)
  have hname : application.name? = none := if_neg (mt .inr h)
  have hresolution : application.resolution?
      = (resolveTarget? application.value).map (Resolution.mk application.declaration.property) :=
    if_neg h
  have heffect : application.effect = restyled application.key.object fun style =>
      { properties := style.properties.insertNew application.declaration.property
        resolutions := style.resolutions ++ application.resolution?.toList } :=
    funext fun _ => if_neg h
  rw [setProperty_eq, ← hresolution]
  constructor
  · exact Block.root_name_restyle _ _ _
  · rw [heffect]
    exact Block.styles_restyle _ _ _
  · rfl
  · rw [hbase]
    rfl
  · rw [hname]
    rfl
  · rw [hresolution]
    cases resolveTarget? application.value <;> simp

/-- Nothing but the base and the name of the block change if the declaration speaks of
it. Objects and targets stay the same. -/
theorem took_ofBlock {base : Option Block} {name : String}
    (h : application.declaration.IsOfBlock)
    (hbase : base = (application.base? draft.block.references).or draft.block.base)
    (hname : name = application.name?.getD draft.block.name) :
    draft.Took application { draft with block := { draft.block with base, name } } := by
  have hresolution : application.resolution? = none := if_pos h
  have heffect : application.effect = id := funext fun _ => if_pos h
  constructor
  · rfl
  · rw [heffect, List.map_id]
    rfl
  · rfl
  · exact hbase
  · exact hname
  · simp [hresolution]

/-- A base can be given if the alias refers to a block and no other base is there.
Naming the same base again is accepted. -/
theorem extend_eq_ok_iff {location : Location} {localName : String} :
    draft.extend location localName = .ok draft'
      ↔ ∃ base, draft.block.referenced? localName = some base
        ∧ (∀ present, draft.block.base = some present → present.id = base.id)
        ∧ { draft with block := { draft.block with base := some base } } = draft' := by
  unfold extend
  cases draft.block.referenced? localName with
  | none => simp
  | some base =>
    cases draft.block.base with
    | none => simp
    | some present => by_cases hid : present.id = base.id <;> simp [hid]

/-- A name can be given if it is an identifier once its quotes are off. The value
comes with the blanks around it taken off already. -/
theorem rename_eq_ok_iff {location : Location} {value : List Char} :
    draft.rename location value = .ok draft'
      ↔ isIdentifier (.ofList (unquote value))
        ∧ { draft with block := { draft.block with name := .ofList (unquote value) } }
          = draft' := by
  unfold rename
  by_cases hname : isIdentifier (.ofList (unquote value)) <;> simp [hname]

/-- What a declaration makes of a draft if it can be applied. -/
def after (draft : Draft) (application : Application) : Draft :=
  if application.declaration.IsOfBlock then
    { draft with
      block := { draft.block with
        base := (application.base? draft.block.references).or draft.block.base
        name := application.name?.getD draft.block.name } }
  else
    draft.setProperty ⟨draft.block.identifier, application.declaration.position⟩
      application.key.object application.declaration.property application.value

/-- `after` does what `Took` says, whatever the declaration is. Declarations of the
block and those of objects are the two cases of it. -/
theorem took_after (draft : Draft) (application : Application) :
    draft.Took application (draft.after application) := by
  unfold after
  split
  · rename_i hblock
    exact took_ofBlock hblock rfl rfl
  · rename_i hobject
    exact took_setProperty _ hobject

/-- What speaks of the block can only be applied to the plain root. There it gives a
base or a name. -/
theorem take_of_isOfBlock (h : application.declaration.IsOfBlock)
    (hplain : application.key.isPlainRoot) :
    draft.take application
      = if application.declaration.property = extendsProperty then
          draft.extend ⟨draft.block.identifier, application.declaration.position⟩
            (.ofList application.value)
        else
          draft.rename ⟨draft.block.identifier, application.declaration.position⟩
            application.value := by
  rw [take, applyTo]
  exact (if_pos h).trans (if_neg (by simp [hplain]))

/-- Anywhere else it is an error, at the place of the declaration. This is checked
first, so it does not matter what the value is. -/
theorem take_of_misplaced (h : application.declaration.IsOfBlock)
    (hplain : ¬ application.key.isPlainRoot) :
    draft.take application
      = .error (.located ⟨draft.block.identifier, application.declaration.position⟩
        (.misplacedProperty application.declaration.property)) := by
  rw [take, applyTo]
  exact (if_pos h).trans (if_pos (by simpa using hplain))

/-- When a base can be given, in terms of the application. A base that is there
already must be the same block, and it is compared by its id. -/
theorem take_eq_ok_iff_of_extends (h : application.declaration.property = extendsProperty)
    (hplain : application.key.isPlainRoot) :
    draft.take application = .ok draft'
      ↔ (∃ base, application.base? draft.block.references = some base
          ∧ ∀ present, draft.block.base = some present → present.id = base.id)
        ∧ draft.after application = draft' := by
  have hblock : application.declaration.IsOfBlock := .inl h
  have hbase : draft.block.referenced? (.ofList application.value)
      = application.base? draft.block.references := (if_pos h).symm
  have hname : application.name? = none := if_neg (h ▸ by decide)
  rw [take_of_isOfBlock hblock hplain, if_pos h, extend_eq_ok_iff, hbase, after, if_pos hblock,
    hname]
  cases application.base? draft.block.references <;> simp

/-- When a name can be given, in terms of the application. A name that is there
already does not matter: it is replaced. -/
theorem take_eq_ok_iff_of_name (h : application.declaration.property = nameProperty)
    (hplain : application.key.isPlainRoot) :
    draft.take application = .ok draft'
      ↔ isIdentifier (.ofList (unquote application.value)) ∧ draft.after application = draft' := by
  have hblock : application.declaration.IsOfBlock := .inr h
  have hextends : application.declaration.property ≠ extendsProperty := h ▸ by decide
  have hbase : application.base? draft.block.references = none := if_neg hextends
  have hname : application.name? = some (.ofList (unquote application.value)) := if_pos h
  rw [take_of_isOfBlock hblock hplain, if_neg hextends, rename_eq_ok_iff, after, if_pos hblock,
    hbase, hname]
  rfl

/-- A property can always be set. -/
theorem take_of_not_isOfBlock (h : ¬ application.declaration.IsOfBlock) :
    draft.take application = .ok (draft.after application) := by
  rw [take, applyTo, after, if_neg h]
  exact if_neg h

/-- A declaration can be applied if it is in order and does not give the block a
second base. Of the draft only the references and the base matter for it. -/
theorem take_eq_ok_iff :
    draft.take application = .ok draft'
      ↔ (application.IsAcceptable draft.block.references
          ∧ ∀ base, application.base? draft.block.references = some base →
            ∀ present, draft.block.base = some present → present.id = base.id)
        ∧ draft.after application = draft' := by
  by_cases hblock : application.declaration.IsOfBlock
  -- What speaks of the block, in place and out of place.
  · by_cases hplain : application.key.isPlainRoot
    · rcases hblock with hextends | hnames
      · rw [take_eq_ok_iff_of_extends hextends hplain,
          Application.isAcceptable_iff_of_extends hextends, Option.isSome_iff_exists]
        refine and_congr_left fun _ => ?_
        constructor
        · rintro ⟨base, hbase, hpresent⟩
          refine ⟨⟨hplain, base, hbase⟩, fun other hother => ?_⟩
          rwa [Option.some.inj (hother.symm.trans hbase)]
        · rintro ⟨⟨-, base, hbase⟩, hpresent⟩
          exact ⟨base, hbase, hpresent base hbase⟩
      · have hbase : application.base? draft.block.references = none :=
          if_neg (hnames ▸ by decide)
        rw [take_eq_ok_iff_of_name hnames hplain, Application.isAcceptable_iff_of_name hnames,
          hbase]
        simp [hplain]
    · rw [take_of_misplaced hblock hplain]
      exact iff_of_false nofun fun h => hplain (h.1.1.placed hblock)
  · have hbase : application.base? draft.block.references = none := if_neg (mt .inl hblock)
    have hacceptable := Application.isAcceptable_of_not_isOfBlock draft.block.references hblock
    rw [take_of_not_isOfBlock hblock, hbase]
    simp [hacceptable]

end Draft

end BlockStyles
