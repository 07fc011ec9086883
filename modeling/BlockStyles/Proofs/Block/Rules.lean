import BlockStyles.Proofs.Block.Compounds

/-!
# `BlockStyles.Proofs.Block.Rules`: what rules say

Adding a rule to a block is a long walk: through the selectors and the parts of each, and then
through the declarations and the keys of each. Which objects are declared on the way, and what
is applied to which of them, can be read off the rule alone.

* `Rule.objects`, `Rule.applications`: what a rule declares and applies, in this order.
* `Draft.addRule_eq_ok_iff`: a rule that can be read is added by declaring the ones and then
  applying the others.
-/

set_option autoImplicit false

namespace BlockStyles

open BlockStyles.Selector (Chain Compound Part)
open BlockStyles.Text (isIdentifier trim unquote)

/-! ### Selectors -/

/-- The object that a part of a selector names, where anything may stand that may stand on the
key. -/
def Selector.Part.object? (part : Part) : Option ObjectName :=
  (ObjectName.ofCompound true part.compound).toOption

/-- A part that is accepted where it stands names the object that it would name on the
key. -/
theorem Selector.Part.object?_of_ok {isKey : Bool} {part : Part} {object : ObjectName}
    (h : ObjectName.ofCompound isKey part.compound = .ok object) : part.object? = some object := by
  rw [object?, ObjectName.ofCompound_key h]
  rfl

namespace Selector.Chain

/-- The objects that the parts of a selector name. -/
def objects (selector : Chain) : List ObjectName :=
  selector.parts.filterMap Part.object?

/-- What the declarations behind a selector apply to. -/
def styled? (selector : Chain) : Option Key :=
  (selector.parts.getLast?.bind Part.object?).map (⟨·, Block.isPlainRoot selector⟩)

/-- Every part names an object, and pseudo selectors stand only on the last one. -/
def IsReadable (selector : Chain) : Prop :=
  go selector.parts
where
  /-- What is said of the parts. -/
  go : List Part → Prop
    | [] => False
    | [key] => ∃ object, ObjectName.ofCompound true key.compound = .ok object
    | part :: next :: parts =>
      (∃ object, ObjectName.ofCompound false part.compound = .ok object) ∧ go (next :: parts)

/-- A selector that can be read has something that declarations apply to, its last
part. -/
theorem IsReadable.exists_styled {selector : Chain} (h : selector.IsReadable) :
    ∃ key, selector.styled? = some key := by
  have hlast : ∀ parts, IsReadable.go parts →
      ∃ object, parts.getLast?.bind Part.object? = some object := by
    intro parts
    fun_induction IsReadable.go parts with
    | case1 => exact nofun
    | case2 key =>
      rintro ⟨object, hkey⟩
      exact ⟨object, Part.object?_of_ok hkey⟩
    | case3 part next parts ih =>
      rintro ⟨-, hparts⟩
      rw [List.getLast?_cons_cons]
      exact ih hparts
  obtain ⟨object, hobject⟩ := hlast selector.parts h
  exact ⟨_, Option.map_eq_some_iff.2 ⟨object, hobject, rfl⟩⟩

end Selector.Chain

namespace Block

variable {block block' : Block}

/-- The parts of a selector are declared if they can be read and their objects be
declared in turn. What is named last is the key. The cases are those of the function;
four of them are errors. -/
theorem declareParts_eq_ok_iff {parts : List Part} {object : ObjectName} :
    block.declareParts parts = .ok (block', object) ↔ Chain.IsReadable.go parts
      ∧ (parts.filterMap Part.object?).foldlM declare block = .ok block'
      ∧ parts.getLast?.bind Part.object? = some object := by
  fun_induction declareParts block parts with
  | case1 => simp [Chain.IsReadable.go]
  | case2 block key fault hkey => simp [Chain.IsReadable.go, hkey]
  -- The last part: its object is declared, and it is the key.
  | case3 block key first hkey =>
    have hfirst := Part.object?_of_ok hkey
    simp only [Chain.IsReadable.go, hkey, map_eq_ok, List.filterMap_cons_some hfirst,
      List.filterMap_nil, List.foldlM_cons, List.foldlM_nil, bind_pure,
      List.getLast?_singleton, Option.bind_some, hfirst, Prod.mk.injEq]
    constructor
    · rintro ⟨declared, hdeclared, rfl, rfl⟩
      exact ⟨⟨first, rfl⟩, hdeclared, rfl⟩
    · rintro ⟨-, hdeclared, heq⟩
      exact ⟨block', hdeclared, rfl, Option.some.inj heq⟩
  | case4 block part next parts fault hpart => simp [Chain.IsReadable.go, hpart]
  | case5 block part next parts first hpart fault hdeclare =>
    rw [List.filterMap_cons_some (Part.object?_of_ok hpart), List.foldlM_cons, hdeclare]
    simp [bind, Except.bind]
  | case6 block part next parts first hpart declared hdeclare ih =>
    rw [List.filterMap_cons_some (Part.object?_of_ok hpart), List.foldlM_cons, hdeclare,
      List.getLast?_cons_cons]
    simp [Chain.IsReadable.go, ih, hpart, bind, Except.bind]

/-- A selector is declared if it can be read and its objects be declared in turn.
Where it stands plays a role for errors only. -/
theorem declareSelector_eq_ok_iff {location : Location} {selector : Chain} {key : Key} :
    block.declareSelector location selector = .ok (block', key) ↔ selector.IsReadable
      ∧ selector.objects.foldlM declare block = .ok block' ∧ selector.styled? = some key := by
  have hparts : ∀ object, block.declareParts selector.parts = .ok (block', object)
      ↔ selector.IsReadable ∧ selector.objects.foldlM declare block = .ok block'
        ∧ selector.parts.getLast?.bind Part.object? = some object :=
    fun object => declareParts_eq_ok_iff
  simp only [Chain.styled?, Option.map_eq_some_iff]
  constructor
  · intro h
    unfold declareSelector at h
    split at h
    · cases h
    · rename_i declared object hdeclared
      cases h
      obtain ⟨hreadable, hobjects, hkey⟩ := (hparts object).1 hdeclared
      exact ⟨hreadable, hobjects, object, hkey, rfl⟩
  · rintro ⟨hreadable, hobjects, object, hkey, rfl⟩
    rw [declareSelector, (hparts object).2 ⟨hreadable, hobjects, hkey⟩]

/-- The selectors of a rule are declared if they can all be read and all their objects
be declared in turn. Reading a selector does not depend on the block, so it can be
asked of all of them at once. -/
theorem declareSelectors_eq_ok_iff {location : Location} {selectors : List Chain}
    {keys : List Key} :
    block.declareSelectors location selectors = .ok (block', keys)
      ↔ (∀ selector ∈ selectors, selector.IsReadable)
        ∧ (selectors.flatMap Chain.objects).foldlM declare block = .ok block'
        ∧ selectors.filterMap Chain.styled? = keys := by
  induction selectors generalizing block keys with
  | nil => simp [declareSelectors, pure, Except.pure]
  | cons selector selectors ih =>
    simp only [List.forall_mem_cons, List.flatMap_cons, List.foldlM_append, bind_eq_ok]
    constructor
    · intro h
      unfold declareSelectors at h
      split at h
      · cases h
      · rename_i middle key hselector
        obtain ⟨⟨last, others⟩, hothers, heq⟩ := map_eq_ok.1 h
        cases heq
        obtain ⟨hreadable, hobjects, hkey⟩ := declareSelector_eq_ok_iff.1 hselector
        obtain ⟨hreadables, hrest, hkeys⟩ := ih.1 hothers
        exact ⟨⟨hreadable, hreadables⟩, ⟨middle, hobjects, hrest⟩,
          by rw [List.filterMap_cons_some hkey, hkeys]⟩
    · rintro ⟨⟨hreadable, hreadables⟩, ⟨middle, hobjects, hrest⟩, hkeys⟩
      -- A selector that can be read has a key, so no place in the list of keys is left out.
      obtain ⟨key, hkey⟩ := hreadable.exists_styled
      rw [List.filterMap_cons_some hkey] at hkeys
      have hothers := ih.2 ⟨hreadables, hrest, rfl⟩
      rw [declareSelectors, declareSelector_eq_ok_iff.2 ⟨hreadable, hobjects, hkey⟩, ← hkeys]
      exact map_eq_ok.2 ⟨_, hothers, rfl⟩

end Block

/-! ### Rules -/

/-- A declaration with one of the keys that it applies to. -/
structure Application where
  declaration : Declaration
  key : Key

namespace Rule

/-- The objects that a rule declares. -/
def objects (rule : Rule) : List ObjectName :=
  rule.selectors.flatMap Chain.objects

/-- What a rule applies, each declaration to all keys. -/
def applications (rule : Rule) : List Application :=
  rule.declarations.flatMap fun declaration =>
    (rule.selectors.filterMap Chain.styled?).map (⟨declaration, ·⟩)

/-- A rule declares what it applies something to, since a key is the last object of a
selector. -/
theorem mem_objects_of_mem_applications {rule : Rule} {application : Application}
    (h : application ∈ rule.applications) : application.key.object ∈ rule.objects := by
  obtain ⟨declaration, -, hkeys⟩ := List.mem_flatMap.1 h
  obtain ⟨key, hkey, rfl⟩ := List.mem_map.1 hkeys
  obtain ⟨selector, hselector, hstyled⟩ := List.mem_filterMap.1 hkey
  obtain ⟨object, hobject, rfl⟩ := Option.map_eq_some_iff.1 hstyled
  obtain ⟨part, hpart, hnamed⟩ := Option.bind_eq_some_iff.1 hobject
  have hin : object ∈ selector.objects :=
    List.mem_filterMap.2 ⟨part, List.mem_of_getLast? hpart, hnamed⟩
  exact List.mem_flatMap.2 ⟨selector, hselector, hin⟩

/-- Every selector of the rule names an object in each of its parts. -/
def IsReadable (rule : Rule) : Prop :=
  ∀ selector ∈ rule.selectors, selector.IsReadable

end Rule

namespace Draft

/-- Applies a declaration to one of its keys. -/
def take (draft : Draft) (application : Application) : Except Error Draft :=
  applyTo application.declaration draft application.key

/-- Going through the declarations and, for each, through the keys is going through
the applications. -/
theorem foldlM_apply (draft : Draft) (keys : List Key) (declarations : List Declaration) :
    declarations.foldlM (apply keys) draft
      = (declarations.flatMap fun declaration => keys.map (⟨declaration, ·⟩)).foldlM take
        draft := by
  induction declarations generalizing draft with
  | nil => rfl
  | cons declaration declarations ih =>
    rw [List.foldlM_cons, List.flatMap_cons, List.foldlM_append, List.foldlM_map]
    exact congrArg (apply keys draft declaration >>= ·) (funext ih)

/-- A rule that can be read is added by declaring its objects and then applying what
it applies. The proofs about rules take this in place of the nested walks of the code. -/
theorem addRule_eq_ok_iff {draft draft' : Draft} {rule : Rule} :
    draft.addRule rule = .ok draft' ↔ rule.IsReadable
      ∧ ∃ block, rule.objects.foldlM Block.declare draft.block = .ok block
        ∧ rule.applications.foldlM take { draft with block } = .ok draft' := by
  constructor
  · intro h
    unfold addRule at h
    dsimp only at h
    split at h
    · cases h
    · rename_i block keys hselectors
      obtain ⟨hreadable, hobjects, rfl⟩ := Block.declareSelectors_eq_ok_iff.1 hselectors
      rw [foldlM_apply] at h
      exact ⟨hreadable, block, hobjects, h⟩
  · rintro ⟨hreadable, block, hobjects, happlied⟩
    -- Where the rule stands does not matter to what is declared.
    have hselectors : ∀ location, draft.block.declareSelectors location rule.selectors
        = .ok (block, rule.selectors.filterMap Chain.styled?) :=
      fun location => Block.declareSelectors_eq_ok_iff.2 ⟨hreadable, hobjects, rfl⟩
    unfold addRule
    dsimp only
    rw [hselectors]
    dsimp only
    rw [foldlM_apply]
    exact happlied

end Draft

end BlockStyles
