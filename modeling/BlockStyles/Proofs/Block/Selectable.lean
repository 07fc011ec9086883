import BlockStyles.Proofs.Folds
import BlockStyles.Block.Selected

/-!
# `BlockStyles.Proofs.Block.Selectable`: the compound selectors that name an object

The simple selectors of a compound are gone through one after the other, and what may come next
depends on what has been named. In the end there are few ways through. Pseudo selectors change
nothing: they can stand on the key behind the object, wherever that is. Without them the compound
is one class, one state, or a class and then a state.

* `Selected.add_eq_ok_iff`: the two kinds of steps, naming something and passing a pseudo selector.
* `Selected.foldlM_add_eq_ok_iff`: pseudo selectors can be left out of a run of steps.
* `ObjectName.ofCompound_eq_ok_iff`: which compounds name an object, and which one.
-/

set_option autoImplicit false

namespace BlockStyles

open BlockStyles.Selector (Attribute Compound Simple)
open BlockStyles.Text (isIdentifier)

/-! ### Compounds that name an object -/

namespace Selector

/-- Whether this is a pseudo-class or a pseudo-element. -/
def Simple.isPseudo : Simple → Bool
  | pseudoClass _ => true
  | pseudoElement _ => true
  | _ => false

/-- Whether this is about anything else than classes and states: a type, an id, any element, the
enclosing rule, or an attribute that is no state. -/
def Simple.isForeign : Simple → Bool
  | type _ => true
  | id _ => true
  | universal => true
  | parent => true
  | attr condition => !condition.isIn stateSpace
  | _ => false

/-- The attribute is a state. The value is the name of the state and the attribute that of its
group; without a value the attribute is the state. -/
inductive Attribute.IsState : Attribute → StateName → Prop where
  | boolean (name : String) (hname : isIdentifier name) :
      IsState ⟨some stateSpace, name, none⟩ ⟨none, name⟩
  | grouped (group name : String) (hgroup : isIdentifier group) (hname : isIdentifier name) :
      IsState ⟨some stateSpace, group, some name⟩ ⟨some group, name⟩

/-- The compound is nothing but the name of the object: a class, a state of the root, or a state
behind its class. -/
inductive Compound.Denotes : Compound → ObjectName → Prop where
  | cls (name : String) : Denotes [.cls name] ⟨name, none⟩
  | state (attr : Attribute) (label : StateName) (h : attr.IsState label) :
      Denotes [.attr attr] ⟨rootName, some label⟩
  | clsState (name : String) (attr : Attribute) (label : StateName) (h : attr.IsState label) :
      Denotes [.cls name, .attr attr] ⟨name, some label⟩

/-- The compound names the object, on the key of a selector or in front of it. -/
structure Compound.IsObject (isKey : Bool) (compound : Compound) (object : ObjectName) : Prop where
  none_foreign : ∀ simple ∈ compound, ¬ simple.isForeign
  first : ∀ simple ∈ compound.head?, ¬ simple.isPseudo
  key : (∃ simple ∈ compound, simple.isPseudo) → isKey
  denotes : Compound.Denotes (compound.filter (!·.isPseudo)) object

variable {compound : Compound} {object : ObjectName}

/-- A state is an attribute in the namespace of states. -/
theorem Attribute.IsState.isIn {attr : Attribute} {label : StateName} (h : attr.IsState label) :
    attr.isIn stateSpace := by
  cases h <;> rfl

/-- What is a name of an object has nothing foreign in it. So `none_foreign` in
`IsObject` follows from `denotes`, and is stated there for the reader. -/
theorem Compound.Denotes.none_foreign (h : compound.Denotes object) :
    ∀ simple ∈ compound, ¬ simple.isForeign := by
  cases h with
  | cls name => simp [Simple.isForeign]
  | state attr label h => simp [Simple.isForeign, h.isIn]
  | clsState name attr label h => simp [Simple.isForeign, h.isIn]

end Selector

/-! ### Steps -/

namespace Selected

variable {isKey : Bool} {selected next result : Selected} {compound : Compound}

/-- A simple selector names a class or a state, where neither has been named before that would be
in its way. -/
inductive Step : Selected → Simple → Selected → Prop where
  | cls (name : String) : Step ⟨none, none⟩ (.cls name) ⟨some name, none⟩
  | state (cls : Option String) (attr : Attribute) (label : StateName) (h : attr.IsState label) :
      Step ⟨cls, none⟩ (.attr attr) ⟨cls, some label⟩

/-- The simple selectors of a compound name something, each in its turn. -/
inductive Steps : Selected → Compound → Selected → Prop where
  | nil (selected : Selected) : Steps selected [] selected
  | cons (selected next result : Selected) (simple : Simple) (rest : Compound)
      (hstep : Step selected simple next) (hrest : Steps next rest result) :
      Steps selected (simple :: rest) result

/-- After a step something has been named. So a pseudo selector may stand behind it,
if the compound is the key. -/
theorem Step.not_isNothing {simple : Simple} (h : Step selected simple next) :
    ¬ next.isNothing := by
  cases h <;> simp [isNothing]

/-- A pseudo selector names nothing, so it is never a step. Together with
`pseudo_eq_ok_iff` this tells the two kinds of steps apart. -/
theorem Step.not_isPseudo {simple : Simple} (h : Step selected simple next) :
    ¬ simple.isPseudo := by
  cases h <;> simp [Simple.isPseudo]

/-- An attribute is read as a state if it is one. The reader checks the namespace
elsewhere than the names, which is why the left side has two parts. -/
theorem stateOf_eq_ok_iff {attr : Attribute} {label : StateName} :
    attr.isIn stateSpace ∧ stateOf attr = .ok label ↔ attr.IsState label := by
  constructor
  · rintro ⟨hspace, hstate⟩
    obtain ⟨space, name, value⟩ := attr
    cases beq_iff_eq.1 hspace
    unfold stateOf at hstate
    cases value with
    | none =>
      dsimp only at hstate
      split at hstate
      · cases hstate
      -- A state on its own, of which only the name is checked.
      · rename_i hname
        cases hstate
        exact .boolean name (by simpa using hname)
    | some value =>
      dsimp only at hstate
      split at hstate
      · cases hstate
      · rename_i hgroup
        split at hstate
        · cases hstate
        · rename_i hname
          cases hstate
          exact .grouped name value (by simpa using hgroup) (by simpa using hname)
  · intro h
    refine ⟨h.isIn, ?_⟩
    cases h with
    | boolean name hname => simp [stateOf, hname]
    | grouped group name hgroup hname => simp [stateOf, hgroup, hname]

/-- A pseudo selector is passed on the key, behind an object, and changes nothing. In
front of an object it is refused, and so it is anywhere but on the key. -/
theorem pseudo_eq_ok_iff :
    add.pseudo isKey selected = .ok next ↔ isKey ∧ ¬ selected.isNothing ∧ selected = next := by
  unfold add.pseudo
  cases isKey <;> cases selected.isNothing <;> simp

/-- A class is accepted if this is a step: neither a class nor a state has been named
before. -/
theorem add_cls_eq_ok_iff {name : String} :
    selected.add isKey (.cls name) = .ok next ↔ Step selected (.cls name) next := by
  obtain ⟨cls, state⟩ := selected
  simp only [add]
  constructor
  · intro hadd
    split at hadd
    · cases hadd
    · rename_i hstate
      cases Option.not_isSome_iff_eq_none.1 hstate
      split at hadd
      · split at hadd <;> cases hadd
      · cases hadd
        exact .cls name
  · intro hstep
    cases hstep
    rfl

/-- An attribute is accepted if this is a step: it is a state, and none has been named
before. -/
theorem add_attr_eq_ok_iff {attr : Attribute} :
    selected.add isKey (.attr attr) = .ok next ↔ Step selected (.attr attr) next := by
  obtain ⟨cls, state⟩ := selected
  simp only [add]
  constructor
  · intro hadd
    split at hadd
    · rename_i hspace
      split at hadd
      · cases hadd
      · rename_i hstate
        obtain ⟨label, hlabel, rfl⟩ := map_eq_ok.1 hadd
        cases Option.not_isSome_iff_eq_none.1 hstate
        exact .state cls attr label (stateOf_eq_ok_iff.1 ⟨hspace, hlabel⟩)
    · cases hadd
  · intro hstep
    cases hstep with
    | state _ _ label h =>
      obtain ⟨hspace, hlabel⟩ := stateOf_eq_ok_iff.2 h
      simp [hspace, hlabel, Except.map]

/-- A simple selector names something or is a pseudo selector on the key, behind an
object. This is all that can happen, so later proofs do not open `add` again. -/
theorem add_eq_ok_iff {simple : Simple} :
    selected.add isKey simple = .ok next
      ↔ Step selected simple next
        ∨ simple.isPseudo ∧ isKey ∧ ¬ selected.isNothing ∧ selected = next := by
  cases simple with
  | cls name => exact add_cls_eq_ok_iff.trans ⟨.inl, fun h => h.resolve_right nofun⟩
  | attr attr => exact add_attr_eq_ok_iff.trans ⟨.inl, fun h => h.resolve_right nofun⟩
  | pseudoClass name =>
    exact pseudo_eq_ok_iff.trans ⟨fun h => .inr ⟨rfl, h⟩, fun h => (h.resolve_left nofun).2⟩
  | pseudoElement name =>
    exact pseudo_eq_ok_iff.trans ⟨fun h => .inr ⟨rfl, h⟩, fun h => (h.resolve_left nofun).2⟩
  -- Nothing else is a step or a pseudo selector.
  | type name => exact ⟨nofun, nofun⟩
  | id name => exact ⟨nofun, nofun⟩
  | universal => exact ⟨nofun, nofun⟩
  | parent => exact ⟨nofun, nofun⟩

/-! ### Runs -/

/-- A run of steps is one without the pseudo selectors, if these stand on the key and
not in front of all else. The first condition only counts while nothing has been
named; it is part of the induction, which begins anywhere. -/
theorem foldlM_add_eq_ok_iff :
    compound.foldlM (add isKey) selected = .ok result
      ↔ (selected.isNothing → ∀ simple ∈ compound.head?, ¬ simple.isPseudo)
        ∧ ((∃ simple ∈ compound, simple.isPseudo) → isKey)
        ∧ Steps selected (compound.filter (!·.isPseudo)) result := by
  induction compound generalizing selected with
  | nil =>
    have hsteps : Steps selected [] result ↔ selected = result :=
      ⟨fun h => by cases h; rfl, fun h => h ▸ .nil selected⟩
    rw [List.filter_nil, hsteps]
    simp [pure, Except.pure]
  | cons simple rest ih =>
    simp only [List.foldlM_cons, bind_eq_ok, add_eq_ok_iff, ih]
    -- A pseudo selector drops out of the filtered compound; anything else is the first step
    -- of it.
    by_cases hpseudo : simple.isPseudo
    · constructor
      · rintro ⟨next, hstep | ⟨-, hkey, hsome, rfl⟩, -, -, hrest⟩
        · exact absurd hpseudo hstep.not_isPseudo
        · refine ⟨fun hnothing => absurd hnothing hsome, fun _ => hkey, ?_⟩
          rwa [List.filter_cons_of_neg (by simp [hpseudo])]
      · rintro ⟨hfirst, hkey, hrest⟩
        have hsome : ¬ selected.isNothing := fun hnothing => hfirst hnothing simple rfl hpseudo
        have hkey := hkey ⟨simple, List.mem_cons_self, hpseudo⟩
        rw [List.filter_cons_of_neg (by simp [hpseudo])] at hrest
        exact ⟨selected, .inr ⟨hpseudo, hkey, hsome, rfl⟩,
          fun hnothing => absurd hnothing hsome, fun _ => hkey, hrest⟩
    · rw [List.filter_cons_of_pos (by simp [hpseudo])]
      have hexists : (∃ other ∈ simple :: rest, other.isPseudo)
          ↔ ∃ other ∈ rest, other.isPseudo := by
        simp [hpseudo]
      rw [hexists]
      constructor
      · rintro ⟨next, hstep | ⟨h, -⟩, -, hkey, hrest⟩
        · refine ⟨fun _ other hother => ?_, hkey, .cons _ next _ _ _ hstep hrest⟩
          cases hother
          exact hpseudo
        · exact absurd h hpseudo
      · rintro ⟨-, hkey, hsteps⟩
        cases hsteps with
        | cons _ next _ _ _ hstep hrest =>
          -- Something has been named, so that any pseudo selector may come next.
          exact ⟨next, .inl hstep, fun hnothing => absurd hnothing hstep.not_isNothing, hkey, hrest⟩

/-- There are three ways to name something, starting with nothing. After a state no
step is left, so a compound has at most two parts that name something. -/
theorem steps_nothing_iff {object : ObjectName} :
    (∃ result, Steps .nothing compound result ∧ ¬ result.isNothing
        ∧ ⟨result.cls.getD rootName, result.state⟩ = object)
      ↔ compound.Denotes object := by
  constructor
  · rintro ⟨result, hsteps, hsome, rfl⟩
    cases hsteps with
    | nil => exact absurd rfl hsome
    | cons _ next _ simple rest hstep hrest =>
      cases hstep with
      | cls name =>
        cases hrest with
        | nil => exact .cls name
        | cons _ next _ simple rest hstep hrest =>
          cases hstep with
          | state cls attr label h =>
            cases hrest with
            | nil => exact .clsState name attr label h
            -- Nothing can be named behind a state.
            | cons _ _ _ _ _ hstep => cases hstep
      | state cls attr label h =>
        cases hrest with
        | nil => exact .state attr label h
        | cons _ _ _ _ _ hstep => cases hstep
  · intro h
    cases h with
    | cls name => exact ⟨_, .cons _ _ _ _ _ (.cls name) (.nil _), nofun, rfl⟩
    | state attr label h =>
      exact ⟨_, .cons _ _ _ _ _ (.state none attr label h) (.nil _), nofun, rfl⟩
    | clsState name attr label h =>
      exact ⟨_, .cons _ _ _ _ _ (.cls name)
        (.cons _ _ _ _ _ (.state (some name) attr label h) (.nil _)), nofun, rfl⟩

end Selected

/-- A compound is accepted if it names an object, and that is the one it is read as.
Both directions hold for every compound, whether it has been parsed or put together by
hand. What an object is on the right side is said by cases on the compound, with no
regard to the order of the checks in the reader. -/
theorem ObjectName.ofCompound_eq_ok_iff {isKey : Bool} {compound : Compound}
    {object : ObjectName} :
    ofCompound isKey compound = .ok object ↔ compound.IsObject isKey object := by
  have hread : ofCompound isKey compound = .ok object
      ↔ ∃ result, compound.foldlM (Selected.add isKey) .nothing = .ok result
        ∧ ¬ result.isNothing ∧ ⟨result.cls.getD rootName, result.state⟩ = object := by
    unfold ofCompound
    cases compound.foldlM (Selected.add isKey) .nothing with
    | error fault => simp
    | ok result => cases hnothing : result.isNothing <;> simp [hnothing]
  simp only [hread, Selected.foldlM_add_eq_ok_iff]
  constructor
  · rintro ⟨result, ⟨hfirst, hkey, hsteps⟩, hsome, hobject⟩
    have hdenotes := Selected.steps_nothing_iff.1 ⟨result, hsteps, hsome, hobject⟩
    refine ⟨fun simple hsimple hforeign => ?_, hfirst rfl, hkey, hdenotes⟩
    -- What is foreign is no pseudo selector, and would be left with the others.
    have hplain : ¬ simple.isPseudo := by
      cases simple <;> simp_all [Simple.isForeign, Simple.isPseudo]
    exact hdenotes.none_foreign simple (List.mem_filter.2 ⟨hsimple, by simp [hplain]⟩) hforeign
  · rintro ⟨-, hfirst, hkey, hdenotes⟩
    obtain ⟨result, hsteps, hsome, hobject⟩ := Selected.steps_nothing_iff.2 hdenotes
    exact ⟨result, ⟨fun _ => hfirst, hkey, hsteps⟩, hsome, hobject⟩

/-- A pseudo-class may come between a class and its state. -/
example : ObjectName.ofCompound true
    [.cls "item", .pseudoClass "hover", .attr ⟨some "state", "size", some "large"⟩]
      = .ok ⟨"item", some ⟨some "size", "large"⟩⟩ := by decide

end BlockStyles
