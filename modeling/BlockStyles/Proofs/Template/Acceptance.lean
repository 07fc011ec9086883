import BlockStyles.Proofs.Template.Attachments
import BlockStyles.Template.Options
import Mathlib.Data.List.Pairwise

/-!
# `BlockStyles.Proofs.Template.Acceptance`: which elements can be recorded

`Element.Fits` says what an element has to be like, rule by rule and without saying
how problems are looked for: pairs are any two different members, in whatever order
they stand. Each search finds nothing if and only if its rule is kept, so an element
can be recorded if and only if it fits.

* `firstOfPairs_eq_none_iff`: a search through pairs finds nothing in any pair.
* `settles_iff`: an object settles a clash if one of its resolutions leads to the other.
* `Analysis.objection?_eq_none_iff`: all searches find nothing if and only if the element fits.
* `Analysis.finish_eq_ok_iff`: the open element is recorded if and only if it fits.
-/

set_option autoImplicit false

namespace BlockStyles

open BlockStyles.Text (Position)

/-! ### Related blocks -/

namespace Block

/-- A block inherits from itself, since its lineage begins with it. -/
theorem inherits_self (block : Block) : block.inherits block := by
  obtain ⟨ancestors, hlineage⟩ := block.lineage_eq_cons
  rw [inherits, hlineage]
  simp

/-- A block is related to itself, as it inherits from itself. This is why pairs of an
object with itself can be left in the rule about properties. -/
theorem isRelatedTo_self (block : Block) : block.isRelatedTo block := by
  simp [isRelatedTo, block.inherits_self]

/-- Being related is the same from both sides. Two blocks are related if one of them
is in the lineage of the other. -/
theorem isRelatedTo_comm (a b : Block) : a.isRelatedTo b = b.isRelatedTo a :=
  Bool.or_comm _ _

end Block

/-! ### What an element has to be like -/

/-- Two states of one group are on the same class, as far as states go. The class may
come from another block by its name, if the blocks are related. -/
def StateRef.Clashes (a b : StateRef) : Prop :=
  a.label.group.isSome ∧ a.label.group = b.label.group ∧ a.cls.name = b.cls.name ∧
    a.block.isRelatedTo b.block

/-- The object has a resolution for the property whose target, looked up in its own
block, is the other object or the class of it. A resolution against a class counts for
all states of the class. -/
def Object.Settles (object : Object) (property : String) (other : Object) : Prop :=
  ∃ resolution ∈ object.style.resolutions, resolution.property = property ∧
    ∃ target, object.block.lookup? resolution.target = some target ∧
      (target.id = other.id ∨ target.id = (Object.cls other.owner).id)

/-- The element keeps all rules that hold for it under the options. The first two
rules hold always, the next four as the options say, and the last one is what others
have added. -/
structure Element.Fits (options : Options) (context : Context) (element : Element) : Prop where
  /-- The block of an attached object is known, or a base of one that is. -/
  known : ∀ object, element.Attaches object →
    ∃ entry ∈ context.blocks.toList, entry.2.inherits object.block
  /-- Two static states of one group are not on the same class. -/
  groups : ∀ a b : StateRef, Object.state a ∈ element.statics.toList →
    Object.state b ∈ element.statics.toList → a ≠ b → ¬ a.Clashes b
  /-- The root of a block and another class of it are not both there. -/
  roots : options.runs .noRootClasses → ∀ root cls : ClassRef, element.Attaches (.cls root) →
    element.Attaches (.cls cls) → root.isRoot → ¬ cls.isRoot → root.block.id ≠ cls.block.id
  /-- Two static classes other than roots are not of one block. -/
  pairs : options.runs .noClassPairs → ∀ a b : ClassRef, Object.cls a ∈ element.statics.toList →
    Object.cls b ∈ element.statics.toList → ¬ a.isRoot → ¬ b.isRoot → a ≠ b →
    a.block.id ≠ b.block.id
  /-- A state is there with its class, from its own block or from one that extends it. -/
  owners : options.runs .noStateOrphans → ∀ state : StateRef, element.Attaches (.state state) →
    ∃ cls : ClassRef, element.Attaches (.cls cls) ∧ cls.name = state.cls.name ∧
      cls.block.inherits state.block
  /-- Of two static objects of unrelated blocks that set a property, one says which one wins. -/
  settled : options.runs .noRequiredResolution → ∀ a ∈ element.statics.toList,
    ∀ b ∈ element.statics.toList, ¬ a.block.isRelatedTo b.block →
    ∀ property ∈ a.style.properties.toList, property ∈ b.style.properties.toList →
    a.Settles property b ∨ b.Settles property a
  /-- Validators from outside report nothing. -/
  custom : ∀ entry ∈ options.custom, entry.2 element context = []

/-! ### Searching -/

/-- A search through pairs finds nothing if no pair, taken in the order of the list,
has an answer. -/
theorem firstOfPairs_eq_none_iff {α β : Type} {answer : α → α → Option β} {l : List α} :
    firstOfPairs answer l = none ↔ l.Pairwise fun a b => answer a b = none := by
  induction l with
  | nil => simp [firstOfPairs]
  | cons a rest ih =>
    rw [firstOfPairs, List.pairwise_cons, ← ih, ← List.findSome?_eq_none_iff]
    cases rest.findSome? (answer a) <;> simp

/-- In a list without repetitions, what holds of two members whatever their order
holds of any two different ones. With it rules need not speak of the order in which
objects are kept. -/
theorem pairwise_iff_forall_ne {α : Type} {R : α → α → Prop} (hsymm : ∀ a b, R a b → R b a)
    {l : List α} (h : l.Nodup) :
    l.Pairwise R ↔ ∀ a ∈ l, ∀ b ∈ l, a ≠ b → R a b := by
  constructor
  · intro hpairwise a ha b hb hne
    have : Std.Symm R := ⟨hsymm⟩
    exact hpairwise.forall ha hb hne
  · intro hall
    exact h.imp_of_mem fun ha hb hne => hall _ ha _ hb hne

/-- Whether an object settles a clash is found by trying its resolutions. Targets are
compared by their ids, for the object and for its class. -/
theorem settles_iff {object other : Object} {property : String} :
    settles object property other ↔ object.Settles property other := by
  have htarget : ∀ target : Object,
      (target.id == other.id
        || target.cls?.any fun cls => (Object.cls cls).id == (Object.cls other.owner).id)
      ↔ target.id = other.id ∨ target.id = (Object.cls other.owner).id := by
    intro target
    rcases target with cls | state
    · simp [Object.cls?]
    -- The id of a class is not that of a state.
    · simp [Object.cls?, Object.id]
  simp only [settles, Object.Settles, List.any_eq_true, Bool.and_eq_true, beq_iff_eq,
    Option.any_eq_true, htarget]

/-- The states among objects are those of which the object is there. The searches look
at states in a list of their own. -/
theorem mem_filterMap_state? {objects : List Object} {state : StateRef} :
    state ∈ objects.filterMap Object.state? ↔ Object.state state ∈ objects := by
  rw [List.mem_filterMap]
  constructor
  · rintro ⟨_ | ref, hmem, href⟩
    · cases href
    · cases href
      exact hmem
  · exact fun h => ⟨_, h, rfl⟩

/-- The classes among objects are those of which the object is there. -/
theorem mem_filterMap_cls? {objects : List Object} {cls : ClassRef} :
    cls ∈ objects.filterMap Object.cls? ↔ Object.cls cls ∈ objects := by
  rw [List.mem_filterMap]
  constructor
  · rintro ⟨ref | _, hmem, href⟩
    · cases href
      exact hmem
    · cases href
  · exact fun h => ⟨_, h, rfl⟩

/-- Objects that are the same state are the same. So in a list of states nothing is
repeated that was not before. -/
theorem eq_of_state?_eq {a b : Object} {state : StateRef} (ha : state ∈ a.state?)
    (hb : state ∈ b.state?) : a = b := by
  rcases a with _ | a <;> rcases b with _ | b <;> cases ha <;> cases hb
  rfl

/-- Objects that are the same class are the same. States are no classes, so there is
just one kind of objects to compare. -/
theorem eq_of_cls?_eq {a b : Object} {cls : ClassRef} (ha : cls ∈ a.cls?)
    (hb : cls ∈ b.cls?) : a = b := by
  rcases a with a | _ <;> rcases b with b | _ <;> cases ha <;> cases hb
  rfl

/-! ### Each rule and its search -/

section

variable {element : Element}

/-- States clash with each other. The search looks at each pair once, and this makes
the order in it irrelevant. -/
theorem StateRef.Clashes.symm {a b : StateRef} (h : a.Clashes b) : b.Clashes a := by
  obtain ⟨hgroup, hsame, hname, hrelated⟩ := h
  exact ⟨hsame ▸ hgroup, hsame.symm, hname.symm, b.block.isRelatedTo_comm a.block ▸ hrelated⟩

/-- The search for two states of a group finds nothing just if the rule is kept.
States without a group never clash, and two states clash only within one scope. -/
theorem sameGroupProblem_eq_none_iff :
    sameGroupProblem element = none ↔
      ∀ a b : StateRef, Object.state a ∈ element.statics.toList →
        Object.state b ∈ element.statics.toList → a ≠ b → ¬ a.Clashes b := by
  have hnodup : (element.statics.toList.filterMap Object.state?).Nodup :=
    element.statics.nodup_keys.of_map.filterMap fun _ _ _ => eq_of_state?_eq
  -- What the search looks at is a pair in the order of the list, and a clash has no order.
  have hanswer : sameGroupProblem element = none ↔
      (element.statics.toList.filterMap Object.state?).Pairwise fun a b => ¬ a.Clashes b := by
    rw [sameGroupProblem, firstOfPairs_eq_none_iff]
    refine List.Pairwise.iff fun a b => ?_
    cases hgroup : a.label.group with
    | none => simp [StateRef.Clashes, hgroup]
    | some group =>
      simp [StateRef.Clashes, hgroup, sameScope, StateRef.block, eq_comm (a := b.label.group)]
  rw [hanswer, pairwise_iff_forall_ne (fun a b h hba => h hba.symm) hnodup]
  simp only [mem_filterMap_state?]
  exact ⟨fun h a b ha hb => h a ha b hb, fun h a ha b hb => h a b ha hb⟩

/-- The search for the root of a block and another class of it finds nothing just if
the rule is kept. The root is looked for first, and then the class of the same block. -/
theorem rootAndClassProblem_eq_none_iff (hdistinct : element.Distinct) :
    rootAndClassProblem element = none ↔
      ∀ root cls : ClassRef, element.Attaches (.cls root) → element.Attaches (.cls cls) →
        root.isRoot → ¬ cls.isRoot → root.block.id ≠ cls.block.id := by
  simp only [rootAndClassProblem, List.findSome?_eq_none_iff, List.mem_filter, mem_filterMap_cls?,
    Element.mem_objects_iff hdistinct, Option.map_eq_none_iff, List.find?_eq_none,
    Bool.and_eq_true, Bool.not_eq_true', beq_iff_eq, Bool.not_eq_true, not_and]
  exact ⟨fun h root cls hroot hcls hisRoot hnot heq =>
      h root ⟨hroot, hisRoot⟩ cls hcls hnot heq.symm,
    fun h root hroot cls hcls hnot heq => h root cls hroot.1 hcls hroot.2 hnot heq.symm⟩

/-- The search for a second class of a block finds nothing if no two classes are of
one block, those that have been seen already included. The induction is on what is
still to be seen. -/
theorem secondOfBlock?_eq_none_iff {seen classes : List ClassRef} :
    secondOfBlock? seen classes = none ↔
      (∀ a ∈ seen, ∀ b ∈ classes, a.block.id ≠ b.block.id) ∧
        classes.Pairwise fun a b => a.block.id ≠ b.block.id := by
  induction classes generalizing seen with
  | nil => simp [secondOfBlock?]
  | cons cls rest ih =>
    unfold secondOfBlock?
    cases hfind : seen.find? (·.block.id == cls.block.id) with
    -- A class of the same block was there before.
    | some previous =>
      have hprevious : previous.block.id = cls.block.id := by
        simpa using List.find?_some hfind
      refine iff_of_false (Option.some_ne_none _) fun h => ?_
      exact h.1 previous (List.mem_of_find?_eq_some hfind) cls List.mem_cons_self hprevious
    -- This one is seen now, and the others are compared with it as well.
    | none =>
      have hseen : ∀ a ∈ seen, a.block.id ≠ cls.block.id := by
        simpa using hfind
      simp only [ih, List.forall_mem_cons, List.pairwise_cons]
      constructor
      · rintro ⟨⟨hcls, hrest⟩, hpairs⟩
        exact ⟨fun a ha => ⟨hseen a ha, hrest a ha⟩, hcls, hpairs⟩
      · rintro ⟨hold, hcls, hpairs⟩
        exact ⟨⟨hcls, fun a ha => (hold a ha).2⟩, hpairs⟩

/-- The search for two classes of a block finds nothing among all static classes but
roots just if the rule is kept. -/
theorem classPairProblem_eq_none_iff :
    classPairProblem element = none ↔
      ∀ a b : ClassRef, Object.cls a ∈ element.statics.toList →
        Object.cls b ∈ element.statics.toList → ¬ a.isRoot → ¬ b.isRoot → a ≠ b →
        a.block.id ≠ b.block.id := by
  have hnodup : ((element.statics.toList.filterMap Object.cls?).filter (!·.isRoot)).Nodup :=
    (element.statics.nodup_keys.of_map.filterMap fun _ _ _ => eq_of_cls?_eq).filter _
  rw [classPairProblem, Option.map_eq_none_iff, secondOfBlock?_eq_none_iff,
    and_iff_right (by simp), pairwise_iff_forall_ne (fun _ _ => Ne.symm) hnodup]
  simp only [List.mem_filter, mem_filterMap_cls?, Bool.not_eq_true', Bool.not_eq_true]
  exact ⟨fun h a b ha hb hnota hnotb => h a ⟨ha, hnota⟩ b ⟨hb, hnotb⟩,
    fun h a ha b hb => h a b ha.1 hb.1 ha.2 hb.2⟩

/-- The search for a state without its class finds nothing just if each state has one.
The class may be one of a block that inherits from that of the state. -/
theorem orphanStateProblem_eq_none_iff (hdistinct : element.Distinct) :
    orphanStateProblem element = none ↔
      ∀ state : StateRef, element.Attaches (.state state) →
        ∃ cls : ClassRef, element.Attaches (.cls cls) ∧ cls.name = state.cls.name ∧
          cls.block.inherits state.block := by
  simp only [orphanStateProblem, Option.map_eq_none_iff, List.find?_eq_none, mem_filterMap_state?,
    Element.mem_objects_iff hdistinct, Bool.not_eq_true', Bool.not_eq_false, List.any_eq_true,
    mem_filterMap_cls?, Bool.and_eq_true, beq_iff_eq]

/-- The search for a property that nothing settles finds nothing just if each one is
settled. Pairs of an object with itself make no difference, which the rule does not
exclude. -/
theorem unresolvedProblem_eq_none_iff :
    unresolvedProblem element = none ↔
      ∀ a ∈ element.statics.toList, ∀ b ∈ element.statics.toList,
        ¬ a.block.isRelatedTo b.block → ∀ property ∈ a.style.properties.toList,
        property ∈ b.style.properties.toList → a.Settles property b ∨ b.Settles property a := by
  have hanswer : unresolvedProblem element = none ↔
      element.statics.toList.Pairwise fun a b => ¬ a.block.isRelatedTo b.block →
        ∀ property ∈ a.style.properties.toList, property ∈ b.style.properties.toList →
          a.Settles property b ∨ b.Settles property a := by
    rw [unresolvedProblem, firstOfPairs_eq_none_iff]
    refine List.Pairwise.iff fun a b => ?_
    by_cases hrelated : a.block.isRelatedTo b.block
    · simp [hrelated]
    · simp [hrelated, ← settles_iff, SortedList.contains_iff_mem, imp_iff_not_or, or_assoc]
  rw [hanswer, pairwise_iff_forall_ne _ element.statics.nodup_keys.of_map]
  · refine forall₄_congr fun a ha b hb => ⟨fun h => ?_, fun h _ => h⟩
    -- An object is related to itself.
    by_cases hab : a = b
    · exact fun hnot => absurd (hab ▸ a.block.isRelatedTo_self) hnot
    · exact h hab
  · exact fun a b h hnot property hb ha =>
      (h (a.block.isRelatedTo_comm b.block ▸ hnot) property ha hb).symm

/-! ### All rules -/

/-- The validators of the options find nothing if and only if those that run do. Of
those from outside it is only known what they report. -/
theorem Options.findSome?_validators_eq_none_iff {options : Options} {context : Context} :
    options.validators.findSome? (·.check element context) = none ↔
      (∀ validator, options.runs validator → validator.check element = none) ∧
        ∀ entry ∈ options.custom, entry.2 element context = [] := by
  have hall : ∀ validator, validator ∈ BuiltIn.all := by rintro (_ | _ | _ | _) <;> decide
  simp only [List.findSome?_eq_none_iff, validators, List.forall_mem_append, List.forall_mem_map,
    List.mem_filter, hall, true_and, Validator.check, Option.map_eq_none_iff,
    List.head?_eq_none_iff]

/-- No objection to an element means that it fits. The hypothesis on ids is what makes
the list of its objects all that is attached to it. -/
theorem Analysis.objection?_eq_none_iff {analysis : Analysis} {options : Options}
    (hvalidators : analysis.validators = options.validators) (hdistinct : element.Distinct) :
    analysis.objection? element = none ↔ element.Fits options analysis.context := by
  have hknown : (element.objects.find? fun object =>
      (analysis.context.aliasFor? object.block).isNone) = none ↔
      ∀ object, element.Attaches object →
        ∃ entry ∈ analysis.context.blocks.toList, entry.2.inherits object.block := by
    simp [Context.aliasFor?, Element.mem_objects_iff hdistinct]
  have hproblem : firstProblem analysis.validators element analysis.context = none ↔
      sameGroupProblem element = none ∧
        analysis.validators.findSome? (·.check element analysis.context) = none := by
    unfold firstProblem
    cases sameGroupProblem element <;> simp
  -- Blocks are looked at first, then the rules.
  have hobjection : analysis.objection? element = none ↔
      (element.objects.find? fun object =>
        (analysis.context.aliasFor? object.block).isNone) = none ∧
        firstProblem analysis.validators element analysis.context = none := by
    unfold Analysis.objection?
    split <;> simp [*]
  rw [hobjection, hknown, hproblem, hvalidators, Options.findSome?_validators_eq_none_iff,
    sameGroupProblem_eq_none_iff]
  constructor
  -- Each validator that runs stands for one field, and fields whose validator does not run
  -- ask for nothing.
  · rintro ⟨known, groups, builtIn, custom⟩
    exact {
      known, groups, custom
      roots := fun h => (rootAndClassProblem_eq_none_iff hdistinct).1 (builtIn _ h)
      pairs := fun h => classPairProblem_eq_none_iff.1 (builtIn _ h)
      owners := fun h => (orphanStateProblem_eq_none_iff hdistinct).1 (builtIn _ h)
      settled := fun h => unresolvedProblem_eq_none_iff.1 (builtIn _ h) }
  · rintro ⟨known, groups, roots, pairs, owners, settled, custom⟩
    refine ⟨known, groups, fun validator h => ?_, custom⟩
    cases validator with
    | noRootClasses => exact (rootAndClassProblem_eq_none_iff hdistinct).2 (roots h)
    | noClassPairs => exact classPairProblem_eq_none_iff.2 (pairs h)
    | noStateOrphans => exact (orphanStateProblem_eq_none_iff hdistinct).2 (owners h)
    | noRequiredResolution => exact unresolvedProblem_eq_none_iff.2 (settled h)

end

namespace Analysis

/-- The open element can be recorded if and only if it fits. That it is the open one
is a hypothesis, since any other is refused whatever is on it. The validators are
those of the options, since they are fixed when the analysis begins. Ids have to tell
objects apart, as they do for blocks of one library. -/
theorem finish_eq_ok_iff {analysis : Analysis} {options : Options} {element : Element}
    {position : Position} (hvalidators : analysis.validators = options.validators)
    (hstage : analysis.stage = .inside element.id position) (hdistinct : element.Distinct) :
    (analysis.finish element).2 = .ok () ↔ element.Fits options analysis.context := by
  have hfits : ({ analysis with stage := .idle } : Analysis).objection? element = none ↔
      element.Fits options analysis.context :=
    objection?_eq_none_iff hvalidators hdistinct
  rw [← hfits, finish, hstage]
  simp only [if_true]
  split
  · rename_i hobjection
    simp [hobjection]
  · rename_i hobjection
    simp [hobjection]

/-- Two classes of unrelated blocks set the same property, and one says that it wins
over the other. A state is there with the class of a block that extends its own. So
there is one conflict, which is settled, and no other rule is broken. -/
theorem finish_eq_ok_iff_settled :
    let base : Block :=
      { Block.bare 1 "base" "/base.css" [] with
        others := [⟨"icon", [⟨⟨some "size", "big"⟩, .empty⟩], .empty⟩] }
    let theme : Block :=
      { Block.bare 2 "theme" "/theme.css" [] with
        others := [⟨"dark", [], ⟨.ofList id ["color"], []⟩⟩] }
    let window : Block :=
      { Block.bare 3 "window" "/window.css" [("base", base), ("theme", theme)] with
        base := some base
        others := [⟨"icon", [], ⟨.ofList id ["color"], [⟨"color", "theme.dark"⟩]⟩⟩] }
    let dark : Object := .cls ⟨theme, ⟨1, by decide⟩⟩
    let icon : Object := .cls ⟨window, ⟨1, by decide⟩⟩
    let big : Object := .state ⟨⟨base, ⟨1, by decide⟩⟩, ⟨0, by decide⟩⟩
    let element :=
      (((Element.bare 4 .unknown).addStatic dark).addStatic icon).addExclusive "size" big
    let analysis : Analysis :=
      { ((begin "t.hbs" .default).addBlock "w" window).addBlock "t" theme with
        stage := .inside 4 .unknown }
    (analysis.finish element).2 = .ok () ∧ element.Fits .default analysis.context := by
  intro base theme window dark icon big element analysis
  have hfinish : (analysis.finish element).2 = .ok () := by
    have hok : (analysis.finish element).2.toOption = some () := by decide +kernel
    cases hanswer : (analysis.finish element).2 with
    | ok answer => rfl
    | error error => simp [hanswer, Except.toOption] at hok
  -- The three blocks are registered in one library, so their ids tell them apart.
  let library := ((Library.empty.register base).register theme).register window
  have hdistinct : element.Distinct := by
    refine @Element.distinct_of_registered _ library fun object hobject => ?_
    have hlisted : object ∈ [dark, icon, big] := Element.attaches_iff_mem.1 hobject
    have hblocks : library.blocks = [base, theme, window] := rfl
    simp only [List.mem_cons, List.not_mem_nil, or_false] at hlisted
    rcases hlisted with rfl | rfl | rfl <;>
      simp [hblocks, dark, icon, big, Object.block, Object.owner]
  exact ⟨hfinish, (finish_eq_ok_iff rfl rfl hdistinct).1 hfinish⟩

end Analysis

end BlockStyles
