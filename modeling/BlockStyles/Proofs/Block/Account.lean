import BlockStyles.Proofs.Block.Applications
import BlockStyles.Proofs.Block.Compatible

/-!
# `BlockStyles.Proofs.Block.Account`: a block as an account of its rules

All that is in a block, in the order in which the rules have put it there, is determined by
two lists: the objects that the rules declare and what they apply. And whether a rule can be
added is a question about pairs of rules: each of its objects has to go together with each
of the other rules and of its own, and so has each of its applications.

* `Draft.Shows`: what a draft contains once objects have been declared and declarations applied.
* `Draft.Shows.exists_declare_iff`, `Draft.Shows.exists_take_iff`: an object can be declared, and a
  declaration applied, if it goes together with itself and with what has come before.
* `Draft.Shows.addRule`: a rule adds its objects and its applications.
* `Rule.Compatible`, `Draft.exists_addRules_iff`: rules are accepted if each goes together with
  itself and with all others, in whatever order they come.
* `Block.ofRules_eq_ok_iff`: which rules make a block, and which block they make.
-/

set_option autoImplicit false

namespace BlockStyles

open BlockStyles.Text (isIdentifier)

/-! ### Lists that grow -/

/-- What comes of a list with one more element is what came of the list, and perhaps
something of the element. Names, bases and resolutions are all collected in this way. -/
theorem filterMap_concat {α β : Type} (f : α → Option β) (l : List α) (a : α) :
    (l ++ [a]).filterMap f = l.filterMap f ++ (f a).toList := by
  cases hf : f a <;> simp [hf]

/-- The last thing that comes of a list with one more element is that of the element,
if anything comes of it. A later name or base counts in place of an earlier one. -/
theorem getLast?_filterMap_concat {α β : Type} (f : α → Option β) (l : List α) (a : α) :
    ((l ++ [a]).filterMap f).getLast? = (f a).or (l.filterMap f).getLast? := by
  rw [filterMap_concat, List.getLast?_append]
  cases f a <;> rfl

/-- All elements go together once the last does with itself and with those before it.
It takes symmetry, for the last element is compared in one direction only. -/
theorem forall_mem_concat {α : Type} {R : α → α → Prop} (hsymm : ∀ a b, R a b → R b a)
    {l : List α} {last : α} (h : ∀ a ∈ l, ∀ b ∈ l, R a b) (hlast : ∀ a ∈ l ++ [last], R a last) :
    ∀ a ∈ l ++ [last], ∀ b ∈ l ++ [last], R a b := by
  intro a ha b hb
  rcases List.mem_append.1 hb with hbefore | hbefore
  · rcases List.mem_append.1 ha with habefore | habefore
    · exact h a habefore b hbefore
    · cases List.mem_singleton.1 habefore
      exact hsymm _ _ (hlast b hb)
  · cases List.mem_singleton.1 hbefore
    exact hlast a ha

/-! ### Single steps -/

namespace Application

/-- The application sets the property on the object. -/
def Sets (application : Application) (object : ObjectName) (property : String) : Prop :=
  ¬ application.declaration.IsOfBlock ∧ application.key.object = object
    ∧ application.declaration.property = property

/-- The resolution that is recorded on the object. -/
def resolutionOn? (application : Application) (object : ObjectName) : Option Resolution :=
  if application.key.object = object then application.resolution? else none

/-- An application does not change which object an entry is for. So the names of a
block, and with them what objects there are, stay the same when styles change. -/
@[simp]
theorem fst_effect (application : Application) (entry : ObjectName × Style) :
    (application.effect entry).1 = entry.1 := by
  unfold effect
  split <;> rfl

/-- The properties of an object after an application: those that it had, and the one
that is set on it. -/
theorem properties_effect (application : Application) (entry : ObjectName × Style)
    (property : String) :
    property ∈ (application.effect entry).2.properties.toList
      ↔ property ∈ entry.2.properties.toList ∨ application.Sets entry.1 property := by
  unfold effect
  split
  · rename_i hblock
    simp [Sets, hblock]
  · rename_i hobject
    by_cases hname : entry.1 = application.key.object
    · simp only [restyled, hname, if_true, SortedList.mem_insertNew_set, Sets, hobject]
      simp [eq_comm]
    · simp [restyled, hname, Sets, Ne.symm hname]

/-- The resolutions of an object after an application: those that it had, and then the
one that is recorded on it. Their order is that of the rules. -/
theorem resolutions_effect (application : Application) (entry : ObjectName × Style) :
    (application.effect entry).2.resolutions
      = entry.2.resolutions ++ (application.resolutionOn? entry.1).toList := by
  unfold effect
  split
  · rename_i hblock
    simp [resolutionOn?, resolution?, hblock]
  · by_cases hname : entry.1 = application.key.object
    · simp [restyled, resolutionOn?, hname]
    · simp [restyled, resolutionOn?, hname, Ne.symm hname]

end Application

/-- Two applications can be made to one block: each of them is in order, and they do not name
two bases. -/
structure Application.Compatible (references : List (String × Block))
    (application other : Application) : Prop where
  acceptable : application.IsAcceptable references
  acceptable' : other.IsAcceptable references
  base : ∀ base base', application.base? references = some base →
    other.base? references = some base' → base.id = base'.id

/-- Whether two applications go together does not depend on which of them comes first.
So it can be asked of each pair in whatever order the rules are in. -/
theorem Application.Compatible.symm {references : List (String × Block)}
    {application other : Application} (h : application.Compatible references other) :
    other.Compatible references application where
  acceptable := h.acceptable'
  acceptable' := h.acceptable
  base base base' hbase hbase' := (h.base base' base hbase' hbase).symm

/-! ### Drafts -/

/-- What a draft contains once objects have been declared and declarations have been applied to
some of them. -/
structure Draft.Shows (name : String) (references : List (String × Block))
    (named : List ObjectName) (applied : List Application) (draft : Draft) : Prop where
  coherent : draft.block.Coherent
  /-- The objects are the root, those that have been declared, and their classes. -/
  names : ∀ object, object ∈ draft.block.names ↔ object = ⟨rootName, none⟩
    ∨ ∃ other ∈ named, object = other ∨ object = ⟨other.cls, none⟩
  keys : ∀ application ∈ applied, application.key.object ∈ draft.block.names
  compatible : ∀ application ∈ applied, ∀ other ∈ applied,
    application.Compatible references other
  properties : ∀ entry ∈ draft.block.styles, ∀ property, property ∈ entry.2.properties.toList
    ↔ ∃ application ∈ applied, application.Sets entry.1 property
  resolutions : ∀ entry ∈ draft.block.styles,
    entry.2.resolutions = applied.filterMap (·.resolutionOn? entry.1)
  targets : draft.targets.map Prod.fst
    = (applied.filterMap Application.resolution?).map Resolution.target
  references_eq : draft.block.references = references
  base_eq : draft.block.base = (applied.filterMap (·.base? references)).getLast?
  name_eq : draft.block.name = (applied.filterMap Application.name?).getLast?.getD name

namespace Draft

variable {name : String} {references : List (String × Block)} {named : List ObjectName}
  {applied : List Application} {draft draft' : Draft}

/-- An empty draft shows that nothing has been declared and nothing applied. It has
the root, which every block has and nobody declares. -/
theorem shows_bare (id : Nat) (name identifier : String) (references : List (String × Block)) :
    Shows name references [] [] ⟨.bare id name identifier references, []⟩ where
  coherent := Block.coherent_bare id name identifier references
  names object := by simp [Block.names, Block.styles, Block.classes, Block.bare, ClassData.bare,
    ClassData.styles]
  keys := nofun
  compatible := nofun
  properties entry hentry property := by
    cases List.mem_singleton.1 hentry
    exact iff_of_false List.not_mem_nil (by simp)
  resolutions entry hentry := by
    cases List.mem_singleton.1 hentry
    rfl
  targets := rfl
  references_eq := rfl
  base_eq := rfl
  name_eq := rfl

namespace Shows

/-- An object can be declared if it goes together with itself and with those that have
been. The draft has more objects than those, the root and the classes, but an object
that goes together with a state goes together with its class. -/
theorem exists_declare_iff (h : draft.Shows name references named applied) {object : ObjectName} :
    (∃ block, draft.block.declare object = .ok block)
      ↔ ∀ other ∈ named ++ [object], other.Compatible object := by
  simp only [h.coherent.declare_eq_ok_iff, exists_and_left, exists_eq', and_true]
  constructor
  · rintro ⟨hall, hself⟩ other hother
    rcases List.mem_append.1 hother with hother | hother
    · exact hall other ((h.names other).2 (.inr ⟨other, hother, .inl rfl⟩))
    · exact List.mem_singleton.1 hother ▸ hself
  · intro hall
    have hself : object.Compatible object := hall object (by simp)
    refine ⟨fun other hother => ?_, hself⟩
    -- The object that is there is the root, one that has been declared, or the class of
    -- one.
    rcases (h.names other).1 hother with rfl | ⟨first, hfirst, rfl | rfl⟩
    · exact hself.root.symm
    · exact hall other (List.mem_append_left _ hfirst)
    · exact (hall first (List.mem_append_left _ hfirst)).symm.cls.symm

/-- A draft shows one more object once it has been declared. Nothing that has been
applied changes, and nothing has been applied to what is new. -/
theorem declare (h : draft.Shows name references named applied) {object : ObjectName}
    {block : Block} (hdeclare : draft.block.declare object = .ok block) :
    Shows name references (named ++ [object]) applied { draft with block } := by
  obtain ⟨⟨hall, hself⟩, rfl⟩ := h.coherent.declare_eq_ok_iff.1 hdeclare
  have hwell := h.coherent.toWellNamed
  obtain ⟨root, others, hsame⟩ := draft.block.exists_withObject_eq object
  -- Nothing has been applied to an object that was not there.
  have hnew : ∀ other, other ∉ draft.block.names →
      ∀ application ∈ applied, application.key.object ≠ other := by
    rintro other hother application happlied rfl
    exact hother (h.keys application happlied)
  constructor
  · exact h.coherent.withObject hall hself
  · intro other
    rw [Block.mem_names_withObject hwell, h.names, or_assoc]
    simp [or_and_right, exists_or]
  · intro application happlied
    exact (Block.mem_names_withObject hwell).2 (.inl (h.keys application happlied))
  · exact h.compatible
  · intro entry hentry property
    rcases (Block.mem_styles_withObject hwell).1 hentry with hold | ⟨hout, hempty, -⟩
    · exact h.properties entry hold property
    · rw [hempty]
      refine iff_of_false List.not_mem_nil ?_
      rintro ⟨application, happlied, hsets⟩
      exact hnew entry.1 hout application happlied hsets.2.1
  · intro entry hentry
    rcases (Block.mem_styles_withObject hwell).1 hentry with hold | ⟨hout, hempty, -⟩
    · exact h.resolutions entry hold
    · rw [hempty, List.filterMap_eq_nil_iff.2]
      · rfl
      · intro application happlied
        exact if_neg (hnew entry.1 hout application happlied)
  · exact h.targets
  · rw [← h.references_eq, hsame]
  · rw [← h.base_eq, hsame]
  · rw [← h.name_eq, hsame]

/-- A base that has been named is the present one, up to its id. The present base is
the last that has been named, and all that have been named go together. -/
theorem exists_base (h : draft.Shows name references named applied) {application : Application}
    (happlied : application ∈ applied) {base : Block}
    (hbase : application.base? references = some base) :
    ∃ present, draft.block.base = some present ∧ base.id = present.id := by
  have hin : base ∈ applied.filterMap (·.base? references) :=
    List.mem_filterMap.2 ⟨application, happlied, hbase⟩
  have hpresent := List.getLast?_eq_some_getLast (List.ne_nil_of_mem hin)
  obtain ⟨other, hother, hsome⟩ := List.mem_filterMap.1 (List.mem_of_getLast? hpresent)
  exact ⟨_, h.base_eq.trans hpresent,
    (h.compatible application happlied other hother).base _ _ hbase hsome⟩

/-- A declaration can be applied if it goes together with itself and with those that
have been. The code compares it with the present base only, but that stands for all
that have been named. -/
theorem exists_take_iff (h : draft.Shows name references named applied)
    {application : Application} :
    (∃ draft', draft.take application = .ok draft')
      ↔ ∀ other ∈ applied ++ [application], other.Compatible references application := by
  simp only [take_eq_ok_iff, exists_and_left, exists_eq', and_true, h.references_eq]
  constructor
  · rintro ⟨hacceptable, hbase⟩ other hother
    rcases List.mem_append.1 hother with hother | hother
    · refine ⟨(h.compatible other hother other hother).acceptable, hacceptable, ?_⟩
      intro base base' hsome hsome'
      -- The base that is present has the id of every base that has been named.
      obtain ⟨present, hpresent, hid⟩ := h.exists_base hother hsome
      exact hid.trans (hbase base' hsome' present hpresent)
    · cases List.mem_singleton.1 hother
      refine ⟨hacceptable, hacceptable, fun base base' hsome hsome' => ?_⟩
      rw [Option.some.inj (hsome.symm.trans hsome')]
  · intro hall
    have hself : application.Compatible references application := hall application (by simp)
    refine ⟨hself.acceptable, fun base hbase present hpresent => ?_⟩
    rw [h.base_eq] at hpresent
    -- The base that is present has been named by one of the applications.
    obtain ⟨other, hother, hsome⟩ := List.mem_filterMap.1 (List.mem_of_getLast? hpresent)
    exact (hall other (List.mem_append_left _ hother)).base _ _ hsome hbase

/-- A draft shows one more application once it has been made. The object that it is
for has to be there already; rules declare their objects before they apply anything to
them. -/
theorem take (h : draft.Shows name references named applied) {application : Application}
    (hkey : application.key.object ∈ named) (htake : draft.take application = .ok draft') :
    draft'.Shows name references named (applied ++ [application]) := by
  -- The object is there, so the names of the block stay as they are.
  have hin := (h.names _).2 (.inr ⟨_, hkey, .inl rfl⟩)
  have hall := h.exists_take_iff.1 ⟨draft', htake⟩
  obtain ⟨-, rfl⟩ := take_eq_ok_iff.1 htake
  have htook := took_after draft application
  have hnames : (draft.after application).block.names = draft.block.names := by
    simp [Block.names, htook.styles, Function.comp_def]
  constructor
  · exact h.coherent.of_names htook.root hnames
  · rw [hnames]
    exact h.names
  · rw [hnames]
    exact List.forall_mem_append.2 ⟨h.keys, by simpa using hin⟩
  · exact forall_mem_concat (fun _ _ hcompatible => hcompatible.symm) h.compatible hall
  -- What is shown of styles is read off what one application does to each of them.
  · intro entry hentry property
    rw [htook.styles] at hentry
    obtain ⟨before, hbefore, rfl⟩ := List.mem_map.1 hentry
    rw [application.properties_effect, h.properties before hbefore]
    simp [or_and_right, exists_or]
  · intro entry hentry
    rw [htook.styles] at hentry
    obtain ⟨before, hbefore, rfl⟩ := List.mem_map.1 hentry
    rw [application.resolutions_effect, h.resolutions before hbefore,
      Application.fst_effect, filterMap_concat]
  · rw [htook.targets, h.targets, filterMap_concat, List.map_append]
    cases application.resolution? <;> rfl
  · exact htook.references.trans h.references_eq
  · rw [htook.base, h.references_eq, h.base_eq, getLast?_filterMap_concat]
  · rw [htook.name, h.name_eq, getLast?_filterMap_concat]
    cases application.name? <;> rfl

/-! ### Rules -/

/-- Several objects are declared one after the other. The selectors of a rule name
them, and one may be named several times. -/
theorem declareAll (h : draft.Shows name references named applied) {objects : List ObjectName}
    {block : Block} (hdeclare : objects.foldlM Block.declare draft.block = .ok block) :
    Shows name references (named ++ objects) applied { draft with block } :=
  foldlM_keeps_passed
    (P := fun before passed => Shows name references passed applied { draft with block := before })
    (fun _ _ _ _ _ hafter hbefore => hbefore.declare hafter) hdeclare h

/-- Several objects can be declared if each of them goes together with all of them,
and with those that have been declared before. -/
theorem exists_declareAll_iff (h : draft.Shows name references named applied)
    {objects : List ObjectName} :
    (∃ block, objects.foldlM Block.declare draft.block = .ok block)
      ↔ ∀ object ∈ objects, ∀ other ∈ named ++ objects, other.Compatible object :=
  exists_foldlM_eq_ok_iff
    (P := fun before passed => Shows name references passed applied { draft with block := before })
    (fun _ _ hcompatible => hcompatible.symm)
    (fun _ _ _ _ _ hafter hbefore => hbefore.declare hafter)
    (fun _ _ _ _ hbefore => hbefore.exists_declare_iff) h

/-- Declarations can be applied one after the other if their keys are there. No
application brings an object, so the keys are known beforehand. -/
theorem takeAll (h : draft.Shows name references named applied) {applications : List Application}
    (hkeys : ∀ application ∈ applications, application.key.object ∈ named)
    (htake : applications.foldlM Draft.take draft = .ok draft') :
    draft'.Shows name references named (applied ++ applications) :=
  foldlM_keeps_passed (P := fun before passed => Shows name references named passed before)
    (fun application happlication _ _ _ hafter hbefore =>
      hbefore.take (hkeys application happlication) hafter) htake h

/-- Several declarations can be applied if each of them goes together with all of
them, and with those that have been applied before. -/
theorem exists_takeAll_iff (h : draft.Shows name references named applied)
    {applications : List Application}
    (hkeys : ∀ application ∈ applications, application.key.object ∈ named) :
    (∃ draft', applications.foldlM Draft.take draft = .ok draft')
      ↔ ∀ application ∈ applications, ∀ other ∈ applied ++ applications,
        other.Compatible references application :=
  exists_foldlM_eq_ok_iff (P := fun before passed => Shows name references named passed before)
    (fun _ _ hcompatible => hcompatible.symm)
    (fun application happlication _ _ _ hafter hbefore =>
      hbefore.take (hkeys application happlication) hafter)
    (fun _ _ _ _ hbefore => hbefore.exists_take_iff) h

/-- A rule adds what it declares and what it applies. Its keys are among its objects,
so the applications can be made once the objects are there. -/
theorem addRule (h : draft.Shows name references named applied) {rule : Rule}
    (hadd : draft.addRule rule = .ok draft') :
    draft'.Shows name references (named ++ rule.objects) (applied ++ rule.applications) := by
  obtain ⟨-, block, hobjects, happlications⟩ := addRule_eq_ok_iff.1 hadd
  have hkeys : ∀ application ∈ rule.applications,
      application.key.object ∈ named ++ rule.objects := fun application happlication =>
    List.mem_append_right _ (Rule.mem_objects_of_mem_applications happlication)
  exact (h.declareAll hobjects).takeAll hkeys happlications

/-- A rule can be added if it can be read and if its objects and its applications go
together with those that are there. Objects and applications do not get in each
other's way. -/
theorem exists_addRule_iff (h : draft.Shows name references named applied) {rule : Rule} :
    (∃ draft', draft.addRule rule = .ok draft') ↔ rule.IsReadable
      ∧ (∀ object ∈ rule.objects, ∀ other ∈ named ++ rule.objects, other.Compatible object)
      ∧ ∀ application ∈ rule.applications, ∀ other ∈ applied ++ rule.applications,
        other.Compatible references application := by
  -- A rule declares the objects that it styles, so none of its applications lacks its
  -- object.
  have hkeys : ∀ application ∈ rule.applications,
      application.key.object ∈ named ++ rule.objects := fun application happlication =>
    List.mem_append_right _ (Rule.mem_objects_of_mem_applications happlication)
  simp only [addRule_eq_ok_iff]
  constructor
  · rintro ⟨draft', hreadable, block, hobjects, happlications⟩
    exact ⟨hreadable, h.exists_declareAll_iff.1 ⟨block, hobjects⟩,
      ((h.declareAll hobjects).exists_takeAll_iff hkeys).1 ⟨draft', happlications⟩⟩
  · rintro ⟨hreadable, hobjects, happlications⟩
    obtain ⟨block, hblock⟩ := h.exists_declareAll_iff.2 hobjects
    obtain ⟨draft', hdraft'⟩ := ((h.declareAll hblock).exists_takeAll_iff hkeys).2 happlications
    exact ⟨draft', hreadable, block, hblock, hdraft'⟩

end Shows

end Draft

/-- Two rules can stand in one stylesheet: they can be read, and all that they declare and apply
goes together. -/
structure Rule.Compatible (references : List (String × Block)) (rule other : Rule) : Prop where
  readable : rule.IsReadable
  readable' : other.IsReadable
  objects : ∀ object ∈ rule.objects, ∀ object' ∈ other.objects, object.Compatible object'
  applications : ∀ application ∈ rule.applications, ∀ application' ∈ other.applications,
    application.Compatible references application'

/-- Whether two rules go together does not depend on which of them comes first, since
it does not for their objects and applications. -/
theorem Rule.Compatible.symm {references : List (String × Block)} {rule other : Rule}
    (h : rule.Compatible references other) : other.Compatible references rule where
  readable := h.readable'
  readable' := h.readable
  objects object hobject object' hobject' := (h.objects object' hobject' object hobject).symm
  applications application happlication application' happlication' :=
    (h.applications application' happlication' application happlication).symm

namespace Draft

variable {name : String} {references : List (String × Block)} {draft draft' : Draft}

/-- What a draft contains once rules have been added. -/
structure ShowsRules (name : String) (references : List (String × Block)) (draft : Draft)
    (rules : List Rule) : Prop extends
    draft.Shows name references (rules.flatMap Rule.objects)
      (rules.flatMap Rule.applications) where
  readable : ∀ rule ∈ rules, rule.IsReadable

/-- A draft shows one more rule once it has been added. A rule that is added can be
read, which is kept beside what the draft shows. -/
theorem ShowsRules.addRule {rules : List Rule} {rule : Rule}
    (h : draft.ShowsRules name references rules) (hadd : draft.addRule rule = .ok draft') :
    draft'.ShowsRules name references (rules ++ [rule]) := by
  have hreadable := (addRule_eq_ok_iff.1 hadd).1
  constructor
  · simpa using h.toShows.addRule hadd
  · exact List.forall_mem_append.2 ⟨h.readable, by simpa using hreadable⟩

/-- A rule can be added if it goes together with itself and with each of those that
have been. Here the conditions on objects and on applications are put together to one
on pairs of rules. -/
theorem ShowsRules.exists_addRule_iff {rules : List Rule} {rule : Rule}
    (h : draft.ShowsRules name references rules) :
    (∃ draft', draft.addRule rule = .ok draft')
      ↔ ∀ other ∈ rules ++ [rule], other.Compatible references rule := by
  have hobjects : rules.flatMap Rule.objects ++ rule.objects
      = (rules ++ [rule]).flatMap Rule.objects := by simp
  have happlications : rules.flatMap Rule.applications ++ rule.applications
      = (rules ++ [rule]).flatMap Rule.applications := by simp
  rw [h.toShows.exists_addRule_iff, hobjects, happlications]
  simp only [List.mem_flatMap]
  constructor
  · rintro ⟨hreadable, hdeclared, happlied⟩ other hother
    -- Rules that have been added can be read, which the condition on pairs asks of both
    -- rules.
    have hreadable' : other.IsReadable := by
      rcases List.mem_append.1 hother with hother | hother
      · exact h.readable other hother
      · exact List.mem_singleton.1 hother ▸ hreadable
    refine ⟨hreadable', hreadable, fun object hobject object' hobject' => ?_,
      fun application happlication application' happlication' => ?_⟩
    · exact hdeclared object' hobject' object ⟨other, hother, hobject⟩
    · exact happlied application' happlication' application ⟨other, hother, happlication⟩
  · intro hall
    refine ⟨(hall rule (by simp)).readable, ?_, ?_⟩
    · rintro object hobject object' ⟨other, hother, hobject'⟩
      exact (hall other hother).objects object' hobject' object hobject
    · rintro application happlication application' ⟨other, hother, happlication'⟩
      exact (hall other hother).applications application' happlication' application happlication

variable {id : Nat} {identifier : String} {rules : List Rule}

/-- An empty draft shows no rules. This is where the account of a block begins, before
its first rule. -/
theorem showsRules_bare :
    ShowsRules name references ⟨.bare id name identifier references, []⟩ [] where
  toShows := shows_bare id name identifier references
  readable := nofun

/-- What rules make of an empty block is what they declare and apply. All that is said
of finished blocks is read off this. -/
theorem showsRules_of_foldlM
    (h : rules.foldlM addRule ⟨.bare id name identifier references, []⟩ = .ok draft) :
    draft.ShowsRules name references rules :=
  foldlM_keeps_passed (P := ShowsRules name references)
    (fun _ _ _ _ _ hadd hbefore => hbefore.addRule hadd) h showsRules_bare

/-- Rules are accepted if each of them goes together with itself and with all others.
The right side is the same for every order of the rules, so acceptance does not depend
on the order. -/
theorem exists_addRules_iff :
    (∃ draft, rules.foldlM addRule ⟨.bare id name identifier references, []⟩ = .ok draft)
      ↔ ∀ rule ∈ rules, ∀ other ∈ rules, other.Compatible references rule :=
  exists_foldlM_eq_ok_iff (P := ShowsRules name references)
    (fun _ _ hcompatible => hcompatible.symm)
    (fun _ _ _ _ _ hadd hbefore => hbefore.addRule hadd)
    (fun _ _ _ _ hbefore => hbefore.exists_addRule_iff) showsRules_bare

/-- A draft is finished once the targets of all resolutions are there, and finishing
does not change its block. -/
theorem finish_ok_iff {block : Block} :
    draft.finish = .ok block
      ↔ (∀ target ∈ draft.targets.map Prod.fst, (draft.block.lookup? target).isSome)
        ∧ draft.block = block := by
  unfold finish
  split
  · rename_i target location hfound
    have hin : target ∈ draft.targets.map Prod.fst :=
      List.mem_map_of_mem (List.mem_of_find?_eq_some hfound)
    -- The target that the error is about is one that is not there.
    have hmissing : draft.block.lookup? target = none := by simpa using List.find?_some hfound
    constructor
    · intro h
      cases h
    · rintro ⟨hall, -⟩
      have hthere := hall target hin
      rw [hmissing] at hthere
      cases hthere
  · rename_i hnone
    have hall : ∀ target ∈ draft.targets.map Prod.fst, (draft.block.lookup? target).isSome := by
      simpa [List.find?_eq_none, Option.isSome_iff_ne_none] using hnone
    rw [Except.ok.injEq, and_iff_right hall]

end Draft

/-- A block is built if all rules can be added and the draft can then be finished.
Theorems about the blocks of rules begin here: the draft is known by what it shows,
and finishing changes nothing. -/
theorem Block.ofRules_eq_ok_iff {id : Nat} {name identifier : String}
    {references : List (String × Block)} {rules : List Rule} {block : Block} :
    ofRules id name identifier references rules = .ok block
      ↔ ∃ draft, rules.foldlM Draft.addRule ⟨.bare id name identifier references, []⟩ = .ok draft
        ∧ draft.finish = .ok block := by
  unfold ofRules
  cases rules.foldlM Draft.addRule ⟨.bare id name identifier references, []⟩ <;> simp

end BlockStyles
