import BlockStyles.Proofs.Folds
import BlockStyles.Proofs.SortedList
import BlockStyles.Template.Restore

/-!
# `BlockStyles.Proofs.Template.Recording`: what can be recorded

Elements get their objects one after the other, and an analysis, new or restored,
goes on one operation after the other. So what each attachment keeps holds of all
recorded elements.

* `Element.Made.group_ne_nil`: a group that is there has a member.
* `Analysis.Reached.made`: recorded elements have got their objects one after the other.
-/

set_option autoImplicit false

namespace BlockStyles

open BlockStyles.Text (Position)

namespace Element

/-- An element that was bare and has got its objects one after the other. This is the
only way to come by an element, whether it is started or restored. -/
inductive Made : Element → Prop where
  | bare (id : Nat) (position : Position) : Made (.bare id position)
  | addStatic {element : Element} (object : Object) (h : Made element) :
      Made (element.addStatic object)
  | addDynamic {element : Element} (object : Object) (condition : Option String)
      (h : Made element) : Made (element.addDynamic object condition)
  | addExclusive {element : Element} (group : String) (object : Object) (h : Made element) :
      Made (element.addExclusive group object)

/-- A group that is there has a member. It gets there with its first member, and no
member is ever taken away. -/
theorem Made.group_ne_nil {element : Element} (h : element.Made) :
    ∀ entry ∈ element.exclusives.toList, entry.2.toList ≠ [] := by
  induction h with
  | bare id position => exact fun entry hentry => absurd hentry List.not_mem_nil
  | addStatic object _ ih => exact ih
  | addDynamic object condition _ ih => exact ih
  | addExclusive group object _ ih =>
    intro entry hentry
    rcases SortedList.mem_insert hentry with rfl | hentry
    · exact SortedList.place_ne_nil _ _ _
    · exact ih entry hentry

end Element

namespace Analysis

/-- What is done with an analysis: a block gets an alias, an element is started or
ended, or the analysis is closed. Any element can be handed in at the end of one, in
whatever way it was made. -/
inductive Step : Analysis → Analysis → Prop where
  | addBlock (analysis : Analysis) (localName : String) (block : Block) :
      Step analysis (analysis.addBlock localName block)
  | start {analysis after : Analysis} {element : Element} (id : Nat) (position : Position)
      (h : analysis.start id position = .ok (element, after)) : Step analysis after
  | finish (analysis : Analysis) {element : Element} (h : element.Made) :
      Step analysis (analysis.finish element).1
  | close {analysis after : Analysis} (h : analysis.close = .ok after) : Step analysis after

/-- An analysis that is new or restored, or comes from one by what is done with it. -/
inductive Reached : Analysis → Prop where
  | begin (template : String) (options : Options) : Reached (begin template options)
  | ofDocument {document : Document} {blocks : List (String × Block)} {next : Nat}
      {analysis : Analysis} (h : ofDocument document blocks next = .ok analysis) :
      Reached analysis
  | step {analysis after : Analysis} (h : Reached analysis) (hstep : Step analysis after) :
      Reached after

variable {analysis after : Analysis}

/-- What holds of the bare element and is kept whenever a found object is attached
holds of an element that is restored. So the three rounds of restoring need to be
looked at only once. -/
theorem elementFor_keeps {id : Nat} {entry : Document.Entry} {element : Element}
    {P : Element → Prop} (h : analysis.elementFor id entry = .ok element)
    (hbare : P (.bare id (entry.position.getD .unknown)))
    (hstatic : ∀ before written object, analysis.objectFor written = .ok object → P before →
      P (before.addStatic object))
    (hdynamic : ∀ before written condition object, analysis.objectFor written = .ok object →
      P before → P (before.addDynamic object condition))
    (hexclusive : ∀ before written group object, analysis.objectFor written = .ok object →
      P before → P (before.addExclusive group object)) : P element := by
  obtain ⟨withStatics, hstatics, h⟩ := bind_eq_ok.1 h
  obtain ⟨withDynamics, hdynamics, hexclusives⟩ := bind_eq_ok.1 h
  refine foldlM_keeps (fun choice _ before after hadd hbefore => ?_) hexclusives
    (foldlM_keeps (fun dynamic _ before after hadd hbefore => ?_) hdynamics
      (foldlM_keeps (fun written _ before after hadd hbefore => ?_) hstatics hbare))
  -- Each step of the three folds attaches the object that it has found.
  all_goals
    obtain ⟨object, hobject, rfl⟩ := map_eq_ok.1 hadd
  · exact hexclusive before _ choice.group object hobject hbefore
  · exact hdynamic before _ dynamic.condition object hobject hbefore
  · exact hstatic before _ object hobject hbefore

/-- An element that is restored gets its objects one after the other. So what is known
of elements that callers make is known of restored ones too. -/
theorem made_of_elementFor {id : Nat} {entry : Document.Entry} {element : Element}
    (h : analysis.elementFor id entry = .ok element) : element.Made :=
  elementFor_keeps h (.bare id _)
    (fun _ _ object _ hmade => hmade.addStatic object)
    (fun _ _ condition object _ hmade => hmade.addDynamic object condition)
    (fun _ _ group object _ hmade => hmade.addExclusive group object)

/-- Elements are restored one for each entry, in the same order. They are numbered one
after the other, but the numbers do not matter here. -/
theorem forall₂_of_elementsFor {next : Nat} {entries : List Document.Entry}
    {elements : List Element} (h : analysis.elementsFor next entries = .ok elements) :
    List.Forall₂ (fun entry element => ∃ id, analysis.elementFor id entry = .ok element)
      entries elements := by
  induction entries generalizing next elements with
  | nil =>
    cases h
    exact .nil
  | cons entry entries ih =>
    obtain ⟨first, hfirst, h⟩ := bind_eq_ok.1 h
    obtain ⟨rest, hrest, h⟩ := bind_eq_ok.1 h
    cases h
    exact .cons ⟨next, hfirst⟩ (ih hrest)

/-- All restored elements have got their objects one after the other. -/
theorem made_of_elementsFor {next : Nat} {entries : List Document.Entry} {elements : List Element}
    (h : analysis.elementsFor next entries = .ok elements) :
    ∀ element ∈ elements, element.Made := by
  intro element helement
  obtain ⟨entry, -, id, hentry⟩ := exists_of_forall₂ (forall₂_of_elementsFor h) helement
  exact made_of_elementFor hentry

/-- Nothing that is done with an analysis puts another element among those that are
recorded. -/
theorem Step.made (h : Step analysis after) (hmade : ∀ element ∈ analysis.elements, element.Made) :
    ∀ element ∈ after.elements, element.Made := by
  cases h with
  | addBlock localName block => exact hmade
  | start id position h =>
    unfold Analysis.start at h
    split at h <;> cases h
    exact hmade
  -- An element is recorded only if it passes all checks; otherwise nothing changes.
  | @finish element h =>
    unfold Analysis.finish
    dsimp only
    split
    · split
      · split
        · exact hmade
        · intro recorded hrecorded
          rcases List.mem_append.1 hrecorded with hrecorded | hrecorded
          · exact hmade recorded hrecorded
          · exact List.mem_singleton.1 hrecorded ▸ h
      · exact hmade
    · exact hmade
  | close h =>
    unfold Analysis.close at h
    split at h <;> cases h
    exact hmade

/-- Recorded elements have got their objects one after the other, in every analysis
that can be reached. -/
theorem Reached.made (h : analysis.Reached) : ∀ element ∈ analysis.elements, element.Made := by
  induction h with
  | begin template options => exact fun element helement => absurd helement List.not_mem_nil
  | ofDocument h =>
    obtain ⟨blocks, -, h⟩ := bind_eq_ok.1 h
    obtain ⟨elements, helements, h⟩ := bind_eq_ok.1 h
    cases h
    exact made_of_elementsFor helements
  | step _ hstep ih => exact hstep.made ih

end Analysis

end BlockStyles
