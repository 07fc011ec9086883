import BlockStyles.Block.Lookup
import BlockStyles.Proofs.Block.Edits
import BlockStyles.Proofs.Selector.Display

/-!
# `BlockStyles.Proofs.Selector.Written`: reading the selectors of objects

An object is written as a class, as a state, or as a class with a state behind
it. The names in it are identifiers, so the dots, brackets and signs around them
are found again, and what is read is what has been written.

* `Sought.ofSelector?_cls`, `Sought.ofSelector?_state`, `Sought.ofSelector?_clsState`: the
  three forms that objects are written in.
-/

set_option autoImplicit false

namespace BlockStyles

open BlockStyles.Text
open BlockStyles.Selector (Attribute Compound Simple)

/-- The text of a state between the brackets. It has a bar ahead of the group or the
name, and an equals sign if there are both. -/
def StateName.content (label : StateName) : List Char :=
  match label.group with
  | some group => stateSpace.toList ++ '|' :: (group.toList ++ '=' :: label.name.toList)
  | none => stateSpace.toList ++ '|' :: label.name.toList

/-- The attribute that a state is written as. The name of a state in a group is the
value, and otherwise the name of the attribute. -/
def StateName.condition (label : StateName) : Attribute :=
  match label.group with
  | some group => ⟨some stateSpace, group, some label.name⟩
  | none => ⟨some stateSpace, label.name, none⟩

namespace StateName

variable {label : StateName}

/-- Marks other than the two that join the names of a state are not in it. The names
are identifiers, which have no marks. -/
theorem not_mem_content (h : label.IsLegal) {mark : Char} (hmark : isIdentifierChar mark = false)
    (hbar : mark ≠ '|') (heq : mark ≠ '=') : mark ∉ label.content := by
  have hspace : mark ∉ stateSpace.toList := not_mem_of_isIdentifier (by decide) hmark
  have hname := not_mem_of_isIdentifier h.name hmark
  unfold content
  split
  · rename_i group hgroup
    have hgroup := not_mem_of_isIdentifier (h.group group hgroup) hmark
    simp [hspace, hname, hgroup, hbar, heq]
  · simp [hspace, hname, hbar]

/-- There is no white space in a state, neither in its names nor between them. So
nothing is trimmed off when the attribute is read again. -/
theorem isSpace_of_mem_content (h : label.IsLegal) : ∀ c ∈ label.content, isSpace c = false := by
  have hspace : ∀ c ∈ stateSpace.toList, isSpace c = false :=
    isSpace_of_mem_identifier (by decide)
  have hname := isSpace_of_mem_identifier h.name
  have hbar : isSpace '|' = false := by decide
  have heq : isSpace '=' = false := by decide
  intro c hc
  unfold content at hc
  -- A state in a group has three names and two marks, one without has two names and a mark.
  split at hc
  · rename_i group hgroup
    have hgroup := isSpace_of_mem_identifier (h.group group hgroup)
    rcases List.mem_append.1 hc with hc | hc
    · exact hspace c hc
    · rcases List.mem_cons.1 hc with rfl | hc
      · exact hbar
      · rcases List.mem_append.1 hc with hc | hc
        · exact hgroup c hc
        · rcases List.mem_cons.1 hc with rfl | hc
          · exact heq
          · exact hname c hc
  · rcases List.mem_append.1 hc with hc | hc
    · exact hspace c hc
    · rcases List.mem_cons.1 hc with rfl | hc
      · exact hbar
      · exact hname c hc

/-- A state is written like its attribute. Its group, if it has one, is the name of
the attribute, and its own name is the value. -/
theorem content_condition (label : StateName) : label.condition.content = label.content := by
  obtain ⟨_ | group, name⟩ := label
  · rfl
  · exact List.append_assoc _ _ _

/-- The names in a state are identifiers, so its attribute has the shape of one that
is read. None of the three marks that an attribute is cut at is in them. -/
theorem wellFormed_condition (h : label.IsLegal) : label.condition.WellFormed := by
  have hspace : isIdentifier stateSpace := by decide
  have hname := h.name
  have hgroup := h.group
  have hbar : isIdentifierChar '|' = false := by decide
  have heq : isIdentifierChar '=' = false := by decide
  have hbracket : isIdentifierChar ']' = false := by decide
  obtain ⟨_ | group, name⟩ := label <;> constructor <;>
    simp_all [condition, trim_identifier, not_mem_of_isIdentifier]

/-- No white space or quotes would come off the name of a state, as there are none in
an identifier. -/
theorem hasPlainValue_condition (h : label.IsLegal) : label.condition.HasPlainValue := by
  intro value hvalue
  obtain ⟨_ | group, name⟩ := label
  · cases hvalue
  · cases hvalue
    rw [trim_identifier h.name, unquote_identifier h.name]

/-- The attribute of a state is read from its text. In general only the value may
change by that, and this one is plain. -/
theorem ofContent_content (h : label.IsLegal) :
    Attribute.ofContent label.content = label.condition := by
  rw [← content_condition, (wellFormed_condition h).ofContent_content,
    Attribute.reread_eq_self_iff.2 (hasPlainValue_condition h)]

/-- The state is found again in its attribute. Whether it has a group is seen from
whether there is a value. -/
theorem stateOf?_condition (label : StateName) : Sought.stateOf? label.condition = some label := by
  obtain ⟨group, name⟩ := label
  cases group <;> simp [condition, Sought.stateOf?, Attribute.isIn]

end StateName

/-! ### Compounds -/

namespace Selector

/-- A class is read up to what ends its name. The name is an identifier and goes on as
far as there are characters of identifiers. -/
theorem Simple.read_cls {name : String} (h : isIdentifier name) (rest : List Char)
    (hrest : ∀ c ∈ rest.head?, isIdentifierChar c = false) :
    Simple.read ('.' :: (name.toList ++ rest)) = .ok (.cls name, rest) := by
  rw [Simple.read, Simple.readNamed, Identifier.read_append h hrest]

/-- A state is read up to its closing bracket, since there is none inside. The rest
behind the bracket is left as it is, so a state can stand behind a class. -/
theorem Simple.read_state {label : StateName} (h : label.IsLegal) (rest : List Char) :
    Simple.read ('[' :: (label.content ++ ']' :: rest)) = .ok (.attr label.condition, rest) := by
  have hbracket : ']' ∉ label.content :=
    label.not_mem_content h (by decide) (by decide) (by decide)
  rw [Simple.read, Simple.readAttribute, splitFirst_append _ hbracket]
  dsimp only
  rw [StateName.ofContent_content h]

/-- At the end of the text there is nothing to read. -/
theorem Compound.readRun_nil : Compound.readRun [] = ([], []) := by
  rw [Compound.readRun]
  rfl

end Selector

/-! ### Selectors of objects -/

namespace Sought

/-- A selector that is a compound without white space asks for what the compound does.
Trimming takes nothing off it, and it is not empty, which are the two things that are
looked at first. -/
theorem ofSelector?_of_readRun {text : List Char} {simple : Simple} {compound : Compound}
    (hspace : ∀ c ∈ text, isSpace c = false) (hne : text ≠ [])
    (h : Compound.readRun text = (simple :: compound, [])) :
    ofSelector? text = ofCompound? (simple :: compound) := by
  rw [ofSelector?, trim_eq_self hspace]
  cases text with
  | nil => exact absurd rfl hne
  | cons c text =>
    dsimp only
    rw [Compound.read, h]

/-- There is no white space in the selector of a class. So nothing is trimmed off when
it is read. -/
theorem isSpace_of_mem_cls {name : String} (h : isIdentifier name) :
    ∀ c ∈ '.' :: name.toList, isSpace c = false := by
  intro c hc
  rcases List.mem_cons.1 hc with rfl | hc
  · decide
  · exact isSpace_of_mem_identifier h c hc

/-- There is no white space in the selector of a state, neither in its text nor in the
brackets. -/
theorem isSpace_of_mem_state {label : StateName} (h : label.IsLegal) :
    ∀ c ∈ '[' :: (label.content ++ [']']), isSpace c = false := by
  intro c hc
  rcases List.mem_cons.1 hc with rfl | hc
  · decide
  · rcases List.mem_append.1 hc with hc | hc
    · exact StateName.isSpace_of_mem_content h c hc
    · cases List.mem_singleton.1 hc
      decide

/-- The selector of a class asks for the class. No state is asked for, so what is
found is the class itself. -/
theorem ofSelector?_cls {name : String} (h : isIdentifier name) :
    ofSelector? ('.' :: name.toList) = some ⟨some name, none⟩ := by
  have hread : Simple.read ('.' :: name.toList) = .ok (.cls name, []) := by
    have := Selector.Simple.read_cls h [] (by simp)
    rwa [List.append_nil] at this
  have hrun : Compound.readRun ('.' :: name.toList) = ([.cls name], []) := by
    rw [Selector.Compound.readRun_of_read hread, Selector.Compound.readRun_nil]
  rw [ofSelector?_of_readRun (isSpace_of_mem_cls h) (List.cons_ne_nil _ _) hrun]
  rfl

/-- The selector of a state asks for the state, of the root. Where no class is named
the root is meant. -/
theorem ofSelector?_state {label : StateName} (h : label.IsLegal) :
    ofSelector? ('[' :: (label.content ++ [']'])) = some ⟨none, some label⟩ := by
  have hrun : Compound.readRun ('[' :: (label.content ++ [']']))
      = ([.attr label.condition], []) := by
    rw [Selector.Compound.readRun_of_read (Selector.Simple.read_state h []),
      Selector.Compound.readRun_nil]
  rw [ofSelector?_of_readRun (isSpace_of_mem_state h) (List.cons_ne_nil _ _) hrun]
  simp [ofCompound?, StateName.stateOf?_condition]

/-- The selector of a class with a state behind it asks for the state of the class.
This is the longest of the four forms that objects are written in. -/
theorem ofSelector?_clsState {name : String} {label : StateName} (hname : isIdentifier name)
    (h : label.IsLegal) :
    ofSelector? ('.' :: (name.toList ++ '[' :: (label.content ++ [']'])))
      = some ⟨some name, some label⟩ := by
  have hspace : ∀ c ∈ '.' :: (name.toList ++ '[' :: (label.content ++ [']'])),
      isSpace c = false := by
    intro c hc
    rw [← List.cons_append] at hc
    rcases List.mem_append.1 hc with hc | hc
    · exact isSpace_of_mem_cls hname c hc
    · exact isSpace_of_mem_state h c hc
  -- The name of the class ends where the state begins.
  have hbracket : ∀ c ∈ ('[' :: (label.content ++ [']'])).head?, isIdentifierChar c = false := by
    intro c hc
    cases hc
    decide
  have hrun : Compound.readRun ('.' :: (name.toList ++ '[' :: (label.content ++ [']'])))
      = ([.cls name, .attr label.condition], []) := by
    rw [Selector.Compound.readRun_of_read (Selector.Simple.read_cls hname _ hbracket),
      Selector.Compound.readRun_of_read (Selector.Simple.read_state h []),
      Selector.Compound.readRun_nil]
  rw [ofSelector?_of_readRun hspace (List.cons_ne_nil _ _) hrun]
  simp [ofCompound?, StateName.stateOf?_condition]

end Sought

end BlockStyles
