import BlockStyles.Proofs.Block.Alike
import BlockStyles.Proofs.Library.Consistent
import BlockStyles.Proofs.Library.Sheets

/-!
# `BlockStyles.Proofs.Library.Inheritance`: no object is lost on the way down

A class is looked for along the lineage, and once it is found its states are looked for along the
lineage of the block that has it. These two searches come to one: what a selector asks for is what
the first block in the lineage has of its own. So a block finds whatever a block that it extends
finds, unless a block in between has an object that is called the same.

* `Block.sought?_eq`: two searches along a lineage are one.
* `Object.namesake_iff`: objects are called the same if their names are equal, with class and group.
* `Block.lineage_append`: the lineage of an ancestor is the end of that of the block.
* `Workshop.inherits_objects`: what an ancestor finds, the block finds from the first in its
  lineage that declares it.
-/

set_option autoImplicit false

namespace BlockStyles

/-- Searching what a search has found is one search with both conditions. Looking for
a state of a class is two searches in a row, and is one by this lemma. -/
theorem findSome?_filterMap {α β γ : Type} {f : α → Option β} {g : β → Option γ} {l : List α} :
    (l.filterMap f).findSome? g = l.findSome? fun a => (f a).bind g := by
  induction l with
  | nil => rfl
  | cons a l ih => cases hf : f a <;> simp [hf, ih, List.findSome?_cons]

/-! ### Looking in one block -/

namespace Block

variable {block ancestor : Block} {sought : Sought} {object : Object}

/-- What the block itself has of what is asked for, without the blocks that it extends.
Without a class the root is meant, which has a class of its own. -/
def ownSought? (block : Block) (sought : Sought) : Option Object :=
  (block.ownClass? (sought.cls.getD rootName)).bind fun ref =>
    match sought.state with
    | none => some (.cls ref)
    | some label => (ref.ownState? label).map .state

/-- What the block itself has is its own, and is called what is asked for. A search
for no class is one for the root, by the name that all roots have. -/
theorem of_ownSought? (h : block.ownSought? sought = some object) :
    object.block = block ∧ object.fullName = ⟨sought.cls.getD rootName, sought.state⟩ := by
  obtain ⟨ref, href, hobject⟩ := Option.bind_eq_some_iff.1 h
  obtain ⟨rfl, hname⟩ := of_ownClass? href
  cases hstate : sought.state with
  | none =>
    rw [hstate] at hobject
    cases hobject
    exact ⟨rfl, congrArg (ObjectName.mk · none) hname⟩
  | some label =>
    rw [hstate] at hobject
    obtain ⟨state, hfound, rfl⟩ := Option.map_eq_some_iff.1 hobject
    obtain ⟨index, hindex, rfl⟩ := Option.map_eq_some_iff.1 hfound
    have hlabel := beq_iff_eq.1 (List.findFinIdx?_eq_some_iff.1 hindex).1
    exact ⟨rfl, congrArg₂ ObjectName.mk hname (congrArg some hlabel)⟩

/-- A block has what it declares under the name that is asked for. For a state this is
the state on the class; whoever has the state has the class as well. -/
theorem isSome_ownSought?_iff (h : block.WellNamed) :
    (block.ownSought? sought).isSome
      ↔ ⟨sought.cls.getD rootName, sought.state⟩ ∈ block.names := by
  rw [ownSought?]
  cases hown : block.ownClass? (sought.cls.getD rootName) with
  -- A block without the class cannot have a state of it.
  | none =>
    have hnot : ⟨sought.cls.getD rootName, none⟩ ∉ block.names := by
      rw [← isSome_ownClass?_iff, hown]
      simp
    have hnot' : ⟨sought.cls.getD rootName, sought.state⟩ ∉ block.names :=
      fun hin => hnot (cls_mem_names hin)
    simp [hnot']
  | some ref =>
    obtain ⟨rfl, hname⟩ := of_ownClass? hown
    cases hstate : sought.state with
    | none =>
      have hin : ⟨sought.cls.getD rootName, none⟩ ∈ ref.block.names := by
        rw [← isSome_ownClass?_iff, hown]
        rfl
      simp [hin]
    | some label =>
      rw [Option.bind_some, Option.isSome_map, ClassRef.isSome_ownState?_iff h, hname]

/-- An object is declared under its name. For a state the name has both parts, its class
and its label. -/
theorem fullName_mem_names (h : object ∈ block.objects) : object.fullName ∈ block.names :=
  List.mem_map_of_mem (mem_styles_of_mem_objects h)

/-! ### Looking along a lineage -/

/-- The root of a block is the class of its name. It is the first of the classes, so a
search for the name comes to it before any other. -/
theorem ownClass?_rootName (h : block.root.name = rootName) :
    block.ownClass? rootName = some block.rootRef := by
  have hfirst : block.classes.findFinIdx? (·.name == rootName) = some ⟨0, Nat.zero_lt_succ _⟩ := by
    rw [List.findFinIdx?_eq_some_iff]
    exact ⟨beq_iff_eq.2 h, fun j hj => absurd hj (Nat.not_lt_zero _)⟩
  rw [ownClass?, hfirst]
  rfl

/-- Without a class, what is asked for is the root, which is the class of its name.
This puts the four shapes of what can be asked for into one. -/
theorem sought?_eq_bind (h : block.root.name = rootName) :
    block.sought? sought
      = (block.class? (sought.cls.getD rootName)).bind fun ref =>
        match sought.state with
        | none => some (.cls ref)
        | some label => (ref.state? label).map .state := by
  obtain ⟨cls, state⟩ := sought
  cases cls with
  | none =>
    have hroot : block.class? rootName = some block.rootRef := by
      rw [class?_eq, ownClass?_rootName h, Option.some_or]
    rw [Option.getD_none, hroot]
    cases state <;> rfl
  | some name =>
    rw [Option.getD_some]
    cases hclass : block.class? name <;> cases state <;> simp [sought?, hclass]

/-- A search for a class along a lineage, and from there for a state of it, is one
search for the state. Blocks that come before the class have no such class, so they
could not have the state. -/
theorem class?_bind_state? (block : Block) (name : String) (label : StateName) :
    (block.class? name).bind (·.state? label)
      = block.lineage.findSome? fun other => (other.ownClass? name).bind (·.ownState? label) := by
  -- From its own class on, the block looks at all classes of the name.
  have hown : ∀ (block : Block) (ref : ClassRef), block.ownClass? name = some ref →
      ref.state? label
        = block.lineage.findSome? fun other => (other.ownClass? name).bind (·.ownState? label) := by
    intro block ref href
    obtain ⟨rfl, rfl⟩ := of_ownClass? href
    rw [ClassRef.state?, ClassRef.namesakes, findSome?_filterMap]
  -- A block has the class itself, or the search goes on in its base, to which the induction
  -- applies.
  fun_induction lineage block with
  | case1 id name' identifier references root others =>
    rw [class?_eq]
    cases href : ownClass? _ name with
    | none => simp [ancestors, href]
    | some ref => simpa [lineage] using hown _ ref href
  | case2 id name' identifier references root others base ih =>
    rw [class?_eq]
    cases href : ownClass? _ name with
    | none => simpa [ancestors, href, class?] using ih
    | some ref => simpa [lineage] using hown _ ref href

/-- What is asked for is what the first block in the lineage has of its own. This is
the one equation that the theorems on inheritance start from. -/
theorem sought?_eq (h : block.root.name = rootName) :
    block.sought? sought = block.lineage.findSome? (·.ownSought? sought) := by
  rw [sought?_eq_bind h]
  unfold ownSought?
  -- Whether a class is asked for does not matter from here on.
  generalize sought.cls.getD rootName = name
  cases sought.state with
  | none =>
    have hmap : ∀ x : Option ClassRef, (x.bind fun ref => some (.cls ref)) = x.map Object.cls := by
      rintro (_ | _) <;> rfl
    simp only [hmap, class?, List.map_findSome?, Function.comp_def]
  | some label =>
    have hmap : ∀ (x : Option ClassRef) (f : ClassRef → Option StateRef),
        (x.bind fun ref => (f ref).map .state) = (x.bind f).map Object.state := by
      rintro (_ | _) f <;> rfl
    simp only [hmap, class?_bind_state?, List.map_findSome?, Function.comp_def]

/-- The lineage of an ancestor is the end of that of the block. A block has one base
at most, so the way from it on is the same for all. -/
theorem lineage_append (h : ancestor ∈ block.lineage) :
    ∃ nearer, block.lineage = nearer ++ ancestor.lineage := by
  fun_induction lineage block with
  | case1 =>
    cases List.mem_singleton.1 h
    exact ⟨[], rfl⟩
  | case2 id name identifier references root others base ih =>
    rcases List.mem_cons.1 h with rfl | h
    · exact ⟨[], rfl⟩
    · obtain ⟨nearer, hnearer⟩ := ih h
      exact ⟨_ :: nearer, congrArg (List.cons _) hnearer⟩

/-- A block finds what an ancestor finds, from the first block in its lineage that has
an object of this name. -/
theorem sought?_of_mem_lineage (hnamed : ∀ other ∈ block.lineage, other.WellNamed)
    (hancestor : ancestor ∈ block.lineage) (h : ancestor.sought? sought = some object) :
    ∃ inherited nearer further, block.sought? sought = some inherited
      ∧ inherited.fullName = object.fullName
      ∧ block.lineage = nearer ++ inherited.block :: further
      ∧ ∀ other ∈ nearer, inherited.fullName ∉ other.names := by
  obtain ⟨front, hfront⟩ := lineage_append hancestor
  rw [sought?_eq (hnamed ancestor hancestor).root] at h
  obtain ⟨source, -, hsource⟩ := List.exists_of_findSome?_eq_some h
  -- The search of the ancestor is the end of the search of the block.
  have hfound : ∃ inherited, block.lineage.findSome? (·.ownSought? sought) = some inherited := by
    rw [hfront, List.findSome?_append, h]
    cases front.findSome? (·.ownSought? sought) with
    | none => exact ⟨_, rfl⟩
    | some inherited => exact ⟨inherited, rfl⟩
  obtain ⟨inherited, hinherited⟩ := hfound
  obtain ⟨nearer, declaring, further, hlineage, hown, hnone⟩ :=
    List.findSome?_eq_some_iff.1 hinherited
  obtain ⟨rfl, hname⟩ := of_ownSought? hown
  refine ⟨inherited, nearer, further, ?_, hname.trans (of_ownSought? hsource).2.symm, hlineage, ?_⟩
  · rw [sought?_eq (hnamed block block.mem_lineage_self).root, hinherited]
  · intro other hother hin
    have hwellNamed := hnamed other (hlineage ▸ List.mem_append_left _ hother)
    rw [hname, ← isSome_ownSought?_iff hwellNamed, hnone other hother] at hin
    cases hin

end Block

/-! ### Objects that are called the same -/

/-- The root is the class of its name, as names are unique within a block. The root is
told by its place in the block, while a search goes by names. -/
theorem ClassRef.isRoot_iff {ref : ClassRef} (h : ref.block.WellNamed) :
    ref.isRoot ↔ ref.name = rootName := by
  constructor
  · intro hroot
    rw [eq_rootRef hroot]
    exact h.root
  · intro hname
    have hown : ref.block.ownClass? rootName = some ref :=
      hname ▸ Block.ownClass?_name h ref.index
    rw [Block.ownClass?_rootName h.root] at hown
    rw [← Option.some.inj hown]
    rfl

namespace Object

variable {object other : Object}

/-- Two objects are of one kind and called the same, on classes of one name. They may
belong to different blocks. -/
structure Namesake (object other : Object) : Prop where
  kind : object.state?.isSome = other.state?.isSome
  name : object.name = other.name
  group : object.state?.map (·.label.group) = other.state?.map (·.label.group)
  owner : object.owner.name = other.owner.name

/-- Objects are namesakes if and only if their names are the same, where the name of a
state includes that of its class and its group. -/
theorem namesake_iff : object.Namesake other ↔ object.fullName = other.fullName := by
  constructor
  · rintro ⟨hkind, hname, hgroup, howner⟩
    rcases object with ref | ref <;> rcases other with ref' | ref'
    · exact congrArg (ObjectName.mk · none) howner
    · cases hkind
    · cases hkind
    · have hlabel : ref.label = ref'.label :=
        congrArg₂ StateName.mk (Option.some.inj hgroup) hname
      exact congrArg₂ ObjectName.mk howner (congrArg some hlabel)
  · intro h
    rcases object with ref | ref <;> rcases other with ref' | ref' <;>
      simp only [fullName, ObjectName.mk.injEq, Option.some.injEq, reduceCtorEq, and_false] at h
    · exact ⟨rfl, h.1, rfl, h.1⟩
    · have hgroup : some ref.label.group = some ref'.label.group := by rw [h.2]
      exact ⟨rfl, congrArg StateName.name h.2, hgroup, h.1⟩

/-- Objects that are called the same are written the same. Whether a class is the root
shows in the selectors of its states, and by `isRoot_iff` this is a matter of its
name. -/
theorem Namesake.source (h : object.Namesake other) (hobject : object.block.WellNamed)
    (hother : other.block.WellNamed) : object.source = other.source := by
  rw [namesake_iff] at h
  rcases object with ref | ref <;> rcases other with ref' | ref' <;>
    simp only [fullName, ObjectName.mk.injEq, Option.some.injEq, reduceCtorEq, and_false] at h
  · exact congrArg ("." ++ ·) h.1
  · have hroot : ref.cls.isRoot = ref'.cls.isRoot := by
      have hroot : ref.cls.isRoot ↔ ref.cls.name = rootName := ClassRef.isRoot_iff hobject
      have hroot' : ref'.cls.isRoot ↔ ref'.cls.name = rootName := ClassRef.isRoot_iff hother
      rw [Bool.eq_iff_iff, hroot, hroot', h.1]
    simp only [Object.source, StateRef.source, ClassRef.source, hroot, h.1, h.2]

end Object

/-- A well-formed block has every name once, and its root is called so. Searches by
name need no more of a block than this. -/
theorem Block.WellFormed.wellNamed {block : Block} (h : block.WellFormed) : block.WellNamed :=
  ⟨h.root, nodup_names_iff.2 ⟨h.classes_once, h.states_once⟩⟩

/-! ### The blocks of a library -/

namespace Workshop

variable {config : Config} {workshop : Workshop} {block ancestor : Block}

/-- All blocks in the lineage of a registered block have every name once, since they
have been registered themselves. -/
theorem wellNamed_of_mem_lineage (h : Reachable config workshop)
    (hblock : block ∈ workshop.library.blocks) : ∀ other ∈ block.lineage, other.WellNamed := by
  intro other hother
  have hkept := kept_of_reachable h
  have hregistered := (hkept.lineage ((hkept.blocks block).1 hblock)).1 other hother
  obtain ⟨id, name, identifier, rules, hbuilt⟩ := hkept.built other hregistered
  exact (Block.wellFormed_of_ofRules hbuilt).wellNamed

/-- Inheritance loses no object: what an ancestor of a block finds by a selector, the
block finds by it too, from the first block in its lineage that declares such an
object. What is found may be declared by a nearer block than that of the ancestor, but
it is called and written the same. The proof follows the search along the lineage, of
which that of the ancestor is an end. -/
theorem inherits_objects (h : Reachable config workshop) (hblock : block ∈ workshop.library.blocks)
    (hancestor : ancestor ∈ block.lineage) {selector : List Char} {object : Object}
    (hfound : ancestor.findObject? selector = some object) :
    ∃ inherited nearer further, block.findObject? selector = some inherited
      ∧ inherited.Namesake object ∧ inherited.source = object.source
      ∧ block.lineage = nearer ++ inherited.block :: further
      ∧ ∀ other ∈ nearer, ∀ declared ∈ other.objects, ¬ declared.Namesake inherited := by
  have hwellNamed := wellNamed_of_mem_lineage h hblock
  obtain ⟨sought, hselector, hsought⟩ := Option.bind_eq_some_iff.1 hfound
  obtain ⟨inherited, nearer, further, hinherited, hname, hlineage, hnone⟩ :=
    Block.sought?_of_mem_lineage hwellNamed hancestor hsought
  have hsame : inherited.Namesake object := Object.namesake_iff.2 hname
  have hfound' : block.findObject? selector = some inherited :=
    Option.bind_eq_some_iff.2 ⟨sought, hselector, hinherited⟩
  -- What the ancestor inherits, the block inherits too, since lineages are nested.
  have hblocks : object.block ∈ block.lineage :=
    Block.mem_lineage_trans hancestor (Block.block_mem_of_findObject? hfound)
  refine ⟨inherited, nearer, further, hfound', hsame,
    hsame.source (hwellNamed _ (Block.block_mem_of_findObject? hfound')) (hwellNamed _ hblocks),
    hlineage, fun other hother declared hdeclared hnamesake => ?_⟩
  exact hnone other hother
    (Object.namesake_iff.1 hnamesake ▸ Block.fullName_mem_names hdeclared)

/-- A class of its base is declared again by the block in the middle, without the
state: the class is now found there, and the state is still found on that of the base.
A state is not lost by declaring its class without it. -/
theorem inherits_objects_redeclared :
    let config : Config := ⟨[], "/r", 32, []⟩
    let on : Selector.Attribute := ⟨some "state", "on", none⟩
    let item (simples : List Selector.Simple) : Rule :=
      ⟨[⟨[⟨.cls "item" :: simples, .none⟩]⟩], [], .unknown⟩
    let extending (localName : String) : Rule := ⟨[⟨[⟨[.cls "root"], .none⟩]⟩],
      [.declaration ⟨"extends", localName, false, .unknown⟩], .unknown⟩
    let toA : AtRule := ⟨"block-reference", "a from './a.css'", .unknown⟩
    let toB : AtRule := ⟨"block-reference", "b from './b.css'", .unknown⟩
    let first := (Library.empty.addSheet config ⟨[], [item [.attr on]]⟩ "/r/a.css" "a").1
    let second := (first.addSheet config ⟨[toA], [extending "a", item []]⟩ "/r/b.css" "b").1
    let third := (second.addSheet config ⟨[toB], [extending "b"]⟩ "/r/c.css" "c").1
    let declaring (block : Block) (selector : String) : Option Nat :=
      (block.findObject? selector.toList).map fun object => object.block.id
    ∃ registered block ancestor object inherited, Reachable config ⟨third, [], registered⟩
      ∧ block ∈ third.blocks ∧ ancestor ∈ block.lineage ∧ block.lineage.map Block.id = [3, 2, 1]
      ∧ ancestor.findObject? ".item".toList = some object ∧ object.block.id = 1
      ∧ block.findObject? ".item".toList = some inherited ∧ inherited.block.id = 2
      ∧ inherited.Namesake object ∧ declaring block ".item[state|on]" = some 1 := by
  intro config on item extending toA toB first second third declaring
  have hmade : first.Made config := Library.Made.empty.addSheet _ "/r/a.css" "a"
  obtain ⟨registered, hreachable⟩ :=
    (hmade.addSheet ⟨[toA], [extending "a", item []]⟩ "/r/b.css" "b").addSheet
      ⟨[toB], [extending "b"]⟩ "/r/c.css" "c"
  -- The ids of the blocks in which objects are found are computed; the objects come from
  -- there.
  have hrun : third.blocks.getLast?.map (fun block =>
      (block.lineage.map Block.id, block.lineage.getLast?.bind (declaring · ".item"),
        declaring block ".item", declaring block ".item[state|on]"))
      = some ([3, 2, 1], some 1, some 2, some 1) := by
    decide +kernel
  obtain ⟨block, hlast, hshown⟩ := Option.map_eq_some_iff.1 hrun
  simp only [Prod.mk.injEq] at hshown
  obtain ⟨hids, hancestor, hitem, hstate⟩ := hshown
  obtain ⟨ancestor, hend, hdeclaring⟩ := Option.bind_eq_some_iff.1 hancestor
  obtain ⟨object, hobject, hid⟩ := Option.map_eq_some_iff.1 hdeclaring
  have hblock := List.mem_of_getLast? hlast
  have hlineage := List.mem_of_getLast? hend
  obtain ⟨inherited, -, -, hfound, hsame, -⟩ :=
    inherits_objects hreachable hblock hlineage hobject
  obtain ⟨found, hsome, hid'⟩ := Option.map_eq_some_iff.1 hitem
  cases hfound.symm.trans hsome
  exact ⟨registered, block, ancestor, object, inherited, hreachable, hblock, hlineage, hids,
    hobject, hid, hfound, hid', hsame, hstate⟩

end Workshop

end BlockStyles
