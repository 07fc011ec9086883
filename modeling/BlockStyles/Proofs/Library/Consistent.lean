import BlockStyles.Proofs.Block.Find
import BlockStyles.Proofs.Library.Sheets

/-!
# `BlockStyles.Proofs.Library.Consistent`: a library is closed and has no circles

An identifier can be given to a new block while blocks that refer to the old one are still
there, a block gets its id before those it refers to, and what has been loaded for a block that
fails stays. In spite of this the blocks of a library hang together: identifiers stand for
the blocks that were registered last, nothing refers to a block that is not there, and references
never lead in a circle. The reason is that a block refers to blocks that were registered before it.

* `Library.Consistent`: how the blocks of a library hang together.
* `Workshop.consistent`: it is so whatever has been done, at any time.
-/

set_option autoImplicit false

namespace BlockStyles

open Relation (ReflTransGen TransGen)

namespace Library

/-- The block of one id refers to that of another. Ids are what blocks are told apart
by in a library, where several blocks can have one identifier. -/
def RefersTo (library : Library) (id target : Nat) : Prop :=
  ∃ block ∈ library.blocks, block.id = id ∧ ∃ reference ∈ block.references, reference.2.id = target

/-- The blocks of a library hang together, where they have been registered in the
order of the list. The list is the history, and the library has to agree with it. -/
structure Consistent (library : Library) (registered : List Block) : Prop where
  registered_iff : ∀ block, block ∈ library.blocks ↔ block ∈ registered
  /-- An identifier is bound to a block that has it and that is there under its id. -/
  bound : ∀ entry ∈ library.bound.toList,
    entry.2.identifier = entry.1 ∧ library.block? entry.2.id = some entry.2
  /-- The identifier of a block is bound to the last block of this identifier. -/
  last : ∀ block ∈ library.blocks, ∃ before latest after,
    registered = before ++ latest :: after ∧ latest.identifier = block.identifier
      ∧ (∀ later ∈ after, later.identifier ≠ block.identifier)
      ∧ library.blockFor? block.identifier = some latest
  /-- What a block refers to is there under its id. -/
  references : ∀ block ∈ library.blocks, ∀ reference ∈ block.references,
    library.block? reference.2.id = some reference.2
  base : ∀ block ∈ library.blocks, ∀ base, block.base = some base →
    library.block? base.id = some base
  acyclic : ∀ id, ¬ TransGen library.RefersTo id id
  /-- The lineage of a block has no id twice, -/
  lineage_once : ∀ block ∈ library.blocks, (block.lineage.map Block.id).Nodup
  /-- and all of it is there. -/
  lineage_mem : ∀ block ∈ library.blocks, ∀ ancestor ∈ block.lineage,
    library.block? ancestor.id = some ancestor
  inherits_refl : ∀ block ∈ library.blocks, block.inherits block
  inherits_antisymm : ∀ block ∈ library.blocks, ∀ other ∈ library.blocks,
    block.inherits other → other.inherits block → block = other
  inherits_trans : ∀ first ∈ library.blocks, ∀ second ∈ library.blocks, ∀ third ∈ library.blocks,
    first.inherits second → second.inherits third → first.inherits third

end Library

namespace Workshop

/-- The place of a block in the log, by its id. References lead to lower places, and
from this follows all that is said about circles and lineages. -/
def rank (workshop : Workshop) (id : Nat) : Nat :=
  (workshop.registered.map Block.id).idxOf id

/-- The last block of an identifier, and what comes behind it in the log. The search
goes through the log from its end, so both sides are reversed. -/
theorem lastOf?_eq_some_iff {registered : List Block} {identifier : String} {latest : Block} :
    lastOf? registered identifier = some latest ↔ latest.identifier = identifier
      ∧ ∃ before after, registered = before ++ latest :: after
        ∧ ∀ later ∈ after, later.identifier ≠ identifier := by
  rw [lastOf?, List.find?_eq_some_iff_append, beq_iff_eq]
  refine and_congr_right fun _ => ?_
  constructor
  · rintro ⟨after, before, hlog, hlater⟩
    refine ⟨before.reverse, after.reverse, ?_, ?_⟩
    · simpa using congrArg List.reverse hlog
    · simpa using hlater
  · rintro ⟨before, after, rfl, hlater⟩
    exact ⟨after.reverse, before.reverse, by simp, by simpa using hlater⟩

/-- Every identifier in the log has a last block. It need not be the block that is
given. -/
theorem exists_lastOf? {registered : List Block} {block : Block} (h : block ∈ registered) :
    ∃ latest, lastOf? registered block.identifier = some latest := by
  rw [← Option.isSome_iff_exists, lastOf?, List.find?_isSome]
  exact ⟨block, List.mem_reverse.2 h, beq_self_eq_true _⟩

namespace Kept

variable {workshop : Workshop} {block other : Block}

/-- A registered block is there under its id. Blocks that a library has lost its
bindings to can still be had in this way. -/
theorem block?_of_registered (h : workshop.Kept) (hblock : block ∈ workshop.registered) :
    workshop.library.block? block.id = some block :=
  Library.block?_eq_some_iff.2 ⟨(h.blocks block).2 hblock, rfl⟩

/-- A block refers to registered blocks, which have a lower place in the log. No id is
twice in the log, so the place of a block is where the log is split at it. -/
theorem reference (h : workshop.Kept) (hblock : block ∈ workshop.registered)
    {reference : String × Block} (hreference : reference ∈ block.references) :
    reference.2 ∈ workshop.registered ∧ workshop.rank reference.2.id < workshop.rank block.id := by
  refine ⟨h.reference_mem hblock hreference, ?_⟩
  obtain ⟨before, after, hlog⟩ := List.append_of_mem hblock
  have hin := h.earlier before block after hlog reference hreference
  have hids : workshop.registered.map Block.id
      = before.map Block.id ++ block.id :: after.map Block.id := by simp [hlog]
  -- Ids are not repeated in the log, so the place of the id is that of the block.
  have hnew : block.id ∉ before.map Block.id := by
    have hnodup := h.ids_nodup
    rw [hids] at hnodup
    exact fun hold => List.disjoint_of_nodup_append hnodup hold List.mem_cons_self
  have hplace : workshop.rank block.id = before.length := by
    rw [rank, hids, List.idxOf_append_of_notMem hnew]
    simp
  -- What the block refers to stands in front of it, by what is known of the log.
  have hlower : workshop.rank reference.2.id < before.length := by
    have hold : reference.2.id ∈ before.map Block.id := List.mem_map_of_mem hin
    rw [rank, hids, List.idxOf_append_of_mem hold]
    simpa using List.idxOf_lt_length_iff.2 hold
  exact hplace ▸ hlower

/-- A base is a reference. So all that is known about references is known about bases.
The well-formedness of what rules make gives this, for sheets and for files. -/
theorem base (h : workshop.Kept) (hblock : block ∈ workshop.registered) {base : Block}
    (hbase : block.base = some base) :
    base ∈ workshop.registered ∧ workshop.rank base.id < workshop.rank block.id := by
  obtain ⟨id, name, identifier, rules, hbuilt⟩ := h.built block hblock
  obtain ⟨localName, hin⟩ := (Block.wellFormed_of_ofRules hbuilt).base base hbase
  exact h.reference hblock hin

/-- Along a lineage, which does not leave the log, the places go down. The induction
is the one of lineages, from a block to its base. -/
theorem lineage (h : workshop.Kept) (hblock : block ∈ workshop.registered) :
    (∀ ancestor ∈ block.lineage, ancestor ∈ workshop.registered)
      ∧ block.lineage.Pairwise fun a b => workshop.rank b.id < workshop.rank a.id := by
  fun_induction Block.lineage block with
  | case1 =>
    refine ⟨fun ancestor hin => ?_, List.pairwise_singleton _ _⟩
    cases List.mem_singleton.1 hin
    exact hblock
  | case2 id name identifier base references root others ih =>
    obtain ⟨hbase, hlower⟩ := h.base hblock rfl
    obtain ⟨hregistered, hdown⟩ := ih hbase
    refine ⟨List.forall_mem_cons.2 ⟨hblock, hregistered⟩, List.pairwise_cons.2 ⟨?_, hdown⟩⟩
    intro ancestor hin
    obtain ⟨ancestors, hlineage⟩ := base.lineage_eq_cons
    rw [hlineage] at hin hdown
    -- The base is lower, and what it extends is lower still.
    rcases List.mem_cons.1 hin with rfl | hin
    · exact hlower
    · exact Nat.lt_trans ((List.pairwise_cons.1 hdown).1 ancestor hin) hlower

/-- No block is twice in a lineage, since the places of its blocks go down. So in a
lineage an id stands for one block. -/
theorem lineage_ids_nodup (h : workshop.Kept) (hblock : block ∈ workshop.registered) :
    (block.lineage.map Block.id).Nodup := by
  refine List.pairwise_map.2 ((h.lineage hblock).2.imp fun hlower hsame => ?_)
  rw [hsame] at hlower
  exact Nat.lt_irrefl _ hlower

/-- A block inherits from a registered one if that is in its lineage. The library
compares ids, and among registered blocks these stand for the blocks. -/
theorem inherits_iff (h : workshop.Kept) (hblock : block ∈ workshop.registered)
    (hother : other ∈ workshop.registered) : block.inherits other ↔ other ∈ block.lineage := by
  simp only [Block.inherits, List.any_eq_true, beq_iff_eq]
  constructor
  · rintro ⟨ancestor, hin, hid⟩
    rwa [h.eq_of_id ((h.lineage hblock).1 ancestor hin) hother hid] at hin
  · intro hin
    exact ⟨other, hin, rfl⟩

/-- References lead to lower places, however far. A circle would lead to a place below
itself. -/
theorem rank_lt_of_transGen (h : workshop.Kept) {id target : Nat}
    (hpath : TransGen workshop.library.RefersTo id target) :
    workshop.rank target < workshop.rank id := by
  have hedge : ∀ {id target}, workshop.library.RefersTo id target →
      workshop.rank target < workshop.rank id := by
    rintro _ _ ⟨block, hblock, rfl, reference, hreference, rfl⟩
    exact (h.reference ((h.blocks block).1 hblock) hreference).2
  induction hpath with
  | single hlast => exact hedge hlast
  | tail _ hlast ih => exact Nat.lt_trans (hedge hlast) ih

/-- In the lineage of a block only the block itself is not lower. This gives that two
blocks that inherit from each other are the same. -/
theorem eq_or_rank_lt (h : workshop.Kept) (hblock : block ∈ workshop.registered)
    (hin : other ∈ block.lineage) :
    other = block ∨ workshop.rank other.id < workshop.rank block.id := by
  obtain ⟨ancestors, hlineage⟩ := block.lineage_eq_cons
  have hdown := (h.lineage hblock).2
  rw [hlineage] at hin hdown
  rcases List.mem_cons.1 hin with rfl | hin
  · exact .inl rfl
  · exact .inr ((List.pairwise_cons.1 hdown).1 other hin)

end Kept

/-- Whatever has been done in a workshop, its library is consistent. Each part is read
off `Kept`, which every step has been shown to keep, and the places in the log. What
refers goes to a lower place, so nothing can come back to itself. -/
theorem consistent {config : Config} {workshop : Workshop} (h : Reachable config workshop) :
    workshop.library.Consistent workshop.registered := by
  have hkept := kept_of_reachable h
  have hmem := hkept.blocks
  constructor
  case registered_iff => exact hmem
  -- The entry of an identifier is the last block of it, which is in the log.
  case bound =>
    intro entry hentry
    have hfound : workshop.library.blockFor? entry.1 = some entry.2 :=
      Option.map_eq_some_iff.2 ⟨entry, SortedList.find?_eq_some_iff.2 ⟨hentry, rfl⟩, rfl⟩
    rw [hkept.bound] at hfound
    obtain ⟨hregistered, hidentifier⟩ := mem_of_lastOf? hfound
    exact ⟨hidentifier, hkept.block?_of_registered hregistered⟩
  case last =>
    intro block hblock
    obtain ⟨latest, hlatest⟩ := exists_lastOf? ((hmem block).1 hblock)
    obtain ⟨hidentifier, before, after, hlog, hlater⟩ := lastOf?_eq_some_iff.1 hlatest
    exact ⟨before, latest, after, hlog, hidentifier, hlater, (hkept.bound _).trans hlatest⟩
  case references =>
    intro block hblock reference hreference
    exact hkept.block?_of_registered (hkept.reference ((hmem block).1 hblock) hreference).1
  case base =>
    intro block hblock base hbase
    exact hkept.block?_of_registered (hkept.base ((hmem block).1 hblock) hbase).1
  case acyclic =>
    intro id hcircle
    exact Nat.lt_irrefl _ (hkept.rank_lt_of_transGen hcircle)
  case lineage_once =>
    exact fun block hblock => hkept.lineage_ids_nodup ((hmem block).1 hblock)
  case lineage_mem =>
    intro block hblock ancestor hin
    exact hkept.block?_of_registered ((hkept.lineage ((hmem block).1 hblock)).1 ancestor hin)
  case inherits_refl =>
    intro block hblock
    have hregistered := (hmem block).1 hblock
    rw [hkept.inherits_iff hregistered hregistered]
    exact block.mem_lineage_self
  case inherits_antisymm =>
    intro block hblock other hother hinherits hinherits'
    rw [hmem] at hblock hother
    rw [hkept.inherits_iff hblock hother] at hinherits
    rw [hkept.inherits_iff hother hblock] at hinherits'
    rcases hkept.eq_or_rank_lt hblock hinherits with heq | hlower
    · exact heq.symm
    -- Both cannot be lower than the other.
    · rcases hkept.eq_or_rank_lt hother hinherits' with heq | hlower'
      · exact heq
      · exact absurd hlower' (Nat.lt_asymm hlower)
  case inherits_trans =>
    intro first hfirst second hsecond third hthird hinherits hinherits'
    rw [hmem] at hfirst hsecond hthird
    rw [hkept.inherits_iff hfirst hsecond] at hinherits
    rw [hkept.inherits_iff hsecond hthird] at hinherits'
    rw [hkept.inherits_iff hfirst hthird]
    exact Block.mem_lineage_trans hinherits hinherits'

/-- A block extends one that extends the block that had its identifier before. The
identifiers go round in a circle, and the blocks do not. Each block keeps the blocks
that it was built with, whatever becomes of their identifiers. -/
theorem consistent_rebound :
    let config : Config := ⟨[], "/r", 32, []⟩
    let extending (localName : String) : Rule := ⟨[⟨[⟨[.cls "root"], .none⟩]⟩],
      [.declaration ⟨"extends", localName, false, .unknown⟩], .unknown⟩
    let toA : AtRule := ⟨"block-reference", "a from './a.css'", .unknown⟩
    let toB : AtRule := ⟨"block-reference", "b from './b.css'", .unknown⟩
    let first := (Library.empty.addSheet config ⟨[], []⟩ "/r/a.css" "a").1
    let second := (first.addSheet config ⟨[toA], [extending "a"]⟩ "/r/b.css" "b").1
    let third := (second.addSheet config ⟨[toB], [extending "b"]⟩ "/r/a.css" "a").1
    ∃ registered, Reachable config ⟨third, [], registered⟩
      ∧ third.blocks.map (fun block => (block.identifier, block.lineage.map Block.id))
        = [("/r/a.css", [1]), ("/r/b.css", [2, 1]), ("/r/a.css", [3, 2, 1])]
      ∧ third.Consistent registered := by
  intro config extending toA toB first second third
  have hmade : first.Made config := Library.Made.empty.addSheet ⟨[], []⟩ "/r/a.css" "a"
  obtain ⟨registered, hreachable⟩ :=
    (hmade.addSheet ⟨[toA], [extending "a"]⟩ "/r/b.css" "b").addSheet
      ⟨[toB], [extending "b"]⟩ "/r/a.css" "a"
  refine ⟨registered, hreachable, ?_, consistent hreachable⟩
  let a : Block := .bare 1 "a" "/r/a.css" []
  let b : Block := { Block.bare 2 "b" "/r/b.css" [("a", a)] with base := some a }
  let a' : Block := { Block.bare 3 "a" "/r/a.css" [("b", b)] with base := some b }
  have hA : Path.resolve (some "/r/b.css") "./a.css" config.root = "/r/a.css" := by decide +kernel
  have hB : Path.resolve (some "/r/a.css") "./b.css" config.root = "/r/b.css" := by decide +kernel
  -- Each library is the one before it with one block registered, as its references are
  -- bound.
  have hfirst : first = { Library.empty with nextId := 2 }.register a :=
    congrArg Prod.fst ((Library.addSheet_nil ..).trans (Library.conclude_of_built rfl))
  have hsecond : second = { first with nextId := 3 }.register b := by
    have hbound : first.blockFor? "/r/a.css" = some a := by
      rw [hfirst]
      exact Library.blockFor?_register_self _ a
    have hbinds : first.BindsReference config "/r/b.css" toA ⟨"a", "./a.css"⟩ a :=
      ⟨rfl, by decide +kernel, by rw [hA]; decide, by rwa [hA]⟩
    have hbuilt : Block.ofRules 2 "b" "/r/b.css" [("a", a)] [extending "a"] = .ok b := rfl
    have hnextId : first.nextId = 2 := congrArg Library.nextId hfirst
    rw [← hnextId] at hbuilt
    refine (Library.addSheet_fst_of_binds hbinds (by decide) hbuilt).trans ?_
    rw [hnextId]
  have hthird : third = { second with nextId := 4 }.register a' := by
    have hbound : second.blockFor? "/r/b.css" = some b := by
      rw [hsecond]
      exact Library.blockFor?_register_self _ b
    have hbinds : second.BindsReference config "/r/a.css" toB ⟨"b", "./b.css"⟩ b :=
      ⟨rfl, by decide +kernel, by rw [hB]; decide, by rwa [hB]⟩
    have hbuilt : Block.ofRules 3 "a" "/r/a.css" [("b", b)] [extending "b"] = .ok a' := rfl
    have hnextId : second.nextId = 3 := congrArg Library.nextId hsecond
    rw [← hnextId] at hbuilt
    refine (Library.addSheet_fst_of_binds hbinds (by decide) hbuilt).trans ?_
    rw [hnextId]
  rw [hthird, hsecond, hfirst]
  rfl

end Workshop

end BlockStyles
