import BlockStyles.Proofs.Stylesheet.Places
import BlockStyles.Proofs.Stylesheet.Visit
import BlockStyles.Proofs.Stylesheet.Written
import BlockStyles.Proofs.Text.Positions

/-!
# `BlockStyles.Proofs.Stylesheet.Order`: rules come in the order of the source

A rule is read where it starts, and what is nested in it and behind it is read from what is left
of the text then. So a forest that has been read is visited in the order of the source, and
flattening, which leaves out rules but does not move any, keeps this order.

* `Descends`: positions in the order of a text, between two of its places.
* `Rule.descends_of_read`, `descends_readItems`: rules and items are read in the order of the text.
* `Stylesheet.isShaped_of_readStatements`: what has been read is shaped as flattening needs it.
* `Stylesheet.flatten_keeps`: flattening loses nothing and keeps the order of the source.
-/

set_option autoImplicit false

namespace BlockStyles

open BlockStyles.Text
open BlockStyles.Selector (Chain nestAll)

/-! ### Positions in the order of a text -/

/-- The positions are those of ends of the text, each shorter than the one before it,
of which none is longer than `high` and all are longer than `low`. The bounds are what
lets such lists be put together, without a look at the positions in them. -/
def Descends (text : List Char) (high low : Nat) (positions : List Position) : Prop :=
  ∃ starts : List (List Char), positions = starts.map (Position.ofSuffix text)
    ∧ starts.Pairwise (fun start later => later.length < start.length)
    ∧ ∀ start ∈ starts, start <:+ text ∧ start.length ≤ high ∧ low < start.length

namespace Descends

variable {text : List Char} {high mid low : Nat} {positions others : List Position}

/-- No positions are in order, between any bounds. -/
theorem nil : Descends text high low [] :=
  ⟨[], rfl, .nil, nofun⟩

/-- Bounds may be widened. The positions stay the same. Parts of a text are known by
narrow bounds, and put together under wider ones. -/
theorem mono {high' low' : Nat} (h : Descends text high low positions) (hhigh : high ≤ high')
    (hlow : low' ≤ low) : Descends text high' low' positions := by
  obtain ⟨starts, rfl, hpairwise, hbounds⟩ := h
  refine ⟨starts, rfl, hpairwise, fun start hstart => ?_⟩
  obtain ⟨hsuffix, hle, hlt⟩ := hbounds start hstart
  exact ⟨hsuffix, hle.trans hhigh, Nat.lt_of_le_of_lt hlow hlt⟩

/-- Positions of a front part of the text and of what is behind it are in order
together. The bound in between separates them. -/
theorem append (h : Descends text high mid positions) (h' : Descends text mid low others)
    (hmid : mid ≤ high) (hlow : low ≤ mid) : Descends text high low (positions ++ others) := by
  obtain ⟨starts, rfl, hpairwise, hbounds⟩ := h
  obtain ⟨starts', rfl, hpairwise', hbounds'⟩ := h'
  refine ⟨starts ++ starts', List.map_append.symm, List.pairwise_append.2 ⟨hpairwise, hpairwise',
    fun start hstart later hlater => ?_⟩, List.forall_mem_append.2 ⟨?_, ?_⟩⟩
  · exact Nat.lt_of_le_of_lt (hbounds' later hlater).2.1 (hbounds start hstart).2.2
  · intro start hstart
    obtain ⟨hsuffix, hle, hlt⟩ := hbounds start hstart
    exact ⟨hsuffix, hle, Nat.lt_of_le_of_lt hlow hlt⟩
  · intro start hstart
    obtain ⟨hsuffix, hle, hlt⟩ := hbounds' start hstart
    exact ⟨hsuffix, hle.trans hmid, hlt⟩

/-- A single position is in order by itself. -/
theorem singleton {start : List Char} (hsuffix : start <:+ text) (hle : start.length ≤ high)
    (hlt : low < start.length) : Descends text high low [.ofSuffix text start] :=
  ⟨[start], rfl, List.pairwise_singleton _ _, List.forall_mem_singleton.2 ⟨hsuffix, hle, hlt⟩⟩

/-- Positions in the order of a text that is not too long are in the order of lines
and columns. The bound on the length is needed since lines and columns are counted in
words of 32 bits. -/
theorem pairwise_before (h : Descends text high low positions)
    (hlength : text.length + 1 < UInt32.size) : positions.Pairwise Position.Before := by
  obtain ⟨starts, rfl, hpairwise, hbounds⟩ := h
  refine List.pairwise_map.2 (hpairwise.imp_of_mem fun {start later} hstart hlater hlt => ?_)
  obtain ⟨front, hfront⟩ := (hbounds start hstart).1
  obtain ⟨front', hfront'⟩ := (hbounds later hlater).1
  -- The shorter end of the text has the other in front of it, and so more of the text.
  obtain ⟨more, rfl⟩ : ∃ more, front' = front ++ more := by
    have hprefix : front <+: front' := by
      refine List.prefix_of_prefix_length_le ⟨start, hfront⟩ ⟨later, hfront'⟩ ?_
      have hlengths := congrArg List.length (hfront.trans hfront'.symm)
      rw [List.length_append, List.length_append] at hlengths
      omega
    exact hprefix.imp fun _ => Eq.symm
  have hstart := Position.ofSuffix_append front start
  have hlater := Position.ofSuffix_append (front ++ more) later
  rw [hfront] at hstart
  rw [hfront'] at hlater
  rw [hstart, hlater]
  have hlengths := congrArg List.length (hfront.trans hfront'.symm)
  have htext := congrArg List.length hfront'
  simp only [List.length_append] at hlengths htext
  refine Position.before_of_append (fun hnil => ?_) (by rw [List.length_append]; omega)
  rw [hnil, List.length_nil] at hlengths
  omega

end Descends

/-! ### Reading in order -/

/-- The positions of rules that are visited, those included that are not written out. -/
def positionsOf (visits : List Visited) : List Position :=
  visits.map fun visited => visited.rule.position

/-- Items are visited one after the other, so the positions in the first of them come
first. -/
theorem positionsOf_visitItems_rule (outer : List Chain) (rule : Rule)
    (items : List (Item Rule)) :
    positionsOf (visitItems outer (.rule rule :: items))
      = positionsOf (rule.visitAs (nestAll outer rule.selectors))
        ++ positionsOf (visitItems outer items) := by
  obtain ⟨selectors, inner, position⟩ := rule
  exact List.map_append

variable {text left : List Char}

mutual

/-- The rules that are read with a rule come in the order of the text that is read for
it. The rule itself starts first; then come those in its body, up to the brace that
closes it. -/
theorem Rule.descends_of_read {left rest : List Char} {rule : Rule} (hleft : left <:+ text)
    (h : Rule.read text left = .ok (rule, rest)) (absolute : List Chain) :
    Descends text left.length rest.length (positionsOf (rule.visitAs absolute)) := by
  have hrest := (Rule.read_shorter h).2
  obtain ⟨selectors, afterSelectors, body, hlist, hopen, hclose, rfl⟩ := Rule.read_eq_ok_iff.1 h
  have hskip := skipBlanks_suffix left
  have hbody := Rule.body_shorter hlist hopen
  have hlength : body.length < (skipBlanks left).length := hbody.2
  have hlevel := hskip.length_le
  have hafter : rest.length ≤ (readItems text body).2.length := by
    have hle := (skipBlanks_suffix (readItems text body).2).length_le
    rw [hclose, List.length_cons] at hle
    omega
  have hitems := descends_readItems (hbody.1.trans (hskip.trans hleft)) absolute
  -- The rule starts in front of its body, and what is nested in it is read from there.
  have hself : Descends text left.length body.length [.ofSuffix text (skipBlanks left)] :=
    .singleton (hskip.trans hleft) hlevel hlength
  have hinner := (readItems_suffix text body).length_le
  exact hself.append (hitems.mono (Nat.le_refl _) hafter) (by omega) (by omega)
termination_by (left.length, 0)

/-- The rules among items come in the order of the text that is read for them. A
declaration has no rule in it, and only shortens the text. -/
theorem descends_readItems {left : List Char} (hleft : left <:+ text) (outer : List Chain) :
    Descends text left.length (readItems text left).2.length
      (positionsOf (visitItems outer (readItems text left).1)) := by
  cases hrule : Rule.read text left with
  -- A rule comes first, and what is behind it is read from a shorter text.
  | ok result =>
    obtain ⟨rule, rest⟩ := result
    have hshort := Rule.read_shorter hrule
    have hlength : rest.length < left.length := hshort.2
    have hfirst := Rule.descends_of_read hleft hrule (nestAll outer rule.selectors)
    have hothers := descends_readItems (hshort.1.trans hleft) outer
    rw [readItems_rule hrule, positionsOf_visitItems_rule]
    exact hfirst.append hothers (Nat.le_of_lt hlength) (readItems_suffix text rest).length_le
  | error stop =>
    cases hdeclaration : Declaration.read? text left with
    -- A declaration has no rule in it, so all rules are behind it.
    | some result =>
      obtain ⟨declaration, rest⟩ := result
      have hshort := Declaration.read?_shorter hdeclaration
      have hlength : rest.length < left.length := hshort.2
      have hothers := descends_readItems (hshort.1.trans hleft) outer
      rw [readItems_declaration hrule hdeclaration]
      exact hothers.mono (Nat.le_of_lt hlength) (Nat.le_refl _)
    | none =>
      rw [readItems_end hrule hdeclaration]
      exact .nil
termination_by (left.length, 1)

end

/-- All rules of what has been read have the shape of rules that have been read. They
have a selector, and each of their selectors ends at its key. -/
theorem Rule.IsReadFrom.isShaped {rule : Rule} (h : rule.IsReadFrom text)
    (absolute : List Chain) : ∀ visited ∈ rule.visitAs absolute, visited.rule.IsShaped := by
  induction h generalizing absolute with
  | @intro selectors items start rest _ _ hlist _ _ ih =>
    intro visited hvisited
    rcases Rule.mem_visitAs_iff.1 hvisited with rfl | ⟨inner, hinner, hin⟩
    · obtain ⟨hne, hselectors⟩ := Selector.wellFormed_of_readList hlist
      exact ⟨hne, fun selector hselector =>
        Chain.endsAtKey_of_wellFormed (hselectors selector hselector)⟩
    · obtain ⟨item, hitem, hrule⟩ := List.mem_filterMap.1 hinner
      cases item with
      | declaration declaration => cases hrule
      | rule rule =>
        cases hrule
        exact ih inner hitem _ visited hin

namespace Stylesheet

/-- The rules of a forest that has been read come in the order of the text. At-rules
among them only shorten the text, as declarations do among items. -/
theorem descends_of_readStatements {sheet : Stylesheet} (hleft : left <:+ text)
    (h : readStatements text left = .ok sheet) :
    Descends text left.length 0 (positionsOf sheet.visit) := by
  fun_induction readStatements text left generalizing sheet with
  | case1 =>
    cases h
    exact .nil
  | case2 => cases h
  -- At-rules are passed. The rules behind them lie between the same bounds, or closer ones.
  | case3 left body hstart atRule rest hread _ ih =>
    have hbody : '@' :: body <:+ left := hstart ▸ trimStart_suffix left
    have hrest : rest <:+ left :=
      (AtRule.read_shorter hread).1.trans ((List.suffix_cons _ _).trans hbody)
    obtain ⟨others, hothers, rfl⟩ := map_eq_ok.1 h
    exact (ih (hrest.trans hleft) hothers).mono hrest.length_le (Nat.le_refl 0)
  | case4 => cases h
  -- A rule starts behind the white space, and the others start where it ends.
  | case5 left rule rest _ _ hread _ ih =>
    have hstart := trimStart_suffix left
    have hshort := Rule.read_shorter hread
    obtain ⟨others, hothers, rfl⟩ := map_eq_ok.1 h
    have hfirst := Rule.descends_of_read (hstart.trans hleft) hread rule.selectors
    have hlater := ih (hshort.1.trans (hstart.trans hleft)) hothers
    have hvisit : positionsOf (visit { others with rules := rule :: others.rules })
        = positionsOf rule.visit ++ positionsOf others.visit := List.map_append
    have hlength := hstart.length_le
    rw [hvisit]
    exact (hfirst.mono hlength (Nat.le_refl _)).append hlater (by omega) (Nat.zero_le _)

/-- What has been read is shaped as flattening needs it, at every depth. The
hypothesis of the theorem about flattening is thereby true of all that is read from a
source. -/
theorem isShaped_of_readStatements {sheet : Stylesheet} (hleft : left <:+ text)
    (h : readStatements text left = .ok sheet) : sheet.IsShaped := by
  intro visited hvisited
  obtain ⟨rule, hrule, hin⟩ := mem_visit_iff.1 hvisited
  exact ((isReadFrom_readStatements hleft h).2 rule hrule).isShaped _ visited hin

/-- The rules that are written out are in the order of the visit. Some of the visited
rules are missing. -/
theorem positions_flatten_sublist (forest : Stylesheet) :
    (forest.flatten.rules.map Rule.position).Sublist (positionsOf forest.visit) := by
  rw [rules_flatten, List.map_map]
  exact List.filter_sublist.map _

/-- Flattening loses nothing of a forest of rules that is shaped as one that has been
read. A sheet is such a forest with every nested rule written out, and in a source
that is not too long its rules are in the order of lines and columns. A rule which
only frames others is not written out; what is kept of it is in the selectors of
these. -/
theorem flatten_keeps :
    (∀ forest : Stylesheet, forest.IsShaped → forest.KeptBy forest.flatten.rules)
      ∧ ∀ (source : String) (sheet : Stylesheet), ofSource source = .ok sheet →
        (∃ forest : Stylesheet, forest.IsShaped ∧ forest.flatten = sheet)
          ∧ (source.utf8ByteSize < 2 ^ 32 - 1 →
            (sheet.rules.map Rule.position).Pairwise Position.Before) := by
  refine ⟨fun forest => keptBy_flatten, fun source sheet hsheet => ?_⟩
  obtain ⟨forest, hforest, rfl⟩ := map_eq_ok.1 hsheet
  refine ⟨⟨forest, isShaped_of_readStatements List.suffix_rfl hforest, rfl⟩, fun hlength => ?_⟩
  have hdescends := descends_of_readStatements List.suffix_rfl hforest
  have hsize : (blankComments source.toList).length + 1 < UInt32.size := by
    have hle := length_blankComments_le source
    have hwidth : UInt32.size = 2 ^ 32 := rfl
    omega
  exact (hdescends.pairwise_before hsize).sublist (positions_flatten_sublist forest)

/-- A rule that only frames two others is left out: one of them goes on with its
selector, the other is inside. The positions are those of the inner rules, so they are
still in order. -/
theorem flatten_keeps_framed :
    let source := ".a\x7b&.b\x7b\x7d.c\x7b\x7d\x7d"
    ∃ forest sheet : Stylesheet, forest.flatten = sheet ∧ ofSource source = .ok sheet
      ∧ forest.visit.length = 3
      ∧ sheet.rules.map (fun rule => (Selector.listText rule.selectors, rule.position))
        = [(".a.b", ⟨1, 4⟩), (".a .c", ⟨1, 9⟩)]
      ∧ forest.KeptBy sheet.rules ∧ (sheet.rules.map Rule.position).Pairwise Position.Before := by
  intro source
  let second := '.' :: "c\x7b\x7d\x7d".toList
  let body := '&' :: (".b\x7b\x7d".toList ++ second)
  let text := '.' :: ("a\x7b".toList ++ body)
  let first : Rule := ⟨[⟨[⟨[.parent, .cls "b"], .none⟩]⟩], [], ⟨1, 4⟩⟩
  let other : Rule := ⟨[⟨[⟨[.cls "c"], .none⟩]⟩], [], ⟨1, 9⟩⟩
  let outer : Rule := ⟨[⟨[⟨[.cls "a"], .none⟩]⟩], [.rule first, .rule other], ⟨1, 1⟩⟩
  -- The two inner rules, each without items,
  have hfirst : Rule.read text body = .ok (first, second) := by
    have hlist : Selector.readList (skipBlanks body)
        = .ok (first.selectors, '\x7b' :: '\x7d' :: second) := by decide +kernel
    have hposition : Position.ofSuffix text (skipBlanks body) = ⟨1, 4⟩ := by decide +kernel
    rw [Rule.read_close hlist rfl rfl, hposition]
  have hother : Rule.read text second = .ok (other, ['\x7d']) := by
    have hlist : Selector.readList (skipBlanks second)
        = .ok (other.selectors, ['\x7b', '\x7d', '\x7d']) := by decide +kernel
    have hposition : Position.ofSuffix text (skipBlanks second) = ⟨1, 9⟩ := by decide +kernel
    rw [Rule.read_close hlist rfl rfl, hposition]
  -- then the rule around them, and the text as one statement.
  have houter : Rule.read text text = .ok (outer, []) := by
    have hitems : readItems text body = ([.rule first, .rule other], ['\x7d']) := by
      rw [readItems_rule hfirst, readItems_rule hother, readItems_close rfl]
    refine Rule.read_eq_ok_iff.2 ⟨outer.selectors, '\x7b' :: body, body, by decide +kernel, rfl,
      ?_, ?_⟩
    · rw [hitems]
      rfl
    · have hposition : Position.ofSuffix text (skipBlanks text) = ⟨1, 1⟩ := by decide +kernel
      rw [hitems, hposition]
  have hstatements : readStatements text text = .ok ⟨[], [outer]⟩ := by
    rw [readStatements_rule rfl (by decide) houter, readStatements_end rfl]
    rfl
  have hplain : blankComments source.toList = text := by decide +kernel
  have hsheet : ofSource source = .ok (flatten ⟨[], [outer]⟩) := by
    rw [ofSource, hplain, hstatements]
    rfl
  have hshaped : IsShaped ⟨[], [outer]⟩ := isShaped_of_readStatements List.suffix_rfl hstatements
  exact ⟨_, _, rfl, hsheet, rfl, by decide +kernel, flatten_keeps.1 _ hshaped,
    (flatten_keeps.2 source _ hsheet).2 (by decide)⟩

end Stylesheet

end BlockStyles
