import BlockStyles.Proofs.Selector.Outlook
import BlockStyles.Proofs.Stylesheet.Places
import BlockStyles.Proofs.Stylesheet.Written
import BlockStyles.Proofs.Text.Positions

/-!
# `BlockStyles.Proofs.Stylesheet.Viable`: errors come right behind what could go on

An item may be tried as a rule and read as a declaration, and items may end where one of them
cannot be read, so the place that a syntax error reports is not where the last attempt has
failed. It is a good place nevertheless: what stands in front of it can be completed to a
stylesheet. For a front part of a source either holds, that it can be completed or that reading
stops inside of it, whatever follows; and where reading stops at its end, it does not stop
inside.

* `Declaration.outlook`, `Rule.outlook`, `AtRule.outlook`: the cases of `Outlook` for statements
  and items.
* `outlook_readItems`: the cases for items, which are never refused; the error comes when the brace
  behind them is missing.
* `Stylesheet.viable_or_stops`: the two cases for the front of a source.
* `Stylesheet.exists_viable`: there is a place of the error whose front can be completed.
* `Stylesheet.ofSource_viable`: what stands in front of a syntax error can be completed.
-/

set_option autoImplicit false

namespace BlockStyles

open BlockStyles.Text
open BlockStyles.Selector (readList)

/-- Anything may stand behind what ends with a mark of its own. This is the condition
on what follows a semicolon or a closing brace. -/
def Anything (_ : List Char) : Prop := True

/-! ### Declarations -/

namespace Declaration

/-- A colon stands behind the property, and a value that is more than a mark of
importance. It leaves what is behind the value, without the semicolon. -/
def HasValue (text rest : List Char) : Prop :=
  ∃ afterColon raw left, skipBlanks text = ':' :: afterColon
    ∧ RawValue.read (skipBlanks afterColon) = .ok (raw, left)
    ∧ (splitImportant (trim raw)).1 ≠ [] ∧ behindValue left = rest

variable {source text afterName rest front : List Char} {name : String}

/-- A property with a value behind it is a declaration. What the value is does not
matter here, only that there is one and where it ends. -/
theorem exists_read?_of_hasValue (hname : Identifier.read (skipBlanks text) = .ok (name, afterName))
    (h : HasValue afterName rest) :
    ∃ declaration, read? source text = some (declaration, rest) := by
  obtain ⟨afterColon, raw, left, hcolon, hraw, hvalue, rfl⟩ := h
  exact ⟨_, read?_eq_some_iff.2
    ⟨name, afterName, afterColon, raw, left, hname, hcolon, hraw, hvalue, rfl, rfl⟩⟩

/-- There is no declaration if no value stands behind the property, or no property at
all. -/
theorem read?_eq_none (h : ∀ name afterName, Identifier.read (skipBlanks text)
      = .ok (name, afterName) → ∀ rest, ¬ HasValue afterName rest) :
    read? source text = none := by
  cases hread : read? source text with
  | none => rfl
  | some result =>
    obtain ⟨name, afterName, afterColon, raw, left, hname, hcolon, hraw, hvalue, -, hrest⟩ :=
      read?_eq_some_iff.1 hread
    exact absurd ⟨afterColon, raw, left, hcolon, hraw, hvalue, hrest.symm⟩
      (h name afterName hname _)

/-- A value that ends with a letter is more than a mark of importance. The mark ends
with another letter, so it is not found, and nothing is trimmed off the end. -/
theorem splitImportant_letter (value : List Char) :
    (splitImportant (trim (value ++ ['x']))).1 ≠ [] := by
  have hstart : trimStart (value ++ ['x']) = trimStart value ++ ['x'] := by
    rw [trimStart, List.dropWhile_append]
    split
    · rename_i hempty
      rw [trimStart, List.isEmpty_iff.1 hempty]
      rfl
    · rfl
  have htrim : trim (value ++ ['x']) = trimStart value ++ ['x'] := by
    rw [trim, hstart]
    refine trimEnd_eq_self fun c hc => ?_
    rw [List.getLast?_concat] at hc
    cases hc
    decide
  -- The mark ends with a `t`, the value with the letter that was added.
  have hmark : importantMark.isSuffixOf (trimStart value ++ ['x']) = false := by
    rw [Bool.eq_false_iff]
    intro hsuffix
    obtain ⟨before, heq⟩ := List.isSuffixOf_iff_suffix.1 hsuffix
    have hlast := congrArg List.getLast? heq
    rw [List.getLast?_concat, List.getLast?_append] at hlast
    cases hlast
  simp [splitImportant, htrim, hmark]

/-- A value that is finished with a letter and a semicolon is one. This is how what
has only begun to be a value is completed. -/
theorem hasValue_letter {text afterColon : List Char} (value behind : List Char)
    (hcolon : skipBlanks text = ':' :: afterColon)
    (hraw : RawValue.read (skipBlanks afterColon) = .ok (value ++ ['x'], ';' :: behind)) :
    HasValue text behind :=
  ⟨_, _, _, hcolon, hraw, splitImportant_letter value, rfl⟩

/-- A letter by itself is a value, up to the semicolon behind it. -/
theorem read_letter (behind : List Char) :
    RawValue.read ('x' :: ';' :: behind) = .ok ([] ++ ['x'], ';' :: behind) := rfl

/-- What is behind a property: a colon and a value. Either may still be missing at the end
of the front, and both can be added then. Otherwise the colon is there or not, and
the value is as far as it can be told. -/
theorem outlook_hasValue (front : List Char) :
    Outlook HasValue (fun text _ => ∀ rest, ¬ HasValue text rest) Anything front := by
  cases hskip : skipBlanks front with
  | nil =>
    exact .unfinished [':', 'x', ';'] (by decide) fun behind _ =>
      hasValue_letter [] behind (skipBlanks_append_of_nil hskip _) (read_letter behind)
  | cons c after =>
    have hmore : ∀ more, skipBlanks (front ++ more) = c :: (after ++ more) :=
      skipBlanks_append_of_cons hskip
    have hfront : front ≠ [] := by
      rintro rfl
      cases hskip
    by_cases hc : c = ':'
    · subst hc
      cases hafter : skipBlanks after with
      | nil =>
        refine .unfinished ['x', ';'] (by decide) fun behind _ =>
          hasValue_letter [] behind (hmore _) ?_
        rw [skipBlanks_append_of_nil hafter]
        exact read_letter behind
      | cons d value =>
        have hvalue : ∀ more, skipBlanks (after ++ more) = d :: value ++ more :=
          skipBlanks_append_of_cons hafter
        rcases RawValue.outlook (d :: value) with ⟨raw, mark, rest, hmark, hread⟩ | ⟨-, hread⟩
          | ⟨closing, hplain, hread⟩
        -- The value is there, but it may be nothing but a mark of importance.
        · by_cases hraw : (splitImportant (trim raw)).1 = []
          · refine .refused front hfront ?_
            rintro more rest ⟨_, _, _, hcolon, hok, hne, -⟩
            rw [hmore] at hcolon
            cases hcolon
            rw [hvalue, hread] at hok
            cases hok
            exact hne hraw
          · refine .taken (if mark = ';' then rest else mark :: rest) fun more =>
              ⟨_, raw, _, hmore more, (hvalue more).symm ▸ hread more, hraw, ?_⟩
            rw [behindValue_cons hmark]
            split <;> rfl
        · refine .refused front hfront ?_
          rintro more rest ⟨_, _, _, hcolon, hok, -⟩
          rw [hmore] at hcolon
          cases hcolon
          rw [hvalue, hread] at hok
          cases hok
        · refine .unfinished (closing ++ ['x', ';']) (by simpa using hplain) fun behind _ => ?_
          refine hasValue_letter (d :: value ++ closing) behind (hmore _) ?_
          rw [hvalue, List.append_assoc, List.append_assoc]
          exact hread behind
    · refine .refused front hfront ?_
      rintro more rest ⟨_, _, _, hcolon, -⟩
      rw [hmore] at hcolon
      exact hc (List.cons.inj hcolon).1

/-- A declaration is read, whatever the source is. The source only decides about
positions, and in completing a text it changes. -/
def IsRead (text rest : List Char) : Prop :=
  ∀ source, ∃ declaration, read? source text = some (declaration, rest)

/-- There is no declaration, whatever the source is. -/
def IsMissing (text _left : List Char) : Prop :=
  ∀ source, read? source text = none

/-- An identifier that has not begun can be a letter. This is how a front that ends where
a name is expected is completed. -/
theorem takes_letter {behind : List Char} (h : EndsName behind) :
    Takes Identifier.read ('x' :: behind) behind := by
  have hname : isIdentifier "x" := by decide
  exact ⟨_, Identifier.read_append hname h⟩

/-- The cases for a declaration. A front that ends in the property can go on in two
ways: the name may be longer, or a colon and a value follow. -/
theorem outlook (front : List Char) : Outlook IsRead IsMissing Anything front := by
  -- First the property, which may have blanks in front of it.
  have hname := (Identifier.outlook (skipBlanks front)).behindBlanks (by decide : '*' ∉ ['x'])
    fun _ => takes_letter
  refine hname.andThen ?refused (fun middle _ => outlook_hasValue middle) ?joint ?takes ?fails
  case refused =>
    intro left hne h
    refine .refused left hne fun more source => read?_eq_none fun name afterName hread => ?_
    exact nomatch (h more).symm.trans hread
  case joint =>
    refine ⟨[':', 'x', ';'], by decide, fun behind _ => ⟨fun c hc => by cases hc; decide, ?_⟩⟩
    exact hasValue_letter [] behind rfl (read_letter behind)
  case takes =>
    rintro text middle rest ⟨name, hread⟩ hvalue source
    exact exists_read?_of_hasValue hread hvalue
  case fails =>
    rintro text middle left ⟨name, hread⟩ hnone source
    refine read?_eq_none fun name' afterName hread' => ?_
    rw [hread] at hread'
    cases hread'
    exact hnone

end Declaration

/-! ### Rules and items -/

/-- What ends the items of a rule: a closing brace. In front of it any number of items
may stand. -/
def Closes (behind : List Char) : Prop :=
  ∃ rest, behind = '}' :: rest

/-- What items leave, whatever the source is. -/
def ItemsLeave (text rest : List Char) : Prop :=
  ∀ source, (readItems source text).2 = rest

/-- At a closing brace there are no items, and all is left. This is how a body ends,
and it is what completions end with. -/
theorem itemsLeave_of_closes {behind : List Char} (h : Closes behind) :
    ItemsLeave behind behind := by
  obtain ⟨rest, rfl⟩ := h
  exact fun source => congrArg Prod.snd (readItems_close rfl)

namespace Rule

variable {source text rest left front : List Char}

/-- A rule is read, whatever the source is. As for declarations, the source only
decides about positions. -/
def IsRead (text rest : List Char) : Prop :=
  ∀ source, ∃ rule, Rule.read source text = .ok (rule, rest)

/-- There is no rule, whatever the source is; reading stops where `left` begins. -/
def StopsAt (text left : List Char) : Prop :=
  ∀ source, Rule.read source text = .error left

/-- Items stand between braces. -/
def HasBody (text rest : List Char) : Prop :=
  ∃ body, skipBlanks text = '{' :: body
    ∧ ∀ source, skipBlanks (readItems source body).2 = '}' :: rest

/-- One of the braces is missing where `left` begins. If it is the closing one, the
items have been read up to there. -/
def BodyStopsAt (source text left : List Char) : Prop :=
  (skipBlanks text = left ∧ ∀ body, left ≠ '{' :: body)
    ∨ ∃ body, skipBlanks text = '{' :: body ∧ skipBlanks (readItems source body).2 = left
      ∧ ∀ rest, left ≠ '}' :: rest

/-- Without selectors, reading a rule stops where they would begin. The error carries
the rest at which the list has stopped, with no change. -/
theorem read_eq_error_of_list (h : readList (skipBlanks text) = .error left) :
    Rule.read source text = .error left := by
  unfold Rule.read
  split
  · rename_i hread
    rw [h] at hread
    cases hread
    rfl
  · rename_i hread
    rw [h] at hread
    cases hread

/-- Reading a rule without a body stops at the brace that is missing. It may be the
brace that opens the body or, if that is there, the one that closes it. -/
theorem read_eq_error_of_body {selectors : List Selector.Chain} {afterSelectors : List Char}
    (hlist : readList (skipBlanks text) = .ok (selectors, afterSelectors))
    (h : BodyStopsAt source afterSelectors left) : Rule.read source text = .error left := by
  unfold Rule.read
  split
  · rename_i hread
    rw [hlist] at hread
    cases hread
  · rename_i hread
    rw [hlist] at hread
    cases hread
    -- The opening brace is missing, or it is there and the closing one is.
    rcases h with ⟨rfl, hopen⟩ | ⟨body, hopen, hitems, hclose⟩
    · split
      · rename_i hbody
        exact absurd hbody (hopen _)
      · rfl
    · split
      · rename_i hbody
        rw [hopen] at hbody
        cases hbody
        dsimp only
        split
        · rename_i hbrace
          rw [hitems] at hbrace
          exact absurd hbrace (hclose _)
        · rw [hitems]
      · rename_i hbody
        exact absurd hopen (hbody _)

/-- The cases for what stands behind the selectors, if those for shorter items are
known. At the opening brace it is decided whether there is a body, and behind the
items whether it is closed. -/
theorem outlook_hasBody (hitems : ∀ text : List Char, text.length < front.length →
      Outlook ItemsLeave (fun _ _ => False) Closes text) :
    Outlook HasBody (fun text left => ∀ source, BodyStopsAt source text left) Anything front := by
  have hlength := (skipBlanks_suffix front).length_le
  cases hskip : skipBlanks front with
  | nil =>
    -- Only blanks so far: an empty body will do.
    refine .unfinished ['{', '}'] (by decide) fun behind _ =>
      ⟨'}' :: behind, skipBlanks_append_of_nil hskip _, fun source => ?_⟩
    exact congrArg skipBlanks (itemsLeave_of_closes ⟨behind, rfl⟩ source)
  | cons c body =>
    have hmore : ∀ more, skipBlanks (front ++ more) = c :: (body ++ more) :=
      skipBlanks_append_of_cons hskip
    rw [hskip, List.length_cons] at hlength
    by_cases hc : c = '{'
    · subst hc
      cases hitems body (by omega) with
      | refused left hne h => exact (h []).elim
      | unfinished closing hplain h =>
        -- The last item is completed first, and then the brace can come.
        refine .unfinished (closing ++ ['}']) (by simpa using hplain) fun behind _ =>
          ⟨_, hmore _, fun source => ?_⟩
        rw [List.append_assoc]
        exact congrArg skipBlanks (h ('}' :: behind) ⟨behind, rfl⟩ source)
      | taken rest h =>
        cases hrest : skipBlanks rest with
        | nil =>
          -- All items are there, and the brace is what is missing.
          refine .unfinished ['}'] (by decide) fun behind _ => ⟨_, hmore _, fun source => ?_⟩
          rw [h _ source, skipBlanks_append_of_nil hrest]
          rfl
        | cons d left =>
          have hleft : ∀ more source, skipBlanks (readItems source (body ++ more)).2
              = d :: (left ++ more) := fun more source => by
            rw [h more source, skipBlanks_append_of_cons hrest]
          by_cases hd : d = '}'
          · subst hd
            exact .taken left fun more => ⟨_, hmore more, hleft more⟩
          · exact .refused (d :: left) (List.cons_ne_nil d left) fun more source =>
              .inr ⟨_, hmore more, hleft more source, fun rest heq => hd (List.cons.inj heq).1⟩
    · exact .refused (c :: body) (List.cons_ne_nil c body) fun more source =>
        .inl ⟨hmore more, fun body heq => hc (List.cons.inj heq).1⟩

/-- The cases for a rule, if those for shorter items are known. Rules and items are
read by each other, so the cases for items come in as a hypothesis, and the recursion
is over items. -/
theorem outlook_of_items (hitems : ∀ text : List Char, text.length < front.length →
      Outlook ItemsLeave (fun _ _ => False) Closes text) :
    Outlook IsRead StopsAt Anything front := by
  have hlist := (Selector.outlook_readList (skipBlanks front)).behindBlanks
    (by decide : '*' ∉ ['x']) fun _ => Selector.takes_letter
  -- The body stands behind the selectors, so its items are shorter than the front.
  have hbody : ∀ middle, (∀ more, Takes readList (skipBlanks (front ++ more)) (middle ++ more)) →
      Outlook HasBody (fun text left => ∀ source, BodyStopsAt source text left) Anything
        middle := by
    intro middle h
    have hmiddle : middle.length ≤ front.length := by
      obtain ⟨selectors, hread⟩ := h []
      have hshort := (Selector.readList_shorter hread).2
      have hblanks := (skipBlanks_suffix (front ++ [])).length_le
      simp only [List.append_nil] at hshort hblanks
      omega
    exact outlook_hasBody fun text htext => hitems text (Nat.lt_of_lt_of_le htext hmiddle)
  refine hlist.andThen ?refused hbody ?joint ?takes ?fails
  case refused =>
    exact fun left hne h => .refused left hne fun more source => read_eq_error_of_list (h more)
  case joint =>
    refine ⟨['{', '}'], by decide, fun behind _ => ⟨⟨_, rfl⟩, _, rfl, fun source => ?_⟩⟩
    exact congrArg skipBlanks (itemsLeave_of_closes ⟨behind, rfl⟩ source)
  case takes =>
    rintro text middle rest ⟨selectors, hread⟩ ⟨body, hopen, hclose⟩ source
    exact ⟨_, Rule.read_eq_ok_iff.2 ⟨_, _, _, hread, hopen, hclose source, rfl⟩⟩
  case fails =>
    rintro text middle left ⟨selectors, hread⟩ hstop source
    exact read_eq_error_of_body hread (hstop source)

/-- A rule takes something off the front, by which the recursion ends. -/
theorem IsRead.length_lt {middle : List Char}
    (h : ∀ more, IsRead (front ++ more) (middle ++ more)) : middle.length < front.length :=
  length_lt_of_takes (fun hread => (Rule.read_shorter hread).2) fun more => h more []

end Rule

/-- A declaration is read where there is no rule. Items try a rule first, so only then
it counts. -/
def IsDeclared (text rest : List Char) : Prop :=
  (∀ source, ∃ left, Rule.read source text = .error left) ∧ Declaration.IsRead text rest

/-- There is neither a rule nor a declaration. -/
def IsNoItem (text left : List Char) : Prop :=
  (∀ source, ∃ left, Rule.read source text = .error left) ∧ Declaration.IsMissing text left

/-- A declaration takes something off the front, too. -/
theorem IsDeclared.length_lt {front middle : List Char}
    (h : ∀ more, IsDeclared (front ++ more) (middle ++ more)) : middle.length < front.length := by
  obtain ⟨declaration, hread⟩ := (h []).2 []
  simpa using (Declaration.read?_shorter hread).2

/-- The cases for items. They are never refused, since the items end where none can be
read. The error is found outside, where the brace is missing, and not where the last
try has failed. -/
theorem outlook_readItems (front : List Char) :
    Outlook ItemsLeave (fun _ _ => False) Closes front := by
  have hstops : ∃ joint, '*' ∉ joint ∧ ∀ behind, Closes behind →
      Anything (joint ++ behind) ∧ ItemsLeave (joint ++ behind) behind :=
    ⟨[], List.not_mem_nil, fun behind h => ⟨trivial, itemsLeave_of_closes h⟩⟩
  have hrest : ∀ middle : List Char, middle.length < front.length →
      Outlook ItemsLeave (fun _ _ => False) Closes middle := fun middle _ =>
    outlook_readItems middle
  refine (Rule.outlook_of_items hrest).andThen ?declared (fun middle h => hrest middle
    (Rule.IsRead.length_lt h)) hstops ?rule fun _ h => h
  case rule =>
    intro text middle rest hread hleave source
    obtain ⟨rule, hrule⟩ := hread source
    exact (congrArg Prod.snd (readItems_rule hrule)).trans (hleave source)
  -- What is no rule is tried as a declaration.
  case declared =>
    intro left _ hrule
    have hdeclared : Outlook IsDeclared IsNoItem Anything front :=
      (Declaration.outlook front).shift (fun _ h => h)
        (fun more rest h => ⟨fun source => ⟨_, hrule more source⟩, h⟩)
        fun more left h => ⟨fun source => ⟨_, hrule more source⟩, h⟩
    refine hdeclared.andThen ?none (fun middle h => hrest middle (IsDeclared.length_lt h)) hstops
      ?declaration fun _ h => h
    case declaration =>
      intro text middle rest hread hleave source
      obtain ⟨left, hno⟩ := hread.1 source
      obtain ⟨declaration, hdeclaration⟩ := hread.2 source
      exact (congrArg Prod.snd (readItems_declaration hno hdeclaration)).trans (hleave source)
    case none =>
      intro left _ h
      refine .taken front fun more source => ?_
      obtain ⟨stop, hno⟩ := (h more).1 source
      exact congrArg Prod.snd (readItems_end hno ((h more).2 source))
termination_by front.length

/-- The cases for a rule. What was assumed of items is known now. The recursion
between rules and items is closed by this. -/
theorem Rule.outlook (front : List Char) : Outlook IsRead StopsAt Anything front :=
  outlook_of_items fun text _ => outlook_readItems text

/-! ### At-rules -/

namespace AtRule

variable {text rest left front afterName : List Char} {name : String}

/-- An at-rule is read behind its sign, whatever the source is, and wherever the sign
is. -/
def IsRead (text rest : List Char) : Prop :=
  ∀ source start, ∃ atRule, AtRule.read source start text = .ok (atRule, rest)

/-- There is no at-rule behind the sign; reading stops where `left` begins. -/
def StopsAt (text left : List Char) : Prop :=
  ∀ source start, AtRule.read source start text = .error left

/-- A value and a semicolon stand behind the name. -/
def HasPrelude (text rest : List Char) : Prop :=
  ∃ raw, RawValue.read (skipBlanks text) = .ok (raw, ';' :: rest)

/-- The value or the semicolon is missing where `left` begins. In the second case some
other mark has ended the value. -/
def PreludeStopsAt (text left : List Char) : Prop :=
  RawValue.read (skipBlanks text) = .error left
    ∨ ∃ raw, RawValue.read (skipBlanks text) = .ok (raw, left) ∧ ∀ rest, left ≠ ';' :: rest

/-- The cases for what stands behind the name. At the end of the front the value can
be finished with a letter and a semicolon, whatever it holds open. -/
theorem outlook_hasPrelude (front : List Char) :
    Outlook HasPrelude PreludeStopsAt Anything front := by
  cases hskip : skipBlanks front with
  | nil =>
    refine .unfinished ['x', ';'] (by decide) fun behind _ => ⟨['x'], ?_⟩
    rw [skipBlanks_append_of_nil hskip]
    rfl
  | cons c value =>
    have hvalue : ∀ more, skipBlanks (front ++ more) = c :: value ++ more :=
      skipBlanks_append_of_cons hskip
    -- The value ends with a mark in the front, or there is none, or it is still open.
    rcases RawValue.outlook (c :: value) with ⟨raw, mark, rest, hmark, hread⟩ | ⟨-, hread⟩
      | ⟨closing, hplain, hread⟩
    · by_cases hsemicolon : mark = ';'
      · subst hsemicolon
        exact .taken rest fun more => ⟨raw, (hvalue more).symm ▸ hread more⟩
      · exact .refused (mark :: rest) (List.cons_ne_nil mark rest) fun more =>
          .inr ⟨raw, (hvalue more).symm ▸ hread more,
            fun rest heq => hsemicolon (List.cons.inj heq).1⟩
    · exact .refused (c :: value) (List.cons_ne_nil c value) fun more =>
        .inl ((hvalue more).symm ▸ hread more)
    · refine .unfinished (closing ++ ['x', ';']) (by simpa using hplain) fun behind _ =>
        ⟨c :: value ++ (closing ++ ['x']), ?_⟩
      rw [hvalue, List.append_assoc]
      exact hread behind

/-- Without a name, reading stops right behind the sign. The source and the start of
the at-rule play no part in this. -/
theorem read_eq_error_of_name (h : Identifier.read text = .error left) : StopsAt text left :=
  fun source start => by rw [AtRule.read, h]

/-- Reading an at-rule that has a name stops where the value or the semicolon is
missing. -/
theorem read_eq_error_of_prelude (hname : Identifier.read text = .ok (name, afterName))
    (h : PreludeStopsAt afterName left) : StopsAt text left := by
  intro source start
  unfold AtRule.read
  rw [hname]
  rcases h with hraw | ⟨raw, hraw, hsemicolon⟩
  · simp only [hraw]
  · simp only [hraw]

/-- The cases for an at-rule. Behind a name that is not known to be finished a blank
ends it. -/
theorem outlook (front : List Char) : Outlook IsRead StopsAt Anything front := by
  refine (Identifier.outlook front).andThen ?refused (fun middle _ => outlook_hasPrelude middle)
    ?joint ?takes ?fails
  case refused =>
    exact fun left hne h => .refused left hne fun more => read_eq_error_of_name (h more)
  case joint =>
    refine ⟨[' ', 'x', ';'], by decide, fun behind _ => ⟨fun c hc => ?_, ['x'], rfl⟩⟩
    cases hc
    decide
  case takes =>
    rintro text middle rest ⟨name, hname⟩ ⟨raw, hraw⟩ source start
    exact ⟨_, AtRule.read_eq_ok_iff.2 ⟨name, middle, raw, hname, hraw, rfl⟩⟩
  case fails =>
    rintro text middle left ⟨name, hname⟩ hstop
    exact read_eq_error_of_prelude hname hstop

end AtRule

/-! ### Statements -/

namespace Stylesheet

variable {source text body left front : List Char} {kind : StatementKind}

/-- The error about an at-rule in front of a text is that about the text. No statement
behind it is looked at. -/
theorem readStatements_atRule_error (h : trimStart text = '@' :: body)
    (hread : AtRule.read source ('@' :: body) body = .error left) :
    readStatements source text = .error (.of .atRule source left) := by
  rw [readStatements]
  -- The text begins with an `@`, which leaves the second branch.
  split
  · simp_all
  · rename_i hbody
    rw [h] at hbody
    cases hbody
    split
    · rename_i hfail
      rw [hread] at hfail
      cases hfail
      rfl
    · rename_i hok
      rw [hread] at hok
      cases hok
  · simp_all

/-- The error about a rule in front of a text is that about the text. A text that does
not begin with the sign of an at-rule is taken for a rule. -/
theorem readStatements_rule_error {c : Char} (h : trimStart text = c :: body) (hc : c ≠ '@')
    (hread : Rule.read source (c :: body) = .error left) :
    readStatements source text = .error (.of .rule source left) := by
  rw [readStatements]
  split
  · simp_all
  · rename_i hat
    rw [h] at hat
    exact absurd (List.cons.inj hat).1 hc
  · split
    · rename_i hfail
      rw [h, hread] at hfail
      cases hfail
      rfl
    · rename_i hok
      rw [h, hread] at hok
      cases hok

/-- A statement is read, whatever the source is, and the rest of the text is left.
What is read of the rest has this statement added to it. -/
def TakesStatement (text rest : List Char) : Prop :=
  (rest <:+ text ∧ rest.length < text.length) ∧ ∀ source, ∃ add : Stylesheet → Stylesheet,
    readStatements source text = (readStatements source rest).map add

/-- No statement is read, whatever the source is; reading stops where `left` begins.
The error says so, and of which kind the statement was to be. -/
def StatementStopsAt (kind : StatementKind) (text left : List Char) : Prop :=
  left <:+ text ∧ ∀ source, readStatements source text = .error (.of kind source left)

/-- The cases for a statement. Of which kind it is, is known from its first character,
so the front must have more than white space. -/
theorem outlook_statement (h : trimStart front ≠ []) :
    ∃ kind, Outlook TakesStatement (StatementStopsAt kind) Anything front := by
  cases htrim : trimStart front with
  | nil => exact absurd htrim h
  | cons c body =>
    have hmore : ∀ more, trimStart (front ++ more) = c :: (body ++ more) := fun more => by
      rw [trimStart, List.dropWhile_append, ← trimStart, if_neg (by simp [htrim]), htrim,
        List.cons_append]
    have hsuffix : ∀ more, c :: (body ++ more) <:+ front ++ more := fun more =>
      hmore more ▸ trimStart_suffix (front ++ more)
    have hbody : ∀ more, body ++ more <:+ front ++ more := fun more =>
      (List.suffix_cons _ _).trans (hsuffix more)
    -- The sign decides between the two kinds. What is known of either is moved behind the
    -- white space.
    by_cases hc : c = '@'
    · subst hc
      refine ⟨.atRule, (AtRule.outlook body).shift (fun _ h => h) ?_ ?_⟩
      · intro more rest hread
        obtain ⟨atRule, hany⟩ := hread [] []
        have hshort := AtRule.read_shorter hany
        refine ⟨⟨hshort.1.trans (hbody more), Nat.lt_of_lt_of_le hshort.2 (hbody more).length_le⟩,
          fun source => ?_⟩
        obtain ⟨atRule, hread⟩ := hread source ('@' :: (body ++ more))
        exact ⟨_, readStatements_atRule (hmore more) hread⟩
      · intro more left hread
        refine ⟨?_, fun source => readStatements_atRule_error (hmore more) (hread source _)⟩
        rcases AtRule.read_eq_error (hread [] []) with rfl | ⟨hleft, -⟩
        · exact hbody more
        · exact hleft.trans (hbody more)
    · refine ⟨.rule, (Rule.outlook (c :: body)).shift (fun _ h => h) ?_ ?_⟩
      · intro more rest hread
        obtain ⟨rule, hany⟩ := hread []
        have hshort := Rule.read_shorter hany
        refine ⟨⟨hshort.1.trans (hsuffix more),
          Nat.lt_of_lt_of_le hshort.2 (hsuffix more).length_le⟩, fun source => ?_⟩
        obtain ⟨rule, hread⟩ := hread source
        exact ⟨_, readStatements_rule (hmore more) hc hread⟩
      · intro more left hread
        exact ⟨(Rule.read_eq_error (hread [])).1.trans (hsuffix more),
          fun source => readStatements_rule_error (hmore more) hc (hread source)⟩

/-- The text can be completed to statements, whatever the source is. There is no star
in what is added, so that it cannot begin a comment. -/
def Viable (front : List Char) : Prop :=
  ∃ more, '*' ∉ more ∧ ∀ source, ∃ sheet, readStatements source (front ++ more) = .ok sheet

/-- The reading of statements stops inside the text, whatever stands behind it. That
something is left of the text means that it stops before its end. -/
def StopsInside (front : List Char) : Prop :=
  ∃ left kind, left ≠ [] ∧ left <:+ front ∧ ∀ source more,
    readStatements source (front ++ more) = .error (.of kind source (left ++ more))

/-- The front of a text can be completed, or reading stops inside of it. The recursion
is over the statements in it: each one that is finished leaves a shorter text with the
same two cases. -/
theorem viable_or_stops (front : List Char) : Viable front ∨ StopsInside front := by
  by_cases hblank : trimStart front = []
  · refine .inl ⟨[], List.not_mem_nil, fun source => ⟨⟨[], []⟩, ?_⟩⟩
    rw [List.append_nil]
    exact readStatements_end hblank
  · obtain ⟨kind, hstatement⟩ := outlook_statement hblank
    cases hstatement with
    -- The first statement cannot be read.
    | refused left hne h =>
      have hleft : left <:+ front := by simpa using (h []).1
      exact .inr ⟨left, kind, hne, hleft, fun source more => (h more).2 source⟩
    -- It is the last one, and can be completed.
    | unfinished closing hplain h =>
      refine .inl ⟨closing, hplain, fun source => ?_⟩
      obtain ⟨add, hread⟩ := (h [] trivial).2 source
      have hend : readStatements source [] = .ok ⟨[], []⟩ := readStatements_end rfl
      rw [List.append_nil, hend] at hread
      exact ⟨add ⟨[], []⟩, hread⟩
    | taken rest h =>
      have hsuffix : rest <:+ front := by simpa using (h []).1.1
      have hshort : rest.length < front.length := by simpa using (h []).1.2
      rcases viable_or_stops rest with ⟨more, hplain, hmore⟩ | ⟨left, kind, hne, hleft, hstops⟩
      · refine .inl ⟨more, hplain, fun source => ?_⟩
        obtain ⟨add, hread⟩ := (h more).2 source
        obtain ⟨sheet, hsheet⟩ := hmore source
        exact ⟨add sheet, by rw [hread, hsheet]; rfl⟩
      · refine .inr ⟨left, kind, hne, hleft.trans hsuffix, fun source more => ?_⟩
        obtain ⟨add, hread⟩ := (h more).2 source
        rw [hread, hstops]
        rfl
termination_by front.length

/-- If what stands in front of the place of an error cannot be completed, reading has
stopped inside of that, and the same error can be seen as one that is further to the
front. Both errors are the same, since reading the text gives only one, although the
places may have different texts behind them. -/
theorem exists_viable {error : SyntaxError} (h : readStatements text text = .error error)
    (front left : List Char) (kind : StatementKind) (htext : text = front ++ left)
    (herror : error = .of kind text left) :
    ∃ front left kind, text = front ++ left ∧ error = .of kind text left ∧ Viable front := by
  rcases viable_or_stops front with hviable | ⟨inside, kind', hne, ⟨before, rfl⟩, hstops⟩
  · exact ⟨front, left, kind, htext, herror, hviable⟩
  · have hlength : before.length < (before ++ inside).length := by
      have := List.length_pos_iff.2 hne
      rw [List.length_append]
      omega
    have hagain := hstops text left
    rw [← htext, h] at hagain
    exact exists_viable h before (inside ++ left) kind' (by rw [htext, List.append_assoc])
      (Except.error.inj hagain)
termination_by front.length

/-- What begins no comment begins none with an addition that has no star. The two
characters that begin a comment might be on both sides of the seam, but the second one
is a star. -/
theorem not_comment_append {more : List Char} (hfront : ¬ ['/', '*'] <:+: front)
    (hmore : '*' ∉ more) : ¬ ['/', '*'] <:+: front ++ more := by
  rintro ⟨before, after, heq⟩
  rcases List.append_eq_append_iff.1 heq with ⟨middle, hfront', -⟩ | ⟨middle, hopen, hmore'⟩
  · exact hfront ⟨before, middle, hfront'.symm⟩
  · cases middle using List.reverseRecOn with
    | nil =>
      rw [List.append_nil] at hopen
      exact hfront (hopen ▸ ⟨before, [], by simp⟩)
    | append_singleton middle c =>
      have hlast := congrArg List.getLast? hopen
      rw [← List.append_assoc, List.getLast?_concat, List.getLast?_append] at hlast
      cases hlast
      exact hmore (hmore' ▸ by simp)

/-! ### Places -/

/-- In a text that is not too long a place says how much of the text stands in front
of it. Of two front parts one is the beginning of the other, and with more text the
place is later. -/
theorem eq_of_after_eq {before other : List Char} (hbefore : before <+: text)
    (hother : other <+: text) (hlength : text.length + 1 < UInt32.size)
    (h : Position.after other = Position.after before) : other = before := by
  have hno : ∀ {first second : List Char}, first <+: second → second <+: text →
      Position.after second = Position.after first → second = first := by
    rintro first _ ⟨more, rfl⟩ hsecond heq
    by_contra hne
    have hmore : more ≠ [] := fun hnil => hne (by rw [hnil, List.append_nil])
    have hsize : (first ++ more).length + 1 < UInt32.size := by
      have := hsecond.length_le
      omega
    exact (Position.before_of_append hmore hsize).ne heq.symm
  rcases List.prefix_or_prefix_of_prefix hbefore hother with hprefix | hprefix
  · exact hno hprefix hother h
  · exact (hno hprefix hbefore h.symm).symm

/-- What stands in front of the place that a syntax error reports can be completed to
a stylesheet. The place is the only one with its line and column, if the source is not
too long to count its lines and columns. The source has no comments, which would have
to be completed as well. -/
theorem ofSource_viable {source : String} (hplain : ¬ ['/', '*'] <:+: source.toList)
    {error : SyntaxError} (h : ofSource source = .error error) :
    ∃ before rest, source.toList = before ++ rest ∧ Position.after before = error.position
      ∧ (source.length + 1 < UInt32.size → ∀ other, other <+: source.toList →
        Position.after other = error.position → other = before)
      ∧ ∃ more sheet, ofSource (.ofList (before ++ more)) = .ok sheet := by
  have hread : readStatements source.toList source.toList = .error error := by
    rw [ofSource, blankComments_of_plain _ hplain] at h
    exact map_eq_error.1 h
  obtain ⟨kind, stop, herror, ⟨front, hfront⟩, -⟩ :=
    exists_of_readStatements_error hread
  -- The place may have to be moved to the front, to where reading stops for what stands
  -- there.
  obtain ⟨before, left, kind, htext, rfl, more, hmore, hviable⟩ :=
    exists_viable hread front stop kind hfront.symm herror
  have hplace : Position.after before = (SyntaxError.of kind source.toList left).position := by
    rw [SyntaxError.of, htext, Position.ofSuffix_append]
  have hprefix : before <+: source.toList := htext ▸ List.prefix_append before left
  refine ⟨before, left, htext, hplace, fun hlength other hother hsame => ?_, more, ?_⟩
  · exact eq_of_after_eq hprefix hother hlength (hsame.trans hplace.symm)
  -- The completed text has no comment either, so it is read as it is.
  · have hcompleted : ¬ ['/', '*'] <:+: before ++ more :=
      not_comment_append (fun hin => hplain (hin.trans hprefix.isInfix)) hmore
    obtain ⟨sheet, hsheet⟩ := hviable (before ++ more)
    refine ⟨sheet.flatten, ?_⟩
    rw [ofSource, String.toList_ofList, blankComments_of_plain _ hcompleted, hsheet]
    rfl

/-- An item that fails as a rule behind its brace is a declaration in front of it. So
the error is reported at the brace and not where the rule inside went wrong. -/
theorem ofSource_viable_nested :
    let source := ".a \x7b b:hover \x7b !x \x7d \x7d"
    ∃ error, (ofSource source = .error error ∧ error.position = ⟨1, 14⟩)
      ∧ ∃ before rest, source.toList = before ++ rest ∧ Position.after before = error.position
        ∧ (source.length + 1 < UInt32.size → ∀ other, other <+: source.toList →
          Position.after other = error.position → other = before)
        ∧ ∃ more sheet, ofSource (.ofList (before ++ more)) = .ok sheet := by
  intro source
  let text := source.toList
  let items := " b:hover \x7b !x \x7d \x7d".toList
  let inner := " !x \x7d \x7d".toList
  let after := "\x7b !x \x7d \x7d".toList
  -- Neither inside the inner braces nor in front of them there is an item.
  have hinner : readItems text inner = ([], inner) := by
    have hlist : readList (skipBlanks inner) = .error "!x \x7d \x7d".toList := by decide +kernel
    exact readItems_end (Rule.read_eq_error_of_list hlist) (by decide +kernel)
  have hafter : readItems text after = ([], after) := by
    have hlist : readList (skipBlanks after) = .error after := by decide +kernel
    exact readItems_end (Rule.read_eq_error_of_list hlist) (by decide +kernel)
  -- So the item in front of them is no rule, but it is a declaration.
  have hitems : (readItems text items).2 = after := by
    have hlist : readList (skipBlanks items)
        = .ok ([⟨[⟨[.type "b", .pseudoClass "hover"], .none⟩]⟩], ' ' :: after) := by
      decide +kernel
    have hrule : Rule.read text items = .error "!x \x7d \x7d".toList := by
      refine Rule.read_eq_error_of_body hlist (.inr ⟨inner, rfl, ?_, nofun⟩)
      rw [hinner]
      rfl
    have hdeclaration : Declaration.read? text items
        = some (⟨"b", "hover", false, ⟨1, 6⟩⟩, after) := by decide +kernel
    rw [readItems_declaration hrule hdeclaration, hafter]
  have hread : readStatements text text = .error (.of .rule text after) := by
    have hlist : readList (skipBlanks ('.' :: text.tail))
        = .ok ([⟨[⟨[.cls "a"], .none⟩]⟩], ' ' :: '{' :: items) := by decide +kernel
    have htrim : trimStart text = '.' :: text.tail := by decide +kernel
    refine readStatements_rule_error htrim (by decide) ?_
    have hclose : ∀ rest, after ≠ '}' :: rest := fun rest heq => by
      cases congrArg List.head? heq
    refine Rule.read_eq_error_of_body hlist (.inr ⟨items, rfl, ?_, hclose⟩)
    rw [hitems]
    rfl
  have hsource : ofSource source = .error (.of .rule text after) := by
    have hplain : blankComments text = text := by decide +kernel
    rw [ofSource, hplain, hread]
    rfl
  exact ⟨_, ⟨hsource, by decide +kernel⟩, ofSource_viable (by decide +kernel) hsource⟩

end Stylesheet

end BlockStyles
