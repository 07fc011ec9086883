import BlockStyles.Proofs.Selector.Display
import BlockStyles.Proofs.Text.Outlook

/-!
# `BlockStyles.Proofs.Selector.Outlook`: selectors of which only the front is known

The cases of `Outlook` for the readers of selectors, from simple selectors up to lists. What is
unfinished can be finished so that an opening brace can follow.

* `Simple.outlook`, `Compound.outlook`, `Chain.outlook`: one for each kind of selector.
* `outlook_readList`: the cases for a list of selectors.
* `Simple.takes_letter`, `Compound.takes_letter`, `Chain.takes_letter`: what is missing can be
  a letter, which is an element type and so a selector of each kind.
-/

set_option autoImplicit false

namespace BlockStyles.Selector

open BlockStyles.Text

/-- What ends a list of selectors: an opening brace. A finished list of selectors in a
rule has one behind it. -/
def Opens (behind : List Char) : Prop :=
  ∃ body, behind = '{' :: body

/-- A name ends at an opening brace. This is what can stand behind a selector that a
body follows. -/
theorem Opens.endsName {behind : List Char} (h : Opens behind) : EndsName behind := by
  obtain ⟨body, rfl⟩ := h
  intro c hc
  cases hc
  decide

/-! ### Simple selectors -/

namespace Simple

variable {front : List Char} {make : String → Simple}

/-- A mark with a name behind it goes on as the name does. The hypothesis says that
with this mark a name is read, whatever comes behind the front. -/
theorem outlook_named (mark : List Char) (hne : mark ++ front ≠ [])
    (hread : ∀ more, read (mark ++ front ++ more)
      = readNamed (mark ++ front ++ more) make (front ++ more)) :
    Outlook (Takes read) (StopsAt read) Opens (mark ++ front) := by
  cases Identifier.outlook front with
  | taken rest h =>
    refine .taken rest fun more => ?_
    obtain ⟨name, hname⟩ := h more
    exact ⟨make name, by rw [hread, readNamed, hname]⟩
  | refused left _ h =>
    refine .refused (mark ++ front) hne fun more => ?_
    rw [StopsAt, hread, readNamed, h more]
  | unfinished closing hplain h =>
    refine .unfinished closing hplain fun behind hbehind => ?_
    obtain ⟨name, hname⟩ := h behind hbehind.endsName
    exact ⟨make name, by rw [hread, readNamed, hname]⟩

/-- An attribute goes on to the next closing bracket. It cannot be refused, since
anything may stand between the brackets. -/
theorem outlook_attribute (front : List Char) :
    Outlook (Takes read) (StopsAt read) Opens ('[' :: front) := by
  have hread : ∀ {content text rest : List Char}, ']' ∉ content → text = content ++ ']' :: rest →
      Takes read ('[' :: text) rest := by
    rintro content text rest hcontent rfl
    exact ⟨_, read_eq_ok_iff.2 (.attr content rest hcontent)⟩
  cases hsplit : splitFirst ']' front with
  | some parts =>
    obtain ⟨content, rest⟩ := parts
    obtain ⟨rfl, hcontent⟩ := splitFirst_eq_some hsplit
    exact .taken rest fun more => hread hcontent (by simp)
  | none =>
    exact .unfinished [']'] (by decide) fun behind _ =>
      hread (not_mem_of_splitFirst_eq_none hsplit) rfl

/-- A letter is an element type. So it can finish whatever still needs a selector. -/
theorem takes_letter {behind : List Char} (h : Opens behind) :
    Takes read ('x' :: behind) behind := by
  have htype : named? (.type "x") = some ([], "x") := rfl
  exact ⟨_, read_named htype (by decide) h.endsName⟩

/-- Behind a colon a letter is the name of a pseudo-class. With this a pseudo-class
whose name has not begun can be finished. -/
theorem takes_colon {behind : List Char} (h : Opens behind) :
    Takes read (':' :: 'x' :: behind) behind := by
  have hclass : named? (.pseudoClass "x") = some ([':'], "x") := rfl
  exact ⟨_, read_named hclass (by decide) h.endsName⟩

/-- The cases for a simple selector. There is one for each form that a selector is
read in, and what has only a first colon so far can become a pseudo-class or a
pseudo-element. -/
theorem outlook (front : List Char) : Outlook (Takes read) (StopsAt read) Opens front := by
  fun_cases read front with
  | case1 rest => exact outlook_named ['.'] (List.cons_ne_nil _ _) fun _ => rfl
  | case2 rest => exact outlook_named ['#'] (List.cons_ne_nil _ _) fun _ => rfl
  | case3 rest => exact outlook_named [':', ':'] (List.cons_ne_nil _ _) fun _ => rfl
  -- Behind one colon nothing is decided yet at the end of the front. Otherwise it is known
  -- that there is no second one.
  | case4 rest hcolon =>
    cases rest with
    | nil => exact .unfinished ['x'] (by decide) fun _ => takes_colon
    | cons c rest =>
      refine outlook_named [':'] (List.cons_ne_nil _ _) fun more => read.eq_4 _ ?_
      intro after heq
      exact hcolon rest (by rw [(List.cons.inj heq).1])
  | case5 rest => exact outlook_attribute rest
  | case6 rest => exact .taken rest fun more => ⟨.parent, rfl⟩
  | case7 rest => exact .taken rest fun more => ⟨.universal, rfl⟩
  -- No mark is in front, so this is an element type, or there is nothing yet.
  | case8 front hcls hid _ hpseudoClass hattr hparent huniversal =>
    cases front with
    | nil => exact .unfinished ['x'] (by decide) fun _ => takes_letter
    | cons c rest =>
      -- The first character rules out all other forms, whatever stands behind the front.
      have hhead : ∀ {d : Char}, (∀ left, c :: rest = d :: left → False) →
          ∀ {more left : List Char}, c :: rest ++ more = d :: left → False := fun h more left heq =>
        h rest (by rw [(List.cons.inj heq).1])
      refine outlook_named [] (List.cons_ne_nil _ _) fun more => read.eq_8 _ ?_ ?_ ?_ ?_ ?_ ?_ ?_
      · exact fun left => hhead hcls
      · exact fun left => hhead hid
      · exact fun left => hhead hpseudoClass
      · exact fun left => hhead hpseudoClass
      · exact fun left => hhead hattr
      · exact fun left => hhead hparent
      · exact fun left => hhead huniversal

end Simple

/-! ### Compounds -/

namespace Compound

/-- What a run of simple selectors leaves. Only this matters for what can follow, not
what has been read. -/
def RunLeaves (text rest : List Char) : Prop :=
  (readRun text).2 = rest

/-- A run ends at an opening brace, with which no simple selector begins. -/
theorem readRun_of_opens {behind : List Char} (h : Opens behind) :
    readRun behind = ([], behind) := by
  obtain ⟨body, rfl⟩ := h
  exact readRun_of_error (Simple.exists_read_eq_error fun c hc => by cases hc; decide)

/-- A run leaves the opening brace at which it ends. Nothing is taken off it, so what
comes next is the body of the rule. -/
theorem runLeaves_of_opens {behind : List Char} (h : Opens behind) : RunLeaves behind behind :=
  congrArg Prod.snd (readRun_of_opens h)

/-- The cases for a run, which may be empty. So it is never refused: where no simple
selector can be read, the run ends. Each simple selector takes something, which is why
the recursion ends. -/
theorem outlook_readRun (front : List Char) :
    Outlook RunLeaves (fun _ _ => False) Opens front := by
  have hrest : ∀ middle, (∀ more, Takes Simple.read (front ++ more) (middle ++ more)) →
      Outlook RunLeaves (fun _ _ => False) Opens middle := by
    intro middle h
    have hshort := length_lt_of_takes (fun hread => (Simple.read_shorter hread).2) h
    exact outlook_readRun middle
  refine (Simple.outlook front).andThen ?refused hrest (Outlook.atOnce @runLeaves_of_opens) ?takes
    fun _ h => h
  case refused =>
    intro left _ h
    exact .taken front fun more => congrArg Prod.snd (readRun_of_error ⟨_, h more⟩)
  case takes =>
    rintro text middle rest ⟨simple, hsimple⟩ hrest
    exact (congrArg Prod.snd (readRun_of_read hsimple)).trans hrest
termination_by front.length

/-- The cases for a compound. It needs a first simple selector, and is refused where
that is. -/
theorem outlook (front : List Char) : Outlook (Takes read) (StopsAt read) Opens front := by
  refine (Simple.outlook front).andThen ?refused (fun middle _ => outlook_readRun middle)
    (Outlook.atOnce @runLeaves_of_opens) ?takes fun _ h => h.elim
  case refused =>
    intro left _ h
    -- An empty front is refused by nothing, since a letter can still come.
    have hne : front ≠ [] := by
      rintro rfl
      obtain ⟨simple, hsimple⟩ := Simple.takes_letter ⟨[], rfl⟩
      exact nomatch (h ['x', '{']).symm.trans hsimple
    refine .refused front hne fun more => ?_
    rw [StopsAt, read, readRun_of_error ⟨_, h more⟩]
  case takes =>
    rintro text middle rest ⟨simple, hsimple⟩ rfl
    exact ⟨simple :: (readRun middle).1, by rw [read, readRun_of_read hsimple]⟩

/-- A letter is a compound, of one element type. So where a compound is missing, a
letter is one that will do. -/
theorem takes_letter {behind : List Char} (h : Opens behind) :
    Takes read ('x' :: behind) behind := by
  obtain ⟨simple, hsimple⟩ := Simple.takes_letter h
  exact ⟨[simple], by rw [read, readRun_of_read hsimple, readRun_of_opens h]⟩

end Compound

/-! ### Chains -/

/-- A sign is a combinator, with blanks around it or without. They are skipped on both
sides. -/
theorem Combinator.exists_read?_sign {text rest : List Char} {c : Char}
    (h : skipBlanks text = c :: rest) (hc : c = '>' ∨ c = '+' ∨ c = '~') :
    ∃ combinator, Combinator.read? text = some (combinator, skipBlanks rest) := by
  rcases hc with rfl | rfl | rfl
  · exact ⟨.child, by simp only [Combinator.read?, h]⟩
  · exact ⟨.adjacent, by simp only [Combinator.read?, h]⟩
  · exact ⟨.general, by simp only [Combinator.read?, h]⟩

/-- Without a sign blanks are one, if there are any. That is seen from the lengths, as
the program sees it. -/
theorem Combinator.read?_of_not_sign {text : List Char}
    (h : ∀ c ∈ (skipBlanks text).head?, ¬ (c = '>' ∨ c = '+' ∨ c = '~')) :
    Combinator.read? text = if (skipBlanks text).length < text.length then
      some (.descendant, skipBlanks text) else Option.none := by
  unfold Combinator.read?
  split
  · rename_i hskip
    exact absurd (.inl rfl) (h '>' (by rw [hskip]; rfl))
  · rename_i hskip
    exact absurd (.inr (.inl rfl)) (h '+' (by rw [hskip]; rfl))
  · rename_i hskip
    exact absurd (.inr (.inr rfl)) (h '~' (by rw [hskip]; rfl))
  · rfl

namespace Chain

variable {front after : List Char} {compound : Compound} {combinator : Combinator}

/-- A combinator that no compound stands behind is not taken, and the chain ends ahead
of it. -/
theorem readParts_of_error {text : List Char}
    (hcombinator : Combinator.read? text = some (combinator, after)) {left : List Char}
    (h : Chain.read after = .error left) :
    readParts compound text = ([⟨compound, .none⟩], text) := by
  unfold Chain.read at h
  -- Reading a chain fails where reading its first compound does.
  split at h
  · rename_i hfail
    rw [readParts]
    split
    · rfl
    · rename_i hread
      rw [hcombinator] at hread
      cases hread
      split
      · rfl
      · rename_i hok
        rw [hfail] at hok
        cases hok
  · cases h

/-- Where there is no combinator the chain ends. The compound that has been read is
the last one then. -/
theorem readParts_of_none {text : List Char} (h : Combinator.read? text = none) :
    readParts compound text = ([⟨compound, .none⟩], text) := by
  rw [readParts]
  split
  · rfl
  · rename_i hread
    rw [h] at hread
    cases hread

/-- What is left when a chain has gone on behind its first compound, which may be any. -/
def PartsLeave (text rest : List Char) : Prop :=
  ∀ compound, (readParts compound text).2 = rest

/-- A chain ends at an opening brace, since there are no blanks ahead of it and it is
no sign. -/
theorem readParts_of_opens (compound : Compound) {behind : List Char} (h : Opens behind) :
    readParts compound behind = ([⟨compound, .none⟩], behind) := by
  obtain ⟨body, rfl⟩ := h
  exact readParts_of_none (by simp [Combinator.read?, skipBlanks, isBlank])

/-- A letter is a chain, of one compound. So where a selector is missing, a letter is
one that will do. -/
theorem takes_letter {behind : List Char} (h : Opens behind) :
    Takes Chain.read ('x' :: behind) behind := by
  obtain ⟨compound, hcompound⟩ := Compound.takes_letter h
  refine ⟨⟨[⟨compound, .none⟩]⟩, ?_⟩
  rw [Chain.read, hcompound]
  dsimp only
  rw [readParts_of_opens compound h]

/-- Behind a combinator the chain goes on. If no compound can stand there, the chain
ends ahead of the combinator, so this is not refused. -/
theorem outlook_readParts_of_combinator (after : List Char)
    (hcombinator : ∀ more, ∃ combinator, Combinator.read? (front ++ more)
      = some (combinator, skipBlanks (after ++ more)))
    (hchain : Outlook (Takes Chain.read) (StopsAt Chain.read) Opens (skipBlanks after)) :
    Outlook PartsLeave (fun _ _ => False)
      Opens front := by
  have htakes : ∀ more rest, Takes Chain.read (skipBlanks (after ++ more)) rest →
      ∀ compound, (readParts compound (front ++ more)).2 = rest := by
    rintro more rest ⟨⟨parts⟩, hparts⟩ compound
    obtain ⟨combinator, hread⟩ := hcombinator more
    rw [readParts_of_read hread hparts]
  cases hchain.behindBlanks (by decide : '*' ∉ ['x']) fun _ => takes_letter with
  | taken rest h => exact .taken rest fun more => htakes more _ (h more)
  | unfinished closing hplain h =>
    exact .unfinished closing hplain fun behind hbehind => htakes _ _ (h behind hbehind)
  -- A combinator that no compound follows is left.
  | refused left _ h =>
    refine .taken front fun more compound => ?_
    obtain ⟨combinator, hread⟩ := hcombinator more
    rw [readParts_of_error hread (h more)]

/-- The cases for the parts of a chain, if those for shorter chains are known. Blanks
at the end of the front are the case to look at: a sign may still follow them, and
then a compound. -/
theorem outlook_readParts (hchain : ∀ text : List Char, text.length < front.length →
      Outlook (Takes Chain.read) (StopsAt Chain.read) Opens text) :
    Outlook PartsLeave (fun _ _ => False)
      Opens front := by
  have hlength := (skipBlanks_suffix front).length_le
  cases hskip : skipBlanks front with
  | nil =>
    refine .unfinished ['>', 'x'] (by decide) fun behind hbehind compound => ?_
    have hsign : skipBlanks (front ++ '>' :: 'x' :: behind) = '>' :: 'x' :: behind :=
      skipBlanks_append_of_nil hskip _
    obtain ⟨combinator, hread⟩ := Combinator.exists_read?_sign hsign (.inl rfl)
    obtain ⟨⟨parts⟩, hparts⟩ := takes_letter hbehind
    exact congrArg Prod.snd (readParts_of_read hread hparts)
  | cons c after =>
    have hmore : ∀ more, skipBlanks (front ++ more) = c :: (after ++ more) :=
      skipBlanks_append_of_cons hskip
    rw [hskip, List.length_cons] at hlength
    by_cases hc : c = '>' ∨ c = '+' ∨ c = '~'
    · refine outlook_readParts_of_combinator after
        (fun more => Combinator.exists_read?_sign (hmore more) hc) (hchain _ ?_)
      have := (skipBlanks_suffix after).length_le
      omega
    -- Without a sign it is a descendant, or no combinator at all.
    · have hread : ∀ more, Combinator.read? (front ++ more)
          = if after.length + 1 < front.length then some (.descendant, skipBlanks (front ++ more))
            else none := by
        intro more
        have hiff : (c :: (after ++ more)).length < (front ++ more).length
            ↔ after.length + 1 < front.length := by
          simp only [List.length_cons, List.length_append]
          omega
        rw [Combinator.read?_of_not_sign (by rw [hmore]; rintro d hd; cases hd; exact hc), hmore]
        simp only [hiff]
      by_cases hshort : after.length + 1 < front.length
      · refine outlook_readParts_of_combinator front
          (fun more => ⟨.descendant, (hread more).trans (if_pos hshort)⟩) (hchain _ ?_)
        rwa [hskip, List.length_cons]
      · exact .taken front fun more compound => by
          rw [readParts_of_none ((hread more).trans (if_neg hshort))]

/-- The cases for a chain of compounds. The recursion is on the length of the front,
as what stands behind a combinator is a chain of its own and shorter. -/
theorem outlook (front : List Char) :
    Outlook (Takes Chain.read) (StopsAt Chain.read) Opens front := by
  -- What stands behind the first compound is shorter, so its chains are known by recursion.
  have hparts : ∀ middle, (∀ more, Takes Compound.read (front ++ more) (middle ++ more)) →
      Outlook PartsLeave (fun _ _ => False)
        Opens middle := by
    intro middle h
    have hmiddle := length_lt_of_takes (fun hread => (Compound.read_shorter hread).2) h
    exact outlook_readParts fun text htext => outlook text
  have hend : ∀ behind, Opens behind → PartsLeave behind behind :=
    fun behind h compound => congrArg Prod.snd (readParts_of_opens compound h)
  refine (Compound.outlook front).andThen ?refused hparts (Outlook.atOnce hend) ?takes
    fun _ h => h.elim
  case refused =>
    intro left hne h
    exact .refused left hne fun more => by rw [StopsAt, Chain.read, h more]
  case takes =>
    rintro text middle rest ⟨compound, hcompound⟩ hrest
    exact ⟨⟨(readParts compound middle).1⟩, by rw [Chain.read, hcompound, ← hrest compound]⟩
termination_by front.length

/-- The cases for a chain with blanks ahead of it, which are skipped. At the end of
blanks a letter can still come. -/
theorem outlook_behindBlanks (front : List Char) :
    Outlook (fun text rest => Takes Chain.read (skipBlanks text) rest)
      (fun text left => StopsAt Chain.read (skipBlanks text) left) Opens front :=
  (outlook (skipBlanks front)).behindBlanks (by decide : '*' ∉ ['x']) fun _ => takes_letter

end Chain

/-! ### Lists -/

/-- A comma that no selector stands behind is not taken, and the list ends ahead of
it. -/
theorem readMore_of_error {text after left : List Char} (hcomma : skipBlanks text = ',' :: after)
    (h : Chain.read (skipBlanks after) = .error left) : readMore text = ([], text) := by
  rw [readMore]
  split
  · rename_i hskip
    rw [hcomma] at hskip
    cases hskip
    split
    · rfl
    · rename_i hok
      rw [h] at hok
      cases hok
  · rfl

/-- What further selectors leave. As with runs, nothing else matters for what can
follow. -/
def MoreLeave (text rest : List Char) : Prop :=
  (readMore text).2 = rest

/-- A list ends at an opening brace, which is no comma. -/
theorem readMore_of_opens {behind : List Char} (h : Opens behind) :
    readMore behind = ([], behind) := by
  obtain ⟨body, rfl⟩ := h
  exact readMore_end fun c hc => by cases hc; decide

/-- A list leaves the opening brace at which it ends. This is the case of a list that
is already complete. -/
theorem moreLeave_of_opens {behind : List Char} (h : Opens behind) : MoreLeave behind behind :=
  congrArg Prod.snd (readMore_of_opens h)

/-- A comma and a selector behind it are taken. Both together are one step of reading
a list. -/
def TakesComma (text rest : List Char) : Prop :=
  ∃ after, skipBlanks text = ',' :: after ∧ Takes Chain.read (skipBlanks after) rest

/-- No selector stands behind a comma. -/
def CommaStopsAt (text left : List Char) : Prop :=
  ∃ after, skipBlanks text = ',' :: after ∧ StopsAt Chain.read (skipBlanks after) left

/-- Such a step makes the text shorter, by which the recursion over a list ends. -/
theorem TakesComma.length_lt {text rest : List Char} (h : TakesComma text rest) :
    rest.length < text.length := by
  obtain ⟨after, hcomma, selector, hread⟩ := h
  have hchain := (Chain.read_shorter hread).2
  have hafter := (skipBlanks_suffix after).length_le
  have htext := (skipBlanks_suffix text).length_le
  rw [hcomma, List.length_cons] at htext
  omega

/-- The cases for further selectors. There may be none, so they are not refused; at
the end of the front a comma and a selector can still come. -/
theorem outlook_readMore (front : List Char) :
    Outlook MoreLeave (fun _ _ => False) Opens front := by
  cases hskip : skipBlanks front with
  | nil =>
    refine .unfinished [',', 'x'] (by decide) fun behind hbehind => ?_
    have hcomma : skipBlanks (front ++ ',' :: 'x' :: behind) = ',' :: 'x' :: behind :=
      skipBlanks_append_of_nil hskip _
    obtain ⟨selector, hselector⟩ := Chain.takes_letter hbehind
    refine (congrArg Prod.snd (readMore_of_read hcomma hselector)).trans ?_
    rw [readMore_of_opens hbehind]
  | cons c after =>
    have hmore : ∀ more, skipBlanks (front ++ more) = c :: (after ++ more) :=
      skipBlanks_append_of_cons hskip
    by_cases hc : c = ','
    · subst hc
      have hselector : Outlook TakesComma CommaStopsAt Opens front :=
        (Chain.outlook_behindBlanks after).shift (fun _ h => h)
          (fun more rest h => ⟨_, hmore more, h⟩) fun more left h => ⟨_, hmore more, h⟩
      have hrest : ∀ middle, (∀ more, TakesComma (front ++ more) (middle ++ more)) →
          Outlook MoreLeave (fun _ _ => False) Opens middle := by
        intro middle h
        have hmiddle : middle.length < front.length := by
          have hshort := (h []).length_lt
          rwa [List.append_nil, List.append_nil] at hshort
        exact outlook_readMore middle
      refine hselector.andThen ?refused hrest (Outlook.atOnce @moreLeave_of_opens) ?takes
        fun _ h => h
      case refused =>
        intro left _ h
        refine .taken front fun more => ?_
        obtain ⟨tail, hcomma, hstop⟩ := h more
        exact congrArg Prod.snd (readMore_of_error hcomma hstop)
      case takes =>
        rintro text middle rest ⟨tail, hcomma, selector, hread⟩ hrest
        exact (congrArg Prod.snd (readMore_of_read hcomma hread)).trans hrest
    -- Without a comma there is no further selector.
    · have hno : ∀ more, ∀ d ∈ (skipBlanks (front ++ more)).head?, d ≠ ',' := by
        intro more d hd
        rw [hmore] at hd
        cases hd
        exact hc
      exact .taken front fun more => congrArg Prod.snd (readMore_end (hno more))
termination_by front.length

/-- A letter is a list of selectors, of one selector. So a rule can be completed by a
letter where it has only begun. -/
theorem takes_letter {behind : List Char} (h : Opens behind) :
    Takes readList ('x' :: behind) behind := by
  obtain ⟨selector, hselector⟩ := Chain.takes_letter h
  have hskip : skipBlanks ('x' :: behind) = 'x' :: behind := rfl
  refine ⟨[selector], ?_⟩
  rw [readList, hskip, hselector]
  dsimp only
  rw [readMore_of_opens h]

/-- The cases for a list of selectors. It needs a first selector, and is refused where
that is. -/
theorem outlook_readList (front : List Char) :
    Outlook (Takes readList) (StopsAt readList) Opens front := by
  refine (Chain.outlook_behindBlanks front).andThen ?refused
    (fun middle _ => outlook_readMore middle)
    (Outlook.atOnce @moreLeave_of_opens) ?takes fun _ h => h.elim
  case refused =>
    intro left hne h
    exact .refused left hne fun more => by rw [StopsAt, readList, h more]
  case takes =>
    rintro text middle rest ⟨selector, hselector⟩ rfl
    exact ⟨selector :: (readMore middle).1, by rw [readList, hselector]⟩

end BlockStyles.Selector
