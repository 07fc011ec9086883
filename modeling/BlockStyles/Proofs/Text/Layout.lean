import BlockStyles.Proofs.Text.Comments
import Mathlib.Data.List.Infix

/-!
# `BlockStyles.Proofs.Text.Layout`: what blanking comments leaves in place

The comments of a text are said here without any reading of it: a comment is what stands from
the first `/*` behind the comments before it to the first `*/` behind that, the two not sharing
the star, or to the end of the text. There is one way to cut a text at its comments, and a
blanked text has, byte by byte, what the text has outside of them, and line feeds and spaces
inside.

* `existsUnique_isCutAtComments`: a text has its comments, and no others.
* `IsCutAtComments.blankComments_eq`: the scanner blanks the comments of the cut.
* `IsCutAtComments.bytes_blankComments`: so a blanked text has each byte of the text, or a blank.
* `keepsLayout_blankComments`: what a blanked text has in common with the text.
-/

set_option autoImplicit false

namespace BlockStyles.Text

/-! ### First places -/

variable {a b : Char} {text front rest : List Char}

/-- Behind another character the two are still to come for the first time. This is the
step of the inductions that walk up to the first opening or closing mark. -/
theorem first_of_cons {c : Char} (h : ¬ [a, b] <:+: (c :: front) ++ [a]) :
    ¬ [a, b] <:+: front ++ [a] :=
  fun hin => h (hin.trans (List.suffix_cons c _).isInfix)

/-- If they come for the first time behind a character, they do not begin at it. So
the branch of the scanner for a mark is not taken there. -/
theorem ne_of_first {c : Char} {more : List Char} (hne : a ≠ b)
    (h : ¬ [a, b] <:+: (c :: front) ++ [a]) (hc : c = a) : front ++ a :: rest ≠ b :: more := by
  intro heq
  cases front with
  | nil => exact hne (List.cons.inj heq).1
  | cons d front =>
    obtain ⟨rfl, -⟩ := List.cons.inj heq
    exact h ⟨[], front ++ [a], by simp [hc]⟩

/-- Two characters that stand somewhere in a text stand there for a first time. The
front is taken together with the first of the two, for the two could also stand across
its end. -/
theorem exists_first (h : [a, b] <:+: text) :
    ∃ front rest, text = front ++ a :: b :: rest ∧ ¬ [a, b] <:+: front ++ [a] := by
  induction text with
  | nil => exact absurd (List.infix_nil.1 h) (List.cons_ne_nil _ _)
  | cons c text ih =>
    by_cases hhere : [a, b] <+: c :: text
    · obtain ⟨rest, hrest⟩ := hhere
      exact ⟨[], rest, hrest.symm, fun hin => absurd hin.length_le (by simp)⟩
    · obtain ⟨front, rest, rfl, hfirst⟩ := ih ((List.infix_cons_iff.1 h).resolve_left hhere)
      refine ⟨c :: front, rest, rfl, fun hin => ?_⟩
      rcases List.infix_cons_iff.1 hin with hfront | hin
      · exact hhere (hfront.trans ⟨b :: rest, by simp⟩)
      · exact hfirst hin

/-- Where they stand a first time, they stand again in every longer front. A front
that is longer by one character ends with the first of the two, so `middle` is split
by its length. -/
theorem infix_of_append_eq {middle more : List Char} (hne : middle ≠ [])
    (h : a :: b :: more = middle ++ a :: b :: rest) (front : List Char) :
    [a, b] <:+: front ++ middle ++ [a] := by
  match middle, hne with
  -- The longer front ends between the two characters.
  | [c], _ =>
    obtain ⟨hc, htail⟩ := List.cons.inj h
    obtain ⟨hb, -⟩ := List.cons.inj htail
    exact ⟨front, [], by simp [← hc, hb]⟩
  | c :: d :: middle, _ =>
    obtain ⟨hc, htail⟩ := List.cons.inj h
    obtain ⟨hd, -⟩ := List.cons.inj htail
    exact ⟨front, middle ++ [a], by simp [← hc, ← hd]⟩

/-- There is one first place. Of two different ones the earlier would stand in the
front of the later. -/
theorem first_unique {front' rest' : List Char} (hfirst : ¬ [a, b] <:+: front ++ [a])
    (hfirst' : ¬ [a, b] <:+: front' ++ [a])
    (h : front ++ a :: b :: rest = front' ++ a :: b :: rest') : front = front' ∧ rest = rest' := by
  rcases List.append_eq_append_iff.1 h with ⟨middle, hfront, hrest⟩ | ⟨middle, hfront, hrest⟩
  · rcases eq_or_ne middle [] with rfl | hne
    · rw [List.append_nil] at hfront
      cases hrest
      exact ⟨hfront.symm, rfl⟩
    · exact absurd (hfront ▸ infix_of_append_eq hne hrest front) hfirst'
  · rcases eq_or_ne middle [] with rfl | hne
    · rw [List.append_nil] at hfront
      cases hrest
      exact ⟨hfront, rfl⟩
    · exact absurd (hfront ▸ infix_of_append_eq hne hrest front') hfirst

/-! ### Comments -/

/-- A comment with a text behind it: it ends at the first `*/` that does not share a star with its
`/*`, and if there is none, nothing is behind it. -/
inductive IsComment : List Char → List Char → Prop where
  | closed (inner rest : List Char) (h : ¬ ['*', '/'] <:+: inner ++ ['*']) :
      IsComment ('/' :: '*' :: (inner ++ ['*', '/'])) rest
  | unclosed (inner : List Char) (h : ¬ ['*', '/'] <:+: inner) :
      IsComment ('/' :: '*' :: inner) []

/-- A stretch of a text: a comment, or what stands before, between or behind comments. -/
structure Stretch where
  text : List Char
  isComment : Bool
deriving DecidableEq, Repr

/-- The stretches are what the text is cut into at its comments. Each comment begins at the first
`/*` behind the one before it. -/
inductive IsCutAtComments : List Char → List Stretch → Prop where
  | plain (text : List Char) (h : ¬ ['/', '*'] <:+: text) : IsCutAtComments text [⟨text, false⟩]
  | comment (front comment rest : List Char) (stretches : List Stretch)
      (hfirst : ¬ ['/', '*'] <:+: front ++ ['/']) (hcomment : IsComment comment rest)
      (hrest : IsCutAtComments rest stretches) :
      IsCutAtComments (front ++ (comment ++ rest)) (⟨front, false⟩ :: ⟨comment, true⟩ :: stretches)

/-- A comment begins with its opening mark, closed or not. So none is empty, and what
stands behind its mark is a shorter text. -/
theorem IsComment.exists_cons {comment : List Char} (h : IsComment comment rest) :
    ∃ more, comment = '/' :: '*' :: more := by
  cases h with
  | closed inner => exact ⟨_, rfl⟩
  | unclosed inner => exact ⟨inner, rfl⟩

/-- Where a comment begins, one can be told from what stands behind it. Its closing
mark is looked for behind the opening one, so that the two do not share a star. -/
theorem exists_isComment (inner : List Char) :
    ∃ comment rest, IsComment comment rest ∧ '/' :: '*' :: inner = comment ++ rest := by
  by_cases hclose : ['*', '/'] <:+: inner
  · obtain ⟨front, rest, rfl, hfirst⟩ := exists_first hclose
    exact ⟨_, rest, .closed front rest hfirst, by simp⟩
  · exact ⟨_, [], .unclosed inner hclose, (List.append_nil _).symm⟩

/-- Every text can be cut at its comments. What is left behind a comment is shorter
than the text, so the recursion is on the length; the cut itself is not made by the
scanner. -/
theorem exists_isCutAtComments (text : List Char) :
    ∃ stretches, IsCutAtComments text stretches := by
  by_cases hopen : ['/', '*'] <:+: text
  · obtain ⟨front, inner, htext, hfirst⟩ := exists_first hopen
    obtain ⟨comment, rest, hcomment, hinner⟩ := exists_isComment inner
    have hlength : rest.length < text.length := by
      obtain ⟨more, rfl⟩ := hcomment.exists_cons
      rw [htext, hinner]
      simp only [List.length_append, List.length_cons]
      omega
    obtain ⟨stretches, hrest⟩ := exists_isCutAtComments rest
    rw [htext, hinner]
    exact ⟨_, .comment front comment rest stretches hfirst hcomment hrest⟩
  · exact ⟨_, .plain text hopen⟩
termination_by text.length

/-- A comment ends in one place. If one reading of it were closed and the other not,
the closing mark would stand in the one that has none. -/
theorem IsComment.unique {comment comment' rest' : List Char} (h : IsComment comment rest)
    (h' : IsComment comment' rest') (heq : comment ++ rest = comment' ++ rest') :
    comment = comment' ∧ rest = rest' := by
  cases h with
  | closed inner rest hfirst =>
    cases h' with
    | closed inner' rest' hfirst' =>
      have hinner : inner ++ '*' :: '/' :: rest = inner' ++ '*' :: '/' :: rest' := by
        simpa using heq
      obtain ⟨rfl, rfl⟩ := first_unique hfirst hfirst' hinner
      exact ⟨rfl, rfl⟩
    | unclosed inner' hnone =>
      exact absurd ⟨inner, rest, by simpa using heq⟩ hnone
  | unclosed inner hnone =>
    cases h' with
    | closed inner' rest' => exact absurd ⟨inner', rest', by simpa using heq.symm⟩ hnone
    | unclosed inner' => exact ⟨by simpa using heq, rfl⟩

/-- A text is cut at its comments in one way. The first stretches agree since a first
opening mark is unique, then the comments do, and the rest is the induction
hypothesis. -/
theorem IsCutAtComments.unique {stretches stretches' : List Stretch}
    (h : IsCutAtComments text stretches) (h' : IsCutAtComments text stretches') :
    stretches = stretches' := by
  induction h generalizing stretches' with
  | plain text hnone =>
    cases h' with
    | plain => rfl
    | comment front comment rest _ _ hcomment =>
      obtain ⟨more, rfl⟩ := hcomment.exists_cons
      exact absurd ⟨front, more ++ rest, by simp⟩ hnone
  | comment front comment rest stretches hfirst hcomment hrest ih =>
    -- The text is given a name, so that both ways to cut it can be taken apart.
    generalize htext : front ++ (comment ++ rest) = text at h'
    obtain ⟨more, hopen⟩ := hcomment.exists_cons
    cases h' with
    | plain _ hnone =>
      exact absurd ⟨front, more ++ rest, by rw [← htext, hopen]; simp⟩ hnone
    | comment front' comment' rest' stretches' hfirst' hcomment' hrest' =>
      obtain ⟨more', hopen'⟩ := hcomment'.exists_cons
      have hfront : front = front' := by
        rw [hopen, hopen'] at htext
        exact (first_unique hfirst hfirst' htext).1
      obtain ⟨rfl, rfl⟩ := hcomment.unique hcomment' (List.append_cancel_left (hfront ▸ htext))
      rw [hfront, ih hrest']

/-- A text has its comments, and no others. So one may speak of the comments of a text
without saying how they have been found. -/
theorem existsUnique_isCutAtComments (text : List Char) :
    ∃! stretches, IsCutAtComments text stretches := by
  obtain ⟨stretches, h⟩ := exists_isCutAtComments text
  exact ⟨stretches, h, fun _ h' => h'.unique h⟩

/-! ### Blanking stretch by stretch -/

/-- What a stretch becomes. -/
def Stretch.blanked (stretch : Stretch) : List Char :=
  if stretch.isComment then stretch.text.flatMap blankOut else stretch.text

/-- Up to the first `/*` a text is left as it is, and from there on the scanner is
inside a comment. -/
theorem blankComments_append (h : ¬ ['/', '*'] <:+: front ++ ['/']) (rest : List Char) :
    blankComments (front ++ '/' :: '*' :: rest) = front ++ ' ' :: ' ' :: blankToClose rest := by
  induction front with
  | nil => rfl
  | cons c front ih =>
    have hstart : ∀ more, c = '/' → front ++ '/' :: '*' :: rest = '*' :: more → False :=
      fun more hc => ne_of_first (by decide) h hc
    rw [List.cons_append, blankComments.eq_2 c _ hstart, ih (first_of_cons h), List.cons_append]

/-- Inside a comment everything up to the first `*/` is blanked, and then the scanner
is outside again. -/
theorem blankToClose_append (h : ¬ ['*', '/'] <:+: front ++ ['*']) (rest : List Char) :
    blankToClose (front ++ '*' :: '/' :: rest)
      = front.flatMap blankOut ++ ' ' :: ' ' :: blankComments rest := by
  induction front with
  | nil => rfl
  | cons c front ih =>
    have hstart : ∀ more, c = '*' → front ++ '*' :: '/' :: rest = '/' :: more → False :=
      fun more hc => ne_of_first (by decide) h hc
    rw [List.cons_append, blankToClose.eq_2 c _ hstart, ih (first_of_cons h), List.flatMap_cons,
      List.append_assoc]

/-- Inside a comment that is not closed all is blanked, up to the end of the text.
Nothing stops the blanking, so each character is blanked on its own. -/
theorem blankToClose_of_plain (h : ¬ ['*', '/'] <:+: text) :
    blankToClose text = text.flatMap blankOut := by
  induction text with
  | nil => simp [blankToClose]
  | cons c text ih =>
    have htext : ¬ ['*', '/'] <:+: text := fun hin =>
      h (hin.trans (List.suffix_cons c text).isInfix)
    rw [blankToClose.eq_2, ih htext, List.flatMap_cons]
    rintro more rfl rfl
    exact h ⟨[], more, rfl⟩

/-- The first comment of a text is blanked character by character, and what stands
behind it as if it stood alone. The marks are blanked like any other characters of the
comment. -/
theorem IsComment.blankComments_append {comment : List Char} (h : IsComment comment rest)
    (hfirst : ¬ ['/', '*'] <:+: front ++ ['/']) :
    blankComments (front ++ (comment ++ rest))
      = front ++ (comment.flatMap blankOut ++ blankComments rest) := by
  have hmarks : blankOut '/' = [' '] ∧ blankOut '*' = [' '] := by decide
  cases h with
  | closed inner rest hclose =>
    have htext : front ++ ('/' :: '*' :: (inner ++ ['*', '/']) ++ rest)
        = front ++ '/' :: '*' :: (inner ++ '*' :: '/' :: rest) := by simp
    rw [htext, Text.blankComments_append hfirst, blankToClose_append hclose]
    simp [hmarks]
  | unclosed inner hclose =>
    rw [List.append_nil, Text.blankComments_append hfirst, blankToClose_of_plain hclose]
    simp [hmarks, blankComments]

/-- A text is blanked by blanking its comments. Here the scanner meets the description
of comments that does not mention it. -/
theorem IsCutAtComments.blankComments_eq {stretches : List Stretch}
    (h : IsCutAtComments text stretches) :
    blankComments text = stretches.flatMap Stretch.blanked := by
  induction h with
  | plain text hnone => simp [blankComments_of_plain text hnone, Stretch.blanked]
  | comment front comment rest stretches hfirst hcomment _ ih =>
    simp [hcomment.blankComments_append hfirst, ih, Stretch.blanked]

/-- The stretches of a text make up the text. No character is lost by cutting, and
none is in two stretches. -/
theorem IsCutAtComments.flatMap_text {stretches : List Stretch}
    (h : IsCutAtComments text stretches) : stretches.flatMap Stretch.text = text := by
  induction h with
  | plain text => simp
  | comment front comment rest stretches _ _ _ ih => simp [ih]

/-! ### Bytes -/

/-- The bytes of a text in UTF-8. -/
def bytes (text : List Char) : List UInt8 :=
  text.flatMap String.utf8EncodeChar

/-- These are the bytes that a string consists of. A string is stored as bytes in
UTF-8, and the bytes of its characters are those. -/
theorem bytes_toList (source : String) : bytes source.toList = source.toByteArray.data.toList := by
  rw [← String.utf8Encode_toList, List.utf8Encode, List.data_toByteArray]
  rfl

/-- The byte of a line feed. -/
def lineFeed : UInt8 := 10

/-- The byte of a space. -/
def space : UInt8 := 32

/-- What a byte becomes: inside a comment a space, unless it is a line feed. -/
def blankByte (inComment : Bool) (byte : UInt8) : UInt8 :=
  if inComment && byte != lineFeed then space else byte

/-- A byte of a line feed belongs to no other character. All bytes of characters that
have more than one are at least 128. -/
theorem eq_of_lineFeed_mem {c : Char} (h : lineFeed ∈ String.utf8EncodeChar c) : c = '\n' := by
  have hbyte : ∀ n : Nat, lineFeed = UInt8.ofNat n ↔ n % 256 = 10 := by
    intro n
    rw [← UInt8.toNat_inj, UInt8.toNat_ofNat']
    exact eq_comm
  have hval : c.val.toNat = 10 := by
    unfold String.utf8EncodeChar at h
    dsimp only at h
    -- The bytes of a character that has more than one are not below 128.
    split_ifs at h <;> simp only [List.mem_cons, List.not_mem_nil, or_false, hbyte] at h <;> omega
  exact Char.ext (UInt32.toNat_inj.1 hval)

/-- A character in a comment is blanked byte by byte: it becomes as many spaces as it
has bytes. This is where the width of characters enters, and it makes the layout exact
in bytes. -/
theorem bytes_blankOut (c : Char) :
    bytes (blankOut c) = (String.utf8EncodeChar c).map (blankByte true) := by
  unfold blankOut
  split
  · rename_i hline
    cases beq_iff_eq.1 hline
    decide
  · rename_i hline
    -- No byte of another character is a line feed, so each of them becomes a space.
    have hother : ∀ byte ∈ String.utf8EncodeChar c, blankByte true byte = space := by
      intro byte hbyte
      have hne : byte ≠ lineFeed := by
        rintro rfl
        exact hline (beq_iff_eq.2 (eq_of_lineFeed_mem hbyte))
      simp [blankByte, hne]
    have hspace : String.utf8EncodeChar ' ' = [space] := by decide
    rw [List.map_congr_left hother, List.map_const', String.length_utf8EncodeChar, bytes,
      List.flatMap_replicate, hspace]
    simp

/-- A stretch is blanked byte by byte, and outside of comments a byte becomes itself.
A stretch is in a comment as a whole or not at all. -/
theorem bytes_blanked (stretch : Stretch) :
    bytes stretch.blanked = (bytes stretch.text).map (blankByte stretch.isComment) := by
  obtain ⟨text, _ | _⟩ := stretch
  · have hid : blankByte false = id := by
      funext byte
      simp [blankByte]
    rw [hid, List.map_id]
    rfl
  · have hblanked : Stretch.blanked ⟨text, true⟩ = text.flatMap blankOut := rfl
    rw [hblanked, bytes, bytes, List.flatMap_assoc, List.map_flatMap]
    exact List.flatMap_congr fun c _ => bytes_blankOut c

/-- For each byte of a text that is cut, whether it is in a comment. -/
def marks (stretches : List Stretch) : List Bool :=
  stretches.flatMap fun stretch => (bytes stretch.text).map fun _ => stretch.isComment

/-- There is one mark for each byte of the stretches. The marks can therefore be put
beside the bytes, one by one. -/
theorem length_marks (stretches : List Stretch) :
    (marks stretches).length = (bytes (stretches.flatMap Stretch.text)).length := by
  simp [marks, bytes, List.flatMap_assoc, List.length_flatMap]

/-- What stretches become is, byte by byte, what the marks make of their bytes. The
marks say for each byte whether it is inside a comment. -/
theorem bytes_flatMap_blanked (stretches : List Stretch) :
    bytes (stretches.flatMap Stretch.blanked)
      = List.zipWith blankByte (marks stretches) (bytes (stretches.flatMap Stretch.text)) := by
  induction stretches with
  | nil => rfl
  | cons stretch stretches ih =>
    have happend : ∀ text more : List Char, bytes (text ++ more) = bytes text ++ bytes more :=
      fun text more => List.flatMap_append
    have hmarks : marks (stretch :: stretches)
        = (bytes stretch.text).map (fun _ => stretch.isComment) ++ marks stretches := rfl
    rw [List.flatMap_cons, List.flatMap_cons, happend, happend, hmarks,
      List.zipWith_append (List.length_map _), ih, bytes_blanked, List.zipWith_map_left,
      List.zipWith_self]

section

variable {stretches : List Stretch}

/-- There is one mark for each byte of a text that is cut at its comments. -/
theorem IsCutAtComments.length_marks (h : IsCutAtComments text stretches) :
    (marks stretches).length = (bytes text).length := by
  rw [Text.length_marks, h.flatMap_text]

/-- A text is blanked byte by byte, as its comments tell. The parts of `KeepsLayout`
are read off this equation. -/
theorem IsCutAtComments.bytes_blankComments (h : IsCutAtComments text stretches) :
    bytes (blankComments text) = List.zipWith blankByte (marks stretches) (bytes text) := by
  rw [h.blankComments_eq, bytes_flatMap_blanked, h.flatMap_text]

/-- The marks and the bytes of a text end at the same place. -/
theorem IsCutAtComments.marks_eq_none_iff (h : IsCutAtComments text stretches) (i : Nat) :
    (marks stretches)[i]? = none ↔ (bytes text)[i]? = none := by
  rw [List.getElem?_eq_none_iff, List.getElem?_eq_none_iff, h.length_marks]

/-- Where there is a mark there is a byte, and it is blanked by the mark. Nothing but
the byte and the mark at the place decides what stands there in the blanked text. -/
theorem IsCutAtComments.exists_byte (h : IsCutAtComments text stretches) {i : Nat}
    {inComment : Bool} (hmark : (marks stretches)[i]? = some inComment) :
    ∃ byte, (bytes text)[i]? = some byte
      ∧ (bytes (blankComments text))[i]? = some (blankByte inComment byte) := by
  cases hbyte : (bytes text)[i]? with
  | none =>
    rw [(h.marks_eq_none_iff i).2 hbyte] at hmark
    cases hmark
  | some byte =>
    exact ⟨byte, rfl, by rw [h.bytes_blankComments, List.getElem?_zipWith, hmark, hbyte]⟩

end

/-! ### The layout -/

/-- What blanking keeps of a text that is cut at its comments, and what it leaves. Places are
counted in bytes. -/
structure KeepsLayout (source : List Char) (stretches : List Stretch) (blanked : List Char) :
    Prop where
  /-- Each byte of the source is in a comment or outside. -/
  length_marks : (marks stretches).length = (bytes source).length
  length_eq : (bytes blanked).length = (bytes source).length
  lineFeed_iff : ∀ i : Nat, (bytes blanked)[i]? = some lineFeed ↔ (bytes source)[i]? = some lineFeed
  outside : ∀ i : Nat, (marks stretches)[i]? = some false →
    (bytes blanked)[i]? = (bytes source)[i]?
  inside : ∀ i : Nat, (marks stretches)[i]? = some true →
    (bytes blanked)[i]? = some space ∨ (bytes blanked)[i]? = some lineFeed
  no_opener : ¬ ['/', '*'] <:+: blanked
  again : blankComments blanked = blanked

/-- Line feeds stay, and no other byte becomes one. So the lines of a text are the
same before and after blanking. -/
theorem blankByte_eq_lineFeed_iff (inComment : Bool) (byte : UInt8) :
    blankByte inComment byte = lineFeed ↔ byte = lineFeed := by
  unfold blankByte
  split
  · rename_i h
    simp only [Bool.and_eq_true, bne_iff_ne] at h
    exact iff_of_false (by decide) h.2
  · rfl

/-- Blanking leaves no `/*`: at its slash the source could be cut in two, and then the
star would have gone with the slash. So blanking a second time finds nothing to blank. -/
theorem not_opener_blankComments (source : List Char) :
    ¬ ['/', '*'] <:+: blankComments source := by
  rintro ⟨front, back, h⟩
  rw [List.append_assoc] at h
  obtain ⟨-, rest, -, -, hcut, hrest⟩ :=
    exists_append_of_blankComments (by decide) (by decide) h.symm
  have hstar : ∃ more, rest = '*' :: more := by
    unfold blankComments at hrest
    split at hrest
    · cases hrest
    · exact ⟨_, congrArg (· :: _) (List.cons.inj hrest).1⟩
    · cases hrest
  obtain ⟨more, rfl⟩ := hstar
  cases hcut

/-- A text has its comments, and a blanked text its layout: the same number of bytes,
line feeds at the same places, the same bytes outside of comments, and no comment any
more. It holds for every text, whether or not its comments are closed. Comments are
told without the code that blanks them, and there is only one way to cut a text at
them. -/
theorem keepsLayout_blankComments (source : List Char) :
    (∃! stretches, IsCutAtComments source stretches) ∧
      ∀ stretches, IsCutAtComments source stretches →
        KeepsLayout source stretches (blankComments source) := by
  refine ⟨existsUnique_isCutAtComments source, fun stretches h => ?_⟩
  exact {
    length_marks := h.length_marks
    length_eq := by
      rw [h.bytes_blankComments, List.length_zipWith, h.length_marks, Nat.min_self]
    lineFeed_iff := by
      -- Behind the end there is no byte in either text; up to it the mark decides.
      intro i
      cases hmark : (marks stretches)[i]? with
      | none =>
        rw [h.bytes_blankComments, List.getElem?_zipWith, hmark, (h.marks_eq_none_iff i).1 hmark]
      | some inComment =>
        obtain ⟨byte, hsource, hblanked⟩ := h.exists_byte hmark
        rw [hsource, hblanked, Option.some_inj, Option.some_inj, blankByte_eq_lineFeed_iff]
    outside := by
      intro i hmark
      obtain ⟨byte, hsource, hblanked⟩ := h.exists_byte hmark
      rw [hsource, hblanked]
      rfl
    inside := by
      intro i hmark
      obtain ⟨byte, -, hblanked⟩ := h.exists_byte hmark
      rw [hblanked, Option.some_inj, Option.some_inj]
      by_cases hline : byte = lineFeed
      · exact .inr ((blankByte_eq_lineFeed_iff true byte).2 hline)
      · exact .inl (by simp [blankByte, hline])
    no_opener := not_opener_blankComments source
    again := blankComments_of_plain _ (not_opener_blankComments source) }

end BlockStyles.Text
