import BlockStyles.Proofs.Stylesheet.Viable

/-!
# `BlockStyles.Proofs.Stylesheet.Unexpected`: what an error says it has found

A source that is no stylesheet fails at one place: statements are read one after the other, and the
reading of the first that cannot be read stops there. The error is about this place. Of the text
behind it the error sees a window of twenty characters. It quotes what is in the window apart from
white space, and if there is nothing else in it, it speaks of the end of the input.

So it does at the end, but also in front of twenty characters of white space, whatever stands behind
them. Comments are blanked, so a comment of that length behind an `@` is enough.

* `Stylesheet.ofSource_unexpected`: what an error says about the place where reading stops.
* `Stylesheet.unexpected_end_inside`: an error that speaks of the end of the input far from it.
-/

set_option autoImplicit false

namespace BlockStyles

open BlockStyles.Text

/-- How an error about a statement of the kind begins. -/
def StatementKind.failure (kind : StatementKind) : String :=
  (match kind with
    | .atRule => "Malformed at-rule"
    | .rule => "Invalid rule")
  ++ ": unexpected "

namespace SyntaxError

/-- The snippet is what the window shows of a text, without the white space around it.
This says what the snippet is, apart from how it is cut out. -/
structure Shows (text snippet : List Char) : Prop where
  ne_nil : snippet ≠ []
  trimmed : trim snippet = snippet
  exists_eq : ∃ before after, text.take window = before ++ (snippet ++ after)
    ∧ (∀ c ∈ before, isSpace c) ∧ ∀ c ∈ after, isSpace c

/-- The error is about the place of `text` where `stop` begins. It speaks of the end
of the input if there is only white space in the window, and quotes what there is
otherwise. The window is what counts, and not the end of the text. -/
structure Reports (error : SyntaxError) (text stop : List Char) : Prop where
  position : error.position = .ofSuffix text stop
  atEnd : error.message = error.statement.failure ++ "end of input"
    ↔ ∀ c ∈ stop.take window, isSpace c
  quoted : (∃ c ∈ stop.take window, isSpace c = false) → ∃ snippet, Shows stop snippet
    ∧ error.message = error.statement.failure ++ ("`" ++ String.ofList snippet ++ "`")

variable {text stop : List Char} {kind : StatementKind}

/-- With only white space in the window the error speaks of the end of the input. The
window may be at the end of the text, or in front of a long stretch of white space. -/
theorem message_of_end (h : ∀ c ∈ stop.take window, isSpace c) :
    (SyntaxError.of kind text stop).message = kind.failure ++ "end of input" := by
  rw [message, SyntaxError.of, trim_eq_nil_iff.2 h]
  rfl

/-- Otherwise it quotes the snippet. The snippet is what the window shows of the rest,
trimmed. -/
theorem message_of_snippet (h : trim (stop.take window) ≠ []) :
    (SyntaxError.of kind text stop).message
      = kind.failure ++ ("`" ++ String.ofList (trim (stop.take window)) ++ "`") := by
  unfold message SyntaxError.of
  cases htrim : trim (stop.take window) with
  | nil => exact absurd htrim h
  | cons c snippet => rfl

/-- What the error about a place says. The two messages differ in any case, since only
one of them has a quotation mark where the quotation would begin. -/
theorem reports_of (kind : StatementKind) (text stop : List Char) :
    (SyntaxError.of kind text stop).Reports text stop where
  position := rfl
  atEnd := by
    refine ⟨fun h => trim_eq_nil_iff.1 ?_, message_of_end⟩
    by_contra hsnippet
    rw [message_of_snippet hsnippet] at h
    have hquote := congrArg String.toList h
    simp [SyntaxError.of] at hquote
  quoted := by
    rintro ⟨c, hc, hspace⟩
    have hsnippet : trim (stop.take window) ≠ [] := fun hnil => by
      rw [trim_eq_nil_iff.1 hnil c hc] at hspace
      cases hspace
    exact ⟨_, ⟨hsnippet, trim_trim _, exists_eq_append_trim _⟩, message_of_snippet hsnippet⟩

end SyntaxError

namespace Stylesheet

/-- An error about a source is about the one place where the reading of its statements
stops. It speaks of the end of the input if and only if there is nothing but white
space among the next twenty characters, and quotes these without the white space
around them otherwise. -/
theorem ofSource_unexpected {source : String} {error : SyntaxError}
    (h : ofSource source = .error error) :
    let text := blankComments source.toList
    ∃ stop, stop <:+ text ∧ error.Reports text stop
      ∧ ∀ kind other, FailsAt text kind other text ↔ kind = error.statement ∧ other = stop := by
  intro text
  obtain ⟨kind, stop, hfails, rfl⟩ := exists_failsAt (map_eq_error.1 h)
  refine ⟨stop, hfails.stops.1, SyntaxError.reports_of kind text stop, fun kind' other => ?_⟩
  constructor
  · intro hother
    exact hother.unique hfails
  · rintro ⟨rfl, rfl⟩
    exact hfails

/-- Behind an `@` that no name follows reading stops at once. It is the first
statement of the text, so nothing else is needed to know the error. -/
theorem ofSource_of_sign {source : String} {body : List Char}
    (hplain : blankComments source.toList = '@' :: body)
    (hname : Identifier.read body = .error body) :
    ofSource source = .error (.of .atRule ('@' :: body) body)
      ∧ FailsAt ('@' :: body) .atRule body ('@' :: body) := by
  have hstart : trimStart ('@' :: body) = '@' :: body := rfl
  have hread : AtRule.read ('@' :: body) ('@' :: body) body = .error body := by
    rw [AtRule.read, hname]
  refine ⟨?_, .here _ ?_⟩
  · rw [ofSource, hplain, readStatements_atRule_error hstart hread]
    rfl
  · rw [statement?_atRule hstart, hread]
    rfl

/-- What follows the sign of an at-rule is quoted. The name of the at-rule is missing,
so the place of the error is right behind the sign. -/
theorem ofSource_unexpected_sign :
    let source := "@ x;"
    let text := blankComments source.toList
    ∃ error, (ofSource source = .error error
        ∧ error.message = "Malformed at-rule: unexpected `x;`")
      ∧ ∃ stop, stop <:+ text ∧ error.Reports text stop
        ∧ ∀ kind other, FailsAt text kind other text ↔ kind = error.statement ∧ other = stop := by
  intro source text
  have hplain : text = '@' :: [' ', 'x', ';'] := by decide
  have hsource := (ofSource_of_sign hplain rfl).1
  exact ⟨_, ⟨hsource, by decide⟩, ofSource_unexpected hsource⟩

/-- Twenty blanks behind the sign of an at-rule are taken for the end of the input,
although there is more to be read. The message looks at a window and not at all that
is left. -/
theorem unexpected_end_inside :
    ¬ ∀ (source : String) (error : SyntaxError) (stop : List Char),
        ofSource source = .error error →
        FailsAt (blankComments source.toList) error.statement stop (blankComments source.toList) →
        (error.message = error.statement.failure ++ "end of input" ↔ ∀ c ∈ stop, isSpace c) := by
  intro h
  let body : List Char := List.replicate 20 ' ' ++ ['x', ';']
  let source : String := .ofList ('@' :: body)
  have hplain : blankComments source.toList = '@' :: body := by decide +kernel
  obtain ⟨hsource, hfails⟩ := ofSource_of_sign hplain (by decide)
  -- The window has the twenty blanks, and what stands behind them is out of sight.
  have hwindow : ∀ c ∈ body.take SyntaxError.window, isSpace c := by
    intro c hc
    have htake : body.take SyntaxError.window = List.replicate 20 ' ' := rfl
    rw [htake] at hc
    rw [List.eq_of_mem_replicate hc]
    decide
  have hends : (SyntaxError.of .atRule ('@' :: body) body).message
      = StatementKind.failure .atRule ++ "end of input" := SyntaxError.message_of_end hwindow
  have hall := (h source _ body hsource (hplain ▸ hfails)).1 hends
  exact absurd (hall 'x' (by simp [body])) (by decide)

end Stylesheet

end BlockStyles
