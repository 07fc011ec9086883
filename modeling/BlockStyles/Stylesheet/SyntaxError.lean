import BlockStyles.Text.Blank
import BlockStyles.Text.Position

/-!
# `BlockStyles.Stylesheet.SyntaxError`: why a source is no stylesheet

A syntax error says which kind of statement was being read, what stood at the
place where reading stopped, and where that was. What stood there is quoted
from a window of twenty characters; if the window holds nothing but white
space, the error speaks of the end of the input.
-/

set_option autoImplicit false

namespace BlockStyles

open BlockStyles.Text

/-- The two kinds of top-level statements. -/
inductive StatementKind where
  | atRule
  | rule
deriving DecidableEq, Repr

/-- A statement that could not be read. -/
structure SyntaxError where
  statement : StatementKind
  /-- What stood where reading stopped; `none` for the end of the input. -/
  found : Option String
  position : Position
deriving DecidableEq, Repr

namespace SyntaxError

/-- How many characters of the rest an error looks at. -/
def window : Nat := 20

/-- The error for a statement of `source` whose reading stopped at `left`. -/
def of (statement : StatementKind) (source left : List Char) : SyntaxError where
  statement
  found :=
    match trim (left.take window) with
    | [] => none
    | snippet => some (.ofList snippet)
  position := .ofSuffix source left

/-- What went wrong, in words. -/
def message (error : SyntaxError) : String :=
  (match error.statement with
    | .atRule => "Malformed at-rule"
    | .rule => "Invalid rule")
  ++ ": unexpected "
  ++ (match error.found with
    | none => "end of input"
    | some snippet => "`" ++ snippet ++ "`")

/-- What went wrong and where, in words. -/
def text (error : SyntaxError) : String :=
  error.message ++ " at line " ++ toString error.position.line.toNat
    ++ ", column " ++ toString error.position.column.toNat

end SyntaxError

end BlockStyles
