import BlockStyles.Text.Blank
import BlockStyles.Text.Identifier
import BlockStyles.Text.Quoted

/-!
# `BlockStyles.Stylesheet.BlockReference`: what a block reference says

A stylesheet refers to another block by `@block-reference alias from "path";`.
What stands between the name of the at-rule and the semicolon is read here.
-/

set_option autoImplicit false

namespace BlockStyles

open BlockStyles.Text

/-- A reference to another block: the alias it has in this stylesheet, and the
path as it is written. -/
structure BlockReference where
  localName : String
  path : String
deriving DecidableEq, Repr

namespace BlockReference

/-- The name of the at-rule that refers to a block. -/
def atRuleName : String := "block-reference"

/-- Reads `from` and a quoted path. Everything behind `from`, without the white
space around it, is the path; it has to be quoted and must not be empty. -/
def readPath (text : List Char) : Reading String :=
  match skipBlanks text with
  | 'f' :: 'r' :: 'o' :: 'm' :: rest =>
    let quoted := trim (skipBlanks rest)
    let path := unquote quoted
    if path = quoted ∨ path = [] then .error (skipBlanks rest) else .ok (.ofList path, [])
  | left => .error left

/-- The reference that the prelude of an at-rule makes. -/
def ofPrelude? (prelude : String) : Option BlockReference :=
  match Identifier.read (skipBlanks prelude.toList) with
  | .error _ => none
  | .ok (localName, rest) =>
    match readPath rest with
    | .error _ => none
    | .ok (path, _) => some { localName, path }

end BlockReference

end BlockStyles
