import BlockStyles.Text.Split

/-!
# `BlockStyles.Path`: from a written reference to the identifier of a file

Files are identified by normalized paths with `/` between their segments. A
reference that starts with `./` or `../` is taken from the directory of the
file that holds it; any other one from the root directory of the library,
unless it is absolute.
-/

set_option autoImplicit false

namespace BlockStyles.Path

open BlockStyles.Text

/-- The segment for this directory. -/
def here : List Char := ['.']

/-- The segment for the directory above. -/
def up : List Char := ['.', '.']

/-- The segments after one more, innermost first. An empty segment and `.` go
nowhere; `..` takes back the segment before it, unless that is a `..` itself or
there is none. -/
def enter (inside : List (List Char)) (segment : List Char) : List (List Char) :=
  if segment = [] ∨ segment = here then
    inside
  else
    match inside with
    | [] => [segment]
    | last :: before => if segment = up ∧ last ≠ up then before else segment :: last :: before

/-- The segments of a path without detours. -/
def normalizeSegments (segments : List (List Char)) : List (List Char) :=
  (segments.foldl enter []).reverse

/-- Whether a path starts at the top. -/
def isAbsolute (path : List Char) : Bool :=
  path.head? == some '/'

/-- A path without empty and `.` segments, and with `..` only in front. -/
def normalize (path : List Char) : List Char :=
  let joined := ['/'].intercalate (normalizeSegments (pieces '/' path))
  if isAbsolute path then '/' :: joined else joined

/-- Whether a reference is taken from the directory of the file that holds it. -/
def isRelative (reference : List Char) : Bool :=
  ['.', '/'].isPrefixOf reference || ['.', '.', '/'].isPrefixOf reference

/-- The directory of a file; empty for a file without one. -/
def directory (file : List Char) : List Char :=
  match splitLast '/' file with
  | some (directory, _) => directory
  | none => []

/-- The directory that a reference, written in the file `referrer` if there is
one, is taken from. -/
def base (referrer : Option (List Char)) (reference root : List Char) : List Char :=
  match referrer, isRelative reference with
  | some file, true => directory file
  | _, _ => if isAbsolute reference then [] else root

/-- A reference below a directory. An empty directory adds nothing. -/
def join (directory reference : List Char) : List Char :=
  match directory with
  | [] => reference
  | _ => (directory.reverse.dropWhile (· == '/')).reverse ++ '/' :: reference

/-- The identifier of the file that a reference means. -/
def resolve (referrer : Option String) (reference root : String) : String :=
  .ofList <| normalize <|
    join (base (referrer.map String.toList) reference.toList root.toList) reference.toList

/-- The name of a block that gives itself none: the name of its file up to the
first point. -/
def defaultBlockName (identifier : String) : String :=
  let file := (identifier.toList.reverse.takeWhile fun c => c != '/' && c != '\\').reverse
  .ofList (file.takeWhile (· != '.'))

end BlockStyles.Path
