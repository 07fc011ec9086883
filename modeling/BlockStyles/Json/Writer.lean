import BlockStyles.Json.Value

/-!
# `BlockStyles.Json.Writer`: the written form of JSON values

Values are written over several lines, each level two spaces further in. Empty
arrays and objects stay on one line. In strings only what has to be escaped is:
the quote, the backslash, and the characters below U+0020.
-/

set_option autoImplicit false

namespace BlockStyles.Json

/-- The digits of a number below 16, in lower case. -/
def hexDigit (n : Nat) : Char :=
  n.digitChar

/-- The written form of one character of a string. -/
def escapeChar (c : Char) : List Char :=
  if c == '"' then ['\\', '"']
  else if c == '\\' then ['\\', '\\']
  else if c == '\u0008' then ['\\', 'b']
  else if c == '\u000c' then ['\\', 'f']
  else if c == '\n' then ['\\', 'n']
  else if c == '\r' then ['\\', 'r']
  else if c == '\t' then ['\\', 't']
  else if c.toNat < 0x20 then
    ['\\', 'u', '0', '0', hexDigit (c.toNat / 16), hexDigit (c.toNat % 16)]
  else [c]

/-- A string between quotes. -/
def writeString (s : String) : List Char :=
  '"' :: s.toList.flatMap escapeChar ++ ['"']

/-- A new line at a level of nesting. -/
def newLine (level : Nat) : List Char :=
  '\n' :: List.replicate (2 * level) ' '

mutual

/-- The written form of a value that stands at a level of nesting. A foreign
value, which no document holds, is written like a missing one. -/
def Value.write (level : Nat) : Value → List Char
  | .null => ['n', 'u', 'l', 'l']
  | .bool true => ['t', 'r', 'u', 'e']
  | .bool false => ['f', 'a', 'l', 's', 'e']
  | .natural n => Nat.toDigits 10 n
  | .string s => writeString s
  | .array [] => ['[', ']']
  | .array (item :: items) =>
    '[' :: newLine (level + 1) ++ item.write (level + 1) ++ writeItems (level + 1) items
      ++ newLine level ++ [']']
  | .object [] => ['{', '}']
  | .object ((name, value) :: members) =>
    '{' :: newLine (level + 1) ++ writeString name ++ [':', ' '] ++ value.write (level + 1)
      ++ writeMembers (level + 1) members ++ newLine level ++ ['}']
  | .foreign => ['n', 'u', 'l', 'l']

/-- The items of an array behind the first. -/
def writeItems (level : Nat) : List Value → List Char
  | [] => []
  | item :: items => ',' :: newLine level ++ item.write level ++ writeItems level items

/-- The members of an object behind the first. -/
def writeMembers (level : Nat) : List (String × Value) → List Char
  | [] => []
  | (name, value) :: members =>
    ',' :: newLine level ++ writeString name ++ [':', ' '] ++ value.write level
      ++ writeMembers level members

end

/-- The written form of a value as a text of its own. -/
def Value.text (value : Value) : String :=
  .ofList (value.write 0)

end BlockStyles.Json
