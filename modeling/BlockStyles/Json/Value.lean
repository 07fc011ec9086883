/-!
# `BlockStyles.Json.Value`: JSON values

The values that documents and options are made of. Two kinds of correct JSON
have no place in either: numbers that are not plain natural numbers, and
strings with one half of a surrogate pair, which are not Unicode text. They
read as `foreign`, and so does an object with such a string for a name.
-/

set_option autoImplicit false

namespace BlockStyles.Json

/-- A JSON value. -/
inductive Value where
  | null
  | bool (value : Bool)
  /-- A number written with digits alone. -/
  | natural (value : Nat)
  | string (value : String)
  | array (items : List Value)
  /-- The members in the order in which they are written, repeated names included. -/
  | object (members : List (String × Value))
  /-- A correct value that neither documents nor options can hold. -/
  | foreign
deriving Inhabited

namespace Value

/-- The string that a value is. -/
def string? : Value → Option String
  | string s => some s
  | _ => none

/-- The truth value that a value is. -/
def bool? : Value → Option Bool
  | bool b => some b
  | _ => none

/-- The 32-bit number that a value is. -/
def word? : Value → Option UInt32
  | natural n => if n < UInt32.size then some (.ofNat n) else none
  | _ => none

/-- The items of an array, each read by `read`. -/
def list? {α : Type} (read : Value → Option α) : Value → Option (List α)
  | array items => items.mapM read
  | _ => none

/-- The members of an object, each value read by `read`. -/
def members? {α : Type} (read : Value → Option α) : Value → Option (List (String × α))
  | object members => members.mapM fun (name, value) => (read value).map (name, ·)
  | _ => none

/-- What `read` makes of a value, where a missing value and `null` say that there
is none. -/
def optional {α : Type} (read : Value → Option α) : Option Value → Option (Option α)
  | none => some none
  | some null => some none
  | some value => (read value).map some

/-- The fields of a record, in the order of their names. A record is an object
with each field at most once, other members being ignored, or an array of
exactly its fields. -/
def fields? (names : List String) : Value → Option (List (Option Value))
  | array items => if items.length = names.length then some (items.map some) else none
  | object members =>
    names.mapM fun name =>
      match members.filter (·.1 == name) with
      | [] => some none
      | [(_, value)] => some (some value)
      | _ => none
  | _ => none

end Value

end BlockStyles.Json
