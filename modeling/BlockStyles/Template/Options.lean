import BlockStyles.Error
import BlockStyles.Json.Reader
import BlockStyles.Template.Validator

/-!
# `BlockStyles.Template.Options`: which validators run

All built-in validators run unless they are switched off; custom ones are added
and run after them. Options can be read from JSON: an object that gives the
names of built-in validators truth values.
-/

set_option autoImplicit false

namespace BlockStyles

/-- The choice of validators. -/
structure Options where
  /-- The built-in validators that do not run. -/
  disabled : List BuiltIn
  /-- The other validators, by name, in the order in which they run. -/
  custom : List (String × Check)

namespace Options

/-- All built-in validators and no others. -/
def default : Options := ⟨[], []⟩

/-- Switches a built-in validator on or off. -/
def toggle (options : Options) (validator : BuiltIn) (enabled : Bool) : Options :=
  let others := options.disabled.filter (· != validator)
  { options with disabled := if enabled then others else others ++ [validator] }

/-- Switches a built-in validator, given by name, on or off. -/
def set (options : Options) (name : String) (enabled : Bool) : Except Error Options :=
  match BuiltIn.ofName? name with
  | some validator => .ok (options.toggle validator enabled)
  | none => .error (.general (.unknownValidator name))

/-- Adds a validator. -/
def addCustom (options : Options) (name : String) (check : Check) : Options :=
  { options with custom := options.custom ++ [(name, check)] }

/-- Whether a built-in validator runs. -/
def runs (options : Options) (validator : BuiltIn) : Bool :=
  !options.disabled.contains validator

/-- Whether a validator of a name runs. -/
def isEnabled (options : Options) (name : String) : Bool :=
  match BuiltIn.ofName? name with
  | some validator => options.runs validator
  | none => options.custom.any (·.1 == name)

/-- The validators that run, in their order. -/
def validators (options : Options) : List Validator :=
  (BuiltIn.all.filter options.runs).map .builtIn
    ++ options.custom.map fun (name, check) => .custom name check

/-- For each built-in validator whether it runs. -/
def toggles (options : Options) : List (String × Bool) :=
  BuiltIn.all.map fun validator => (validator.name, options.runs validator)

/-- How options are described. -/
def text (options : Options) : String :=
  Validator.listText options.validators

/-- The options that names with truth values make, taken in the order of the
names. The first name that no built-in validator has is the error. -/
def ofToggles (toggles : List (String × Bool)) : Except String Options :=
  let sorted := SortedList.ofList Prod.fst toggles
  sorted.toList.foldlM (fun options (name, enabled) =>
    match BuiltIn.ofName? name with
    | some validator => .ok (options.toggle validator enabled)
    | none => .error name) default

/-- Reads options. The names are looked at as soon as the object is complete, so
an unknown name counts more than anything behind the object. -/
def ofJson (text : String) : Except Error Options :=
  let malformed : Except Error Options := .error (.general (.invalidOptions none))
  match Json.readFront? text with
  | none => malformed
  | some (value, rest) =>
    match value.members? Json.Value.bool? with
    | none => malformed
    | some toggles =>
      match ofToggles toggles with
      | .error name => .error (.general (.invalidOptions (some name)))
      | .ok options => if Text.skipBlanks rest = [] then .ok options else malformed

end Options

end BlockStyles
