import BlockStyles.Selector.Basic
import BlockStyles.Text.Position

/-!
# `BlockStyles.Stylesheet.Basic`: stylesheets

A stylesheet is a list of statement at-rules and a list of rules. A rule gives
selectors to the declarations written in it; further rules may be nested among
them. Everything written as a statement carries the place where it starts.
-/

set_option autoImplicit false

namespace BlockStyles

open BlockStyles.Text (Position)
open BlockStyles.Selector (Chain)

/-- A value given to a property. The value is raw text, without the mark of
importance. -/
structure Declaration where
  property : String
  value : String
  important : Bool
  position : Position
deriving DecidableEq, Repr, Inhabited

/-- What stands between the braces of a rule, where `ρ` are the nested rules. -/
inductive Item (ρ : Type) where
  | declaration (declaration : Declaration)
  | rule (rule : ρ)
deriving Inhabited

/-- Selectors with the items they apply to. -/
structure Rule where
  selectors : List Chain
  items : List (Item Rule)
  position : Position
deriving Inhabited

/-- A statement that starts with `@`, such as `@block-reference other from "./other.css";`:
its name and the raw text behind it. -/
structure AtRule where
  name : String
  prelude : String
  position : Position
deriving DecidableEq, Repr, Inhabited

/-- At-rules and rules, each in the order in which they are written. -/
structure Stylesheet where
  atRules : List AtRule
  rules : List Rule
deriving Inhabited

namespace Item

/-- The declaration that an item is. -/
def declaration? {ρ : Type} : Item ρ → Option Declaration
  | declaration d => some d
  | rule _ => none

/-- The nested rule that an item is. -/
def rule? {ρ : Type} : Item ρ → Option ρ
  | declaration _ => none
  | rule r => some r

end Item

namespace Rule

/-- The declarations written directly in a rule. -/
def declarations (rule : Rule) : List Declaration :=
  rule.items.filterMap Item.declaration?

/-- The rules nested directly in a rule. -/
def nested (rule : Rule) : List Rule :=
  rule.items.filterMap Item.rule?

end Rule

end BlockStyles
