import BlockStyles.Selector.Nesting
import BlockStyles.Stylesheet.Basic

/-!
# `BlockStyles.Stylesheet.Flatten`: rules without nesting

Flattening turns nested rules into rules of their own, with selectors that say
by themselves what they select:

```text
.button { color: white; &[state|active] { color: blue; } .icon { fill: white; } }

.button { color: white; }
.button[state|active] { color: blue; }
.button .icon { fill: white; }
```

A rule comes before the rules nested in it. A rule that holds nothing but
nested rules is dropped; an empty one stays, because it still names its
selectors. Every rule keeps the position it was written at.
-/

set_option autoImplicit false

namespace BlockStyles

open BlockStyles.Selector (Chain nestAll)
open BlockStyles.Text (Position)

mutual

/-- A rule, given its absolute selectors, and everything nested in it. -/
def Rule.flattenAs (selectors : List Chain) : Rule → List Rule
  | ⟨_, items, position⟩ =>
    let own : Rule := ⟨selectors, items.filter (·.declaration?.isSome), position⟩
    let inner := flattenItems selectors items
    if own.items.isEmpty && items.any (·.rule?.isSome) then inner else own :: inner

/-- The rules nested among items, as seen from outside of `outer`. -/
def flattenItems (outer : List Chain) : List (Item Rule) → List Rule
  | [] => []
  | item :: items => flattenItem outer item ++ flattenItems outer items

/-- The rules that an item holds, as seen from outside of `outer`. -/
def flattenItem (outer : List Chain) : Item Rule → List Rule
  | .declaration _ => []
  | .rule ⟨selectors, items, position⟩ =>
    Rule.flattenAs (nestAll outer selectors) ⟨selectors, items, position⟩

end

/-- The rule and everything nested in it, as rules without nesting. -/
def Rule.flatten (rule : Rule) : List Rule :=
  rule.flattenAs rule.selectors

/-- The stylesheet with every nested rule written out. -/
def Stylesheet.flatten (sheet : Stylesheet) : Stylesheet :=
  { sheet with rules := sheet.rules.flatMap Rule.flatten }

end BlockStyles
