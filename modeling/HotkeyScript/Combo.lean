import HotkeyScript.Modifier
import HotkeyScript.Text.LowerCase

/-!
# `HotkeyScript.Combo`: modifiers with at most one key

A combo is what one hand presses: some modifiers and one key, or
modifiers alone, as in `^::`.

* `Combo.symbols` and `Combo.display`: the combo in symbols, such as
  `^+k`.
* `Combo.describe`: the combo in words, such as `Ctrl+Shift+k`.
* `Combo.sameKey`: whether two combos have the same key in either
  case.
-/

set_option autoImplicit false

namespace HotkeyScript

/-- A set of modifiers and the key pressed with them, if any. -/
structure Combo where
  /-- The modifiers to hold. -/
  modifiers : ModifierSet
  /-- The key to press. -/
  key : Option Char
  deriving DecidableEq, Repr, Inhabited

namespace Combo

/-- The combo of no modifier and no key. -/
def empty : Combo := ⟨∅, none⟩

/-- The combo with one more modifier. -/
def hold (combo : Combo) (m : Modifier) : Combo :=
  { combo with modifiers := combo.modifiers ∪ .single m }

/-- The combo with this key. -/
def press (combo : Combo) (key : Char) : Combo :=
  { combo with key := some key }

/-- The combo in symbols, its key last. -/
def symbols (combo : Combo) : List Char :=
  combo.modifiers.symbols ++ combo.key.toList

/-- The combo in symbols. -/
def display (combo : Combo) : String := String.ofList combo.symbols

/-- The combo in words: the names of its modifiers and then its key,
joined by `+`. -/
def describe (combo : Combo) : String :=
  "+".intercalate
    (combo.modifiers.names ++ combo.key.toList.map String.singleton)

/-- Whether two combos have the same key, case apart. A missing key is
only the same as a missing key. -/
def sameKey (a b : Combo) : Bool :=
  a.key.map Text.lowerCase == b.key.map Text.lowerCase

end Combo

end HotkeyScript
