import HotkeyScript.Combo

/-!
# `HotkeyScript.Hotkey`: declared hotkeys

A hotkey is declared by one combo, such as `^!k`, or by a chord of two
combos pressed one after the other, such as `^k & ^m`.

* `Hotkey.describe`: the hotkey in words.
* `Hotkey.declaration`: the hotkey in symbols, as a declaration
  without blanks and without a body.
* `Hotkey.sameTrigger`: the equality by which a script is searched. It
  looks at the first combo only, so `a & b` and `a & c` are the same
  trigger.
-/

set_option autoImplicit false

namespace HotkeyScript

/-- A declared hotkey and the line that declares it. -/
structure Hotkey where
  /-- The line, as it stands in the script. -/
  text : String
  /-- The combo, or the first one of a chord. -/
  first : Combo
  /-- The second combo of a chord. -/
  second : Option Combo
  deriving DecidableEq, Repr

namespace Hotkey

/-- Whether the hotkey takes two combos. -/
def isChord (hotkey : Hotkey) : Bool := hotkey.second.isSome

/-- The hotkey in words, such as `Ctrl+k & Ctrl+m`. -/
def describe (hotkey : Hotkey) : String :=
  match hotkey.second with
  | none => hotkey.first.describe
  | some second => hotkey.first.describe ++ " & " ++ second.describe

/-- The hotkey in symbols, such as `^k&^m::`. -/
def declaration (hotkey : Hotkey) : List Char :=
  let second :=
    match hotkey.second with
    | none => []
    | some second => '&' :: second.symbols
  hotkey.first.symbols ++ second ++ [':', ':']

/-- Whether two hotkeys have the same first combo, the case of its key
apart. -/
def sameTrigger (a b : Hotkey) : Bool :=
  a.first.modifiers == b.first.modifiers && a.first.sameKey b.first

end Hotkey

end HotkeyScript
