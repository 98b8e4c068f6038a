import HotkeyScript.Modifier
import HotkeyScript.Text

/-!
# `HotkeyScript.Modifier.Listing`: a modifier set as a list of flags

Outside a script a set of modifiers is written as the flags in it,
such as `ALT | CTRL`. Bits that stand for no modifier follow as one
hexadecimal number, such as `WIN | 0x8000`. The empty set is the empty
text.

* `ModifierSet.listing`: writes a set.
* `ModifierSet.ofListing?`: reads one. The flags may stand in any
  order and more than once, blank characters around them do not
  matter, and a number may stand for any bits.
-/

set_option autoImplicit false

namespace HotkeyScript

/-- The flag of a modifier. -/
def Modifier.flag : Modifier → String
  | .win => "WIN"
  | .alt => "ALT"
  | .ctrl => "CTRL"
  | .shift => "SHIFT"
  | .altGr => "ALT_GR"
  | .left => "LEFT"
  | .right => "RIGHT"
  | .wildcard => "WILDCARD"
  | .dontBlock => "DONT_BLOCK"
  | .useHook => "USE_HOOK"
  | .up => "UP"

/-- The modifier of a flag. -/
def Modifier.ofFlag? (flag : List Char) : Option Modifier :=
  Modifier.all.find? fun m => m.flag.toList == flag

namespace Listing

/-- The number that hexadecimal digits spell, after the digits that
spell `value`. -/
def hexFrom? (value : Nat) : List Char → Option Nat
  | [] => some value
  | c :: cs =>
    match Text.hexDigit? c with
    | some digit => hexFrom? (value * 16 + digit) cs
    | none => none

/-- The word that hexadecimal digits spell: at least one digit, a
plus sign allowed before them, and no more than sixteen bits. -/
def hexWord? (digits : List Char) : Option (BitVec 16) :=
  let digits :=
    match digits with
    | '+' :: rest => rest
    | _ => digits
  if digits.isEmpty then none
  else
    match hexFrom? 0 digits with
    | some value =>
      if value < 0x10000 then some (BitVec.ofNat 16 value) else none
    | none => none

/-- A word in hexadecimal, without leading zeros. -/
def writeHex (word : BitVec 16) : List Char :=
  '0' :: 'x' :: Nat.toDigits 16 word.toNat

/-- One entry of a list of flags: a number after `0x`, or else a
flag. -/
def readEntry? : List Char → Option ModifierSet
  -- No flag begins with a digit, so the two forms cannot be confused.
  | '0' :: 'x' :: digits => (hexWord? digits).map ModifierSet.mk
  | flag => (Modifier.ofFlag? flag).map ModifierSet.single

end Listing

namespace ModifierSet

/-- The bits that stand for no modifier. -/
def unnamed (s : ModifierSet) : BitVec 16 := (s \ full).bits

/-- The entries of the list that writes a set: its flags, then the
bits that have none. -/
def entries (s : ModifierSet) : List (List Char) :=
  (Modifier.all.filter s.has).map (·.flag.toList)
    ++ if s.unnamed = 0#16 then [] else [Listing.writeHex s.unnamed]

/-- The set as a list of flags. -/
def listing (s : ModifierSet) : String :=
  String.ofList ([' ', '|', ' '].intercalate s.entries)

/-- The set that a list of flags writes. A blank text writes the empty
set; an empty entry or an unknown flag writes none. -/
def ofListing? (text : String) : Option ModifierSet :=
  let text := Text.trim text.toList
  if text.isEmpty then some ∅
  else
    ((text.splitOn '|').mapM fun entry =>
      Listing.readEntry? (Text.trim entry)).map
        fun sets => sets.foldl (· ∪ ·) ∅

end ModifierSet

end HotkeyScript
