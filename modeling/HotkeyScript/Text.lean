/-!
# `HotkeyScript.Text`: classes of characters and what they cut

Three classes of characters matter wherever a script or a record is
read.

* Blank characters. Whitespace carries no meaning in a hotkey
  declaration, and a blank line is neither recognized nor reported. The
  class `isBlank` is Unicode's `White_Space`, far wider than
  `Char.isWhitespace`. `squeeze` leaves a text without its blank
  characters, and `trim` without those at its two ends.
* Line ends. Every carriage return and every line feed ends a line, each
  by itself, so a pair of the two has an empty line between them. `lines`
  has one line more than the text has such characters.
* Hexadecimal digits, of which those from ten on are letters of either
  case: `hexDigit?`.
-/

set_option autoImplicit false

namespace HotkeyScript.Text

/-! ### Blank characters -/

/-- The ranges of Unicode's `White_Space` property, both ends
included. -/
def blankRanges : List (Nat × Nat) :=
  [(0x09, 0x0D), (0x20, 0x20), (0x85, 0x85), (0xA0, 0xA0),
   (0x1680, 0x1680), (0x2000, 0x200A), (0x2028, 0x2029),
   (0x202F, 0x202F), (0x205F, 0x205F), (0x3000, 0x3000)]

/-- A character of Unicode's `White_Space` property. -/
def isBlank (c : Char) : Bool :=
  blankRanges.any fun range =>
    decide (range.1 ≤ c.toNat) && decide (c.toNat ≤ range.2)

/-- The text without its blank characters. -/
def squeeze (text : List Char) : List Char :=
  text.filter fun c => !isBlank c

/-- The text without the blank characters at its end. -/
def trimRight (text : List Char) : List Char :=
  (text.reverse.dropWhile isBlank).reverse

/-- The text without the blank characters at its two ends. -/
def trim (text : List Char) : List Char :=
  trimRight (text.dropWhile isBlank)

/-! ### Lines -/

/-- A character that ends a line. -/
def isBreak (c : Char) : Bool := c == '\r' || c == '\n'

/-- The lines of a text, without the characters that end them. -/
def lines (text : String) : List String :=
  (text.toList.splitOnP isBreak).map String.ofList

/-! ### Hexadecimal digits -/

/-- The value of a hexadecimal digit. -/
def hexDigit? (c : Char) : Option Nat :=
  if '0' ≤ c ∧ c ≤ '9' then some (c.toNat - '0'.toNat)
  else if 'a' ≤ c ∧ c ≤ 'f' then some (c.toNat - 'a'.toNat + 10)
  else if 'A' ≤ c ∧ c ≤ 'F' then some (c.toNat - 'A'.toNat + 10)
  else none

end HotkeyScript.Text
