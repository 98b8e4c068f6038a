/-!
# `HotkeyScript.Text.Lossy`: showing bytes that may not be text

An error message names a path, and a path need not be UTF-8. The bytes
are shown with U+FFFD in place of every part that is not: one for each
longest run of bytes that begins a character and cannot be continued,
and one for each byte that begins none.

* `Unfinished`: a character of which some bytes have been read. The
  first byte fixes how many follow and narrows the range of the
  second, which rules out overlong forms, surrogates and codes above
  U+10FFFF.
* `lossy`: the text shown for some bytes.
-/

set_option autoImplicit false

namespace HotkeyScript.Text

/-- The character shown in place of bytes that are no character. -/
def replacement : Char := '\uFFFD'

/-- A character whose first bytes have been read. -/
structure Unfinished where
  /-- How many bytes are still to come; never zero. -/
  owed : Nat
  /-- The least value of the next byte. -/
  low : Nat
  /-- The greatest value of the next byte. -/
  high : Nat
  /-- The bits of the code read so far. -/
  code : Nat

/-- What a byte does where no character is unfinished: the text it
shows, and the character it begins. -/
def beginChar (byte : Nat) : List Char × Option Unfinished :=
  if byte ≤ 0x7F then ([Char.ofNat byte], none)
  else if byte < 0xC2 then ([replacement], none)
  else if byte ≤ 0xDF then ([], some ⟨1, 0x80, 0xBF, byte - 0xC0⟩)
  else if byte = 0xE0 then ([], some ⟨2, 0xA0, 0xBF, 0⟩)
  else if byte = 0xED then ([], some ⟨2, 0x80, 0x9F, 0xD⟩)
  else if byte ≤ 0xEF then ([], some ⟨2, 0x80, 0xBF, byte - 0xE0⟩)
  else if byte = 0xF0 then ([], some ⟨3, 0x90, 0xBF, 0⟩)
  else if byte ≤ 0xF3 then ([], some ⟨3, 0x80, 0xBF, byte - 0xF0⟩)
  else if byte = 0xF4 then ([], some ⟨3, 0x80, 0x8F, 4⟩)
  else ([replacement], none)

/-- What a byte does inside an unfinished character: it continues the
character, or it leaves a part that is no character and begins
afresh. -/
def Unfinished.step (char : Unfinished) (byte : Nat) :
    List Char × Option Unfinished :=
  if char.low ≤ byte ∧ byte ≤ char.high then
    let code := char.code * 0x40 + (byte - 0x80)
    if char.owed ≤ 1 then ([Char.ofNat code], none)
    else ([], some ⟨char.owed - 1, 0x80, 0xBF, code⟩)
  else
    let (shown, next) := beginChar byte
    (replacement :: shown, next)

/-- The text shown for the bytes that follow an unfinished character,
if there is one. -/
def lossyFrom : Option Unfinished → List UInt8 → List Char
  | none, [] => []
  | some _, [] => [replacement]
  | none, byte :: bytes =>
      let (shown, next) := beginChar byte.toNat
      shown ++ lossyFrom next bytes
  | some char, byte :: bytes =>
      let (shown, next) := char.step byte.toNat
      shown ++ lossyFrom next bytes

/-- The text shown for some bytes. -/
def lossy (bytes : List UInt8) : List Char :=
  lossyFrom none bytes

end HotkeyScript.Text
