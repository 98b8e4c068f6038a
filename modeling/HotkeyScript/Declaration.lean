import HotkeyScript.Half
import HotkeyScript.Hotkey
import HotkeyScript.Text

/-!
# `HotkeyScript.Declaration`: reading a hotkey from a line

A line declares a hotkey when `::` stands in it after a key part, as
in `^!k::Run notepad`. Blank characters do not matter anywhere.

* The key part is all that stands before the last `::`; what follows
  is the body and is not looked at.
* A key part without `&` is one half; with one `&` it is the two
  halves of a chord; with more it is refused before any half is read.

`Halves.ofLine` finds the halves of a line and `Halves.read` reads them.
A refusal has the half with it, for whoever wants to tell of it.
`Hotkey.ofLine` does both. Of several faults it names the first, in the
order of the constructors of `DeclarationError`.
-/

set_option autoImplicit false

namespace HotkeyScript

/-- Why a line declares no hotkey. -/
inductive DeclarationError where
  /-- The line holds blank characters only. -/
  | blank
  /-- The line holds no `::`. -/
  | missingMarker
  /-- The `::` stands at the start. -/
  | emptyKeyPart
  /-- The key part falls into more than two halves. -/
  | tooManyHalves (parts : Nat)
  /-- A half spells no combo. -/
  | half (cause : ScanError)
  deriving DecidableEq, Repr

namespace Declaration

/-- The mark that ends the key part. -/
def marker : String := "::"

/-- The character that joins the halves of a chord. -/
def joiner : Char := '&'

/-- What follows the first `::` of a text. -/
def afterMarker? : List Char → Option (List Char)
  | [] => none
  | ':' :: ':' :: rest => some rest
  | _ :: rest => afterMarker? rest

/-- What stands before the last `::` of a text: read from its end, what
follows the first. -/
def keyPart? (text : List Char) : Option (List Char) :=
  (afterMarker? text.reverse).map List.reverse

end Declaration

/-- The refusal in words. -/
def DeclarationError.message : DeclarationError → String
  | .blank => "Line is blank"
  | .missingMarker => s!"Missing '{Declaration.marker}' declaration token"
  | .emptyKeyPart =>
    s!"Nothing before the '{Declaration.marker}' declaration token"
  | .tooManyHalves parts =>
    s!"Chord must join exactly two keys, found {parts} parts"
  | .half cause => "Invalid hotkey: " ++ cause.message

namespace Declaration

/-- What spells the combos of a hotkey: one half, or the two of a
chord. -/
structure Halves where
  /-- The only half, or the one before the joiner. -/
  first : List Char
  /-- The half behind the joiner. -/
  second : Option (List Char)

/-- The halves of a key part. -/
def Halves.ofKeyPart (keyPart : List Char) :
    Except DeclarationError Halves :=
  match keyPart.splitOn joiner with
  | [half] => .ok ⟨half, none⟩
  | [left, right] => .ok ⟨left, some right⟩
  -- Splitting leaves at least one part, so here are three or more.
  | parts => .error (.tooManyHalves parts.length)

/-- The halves that a line has before its last marker. -/
def Halves.ofLine (line : List Char) : Except DeclarationError Halves :=
  if (Text.trim line).isEmpty then .error .blank
  else
    -- Without its blanks a line may hold a `::` that it did not hold
    -- before, as in `a: :`.
    match keyPart? (Text.squeeze line) with
    | none => .error .missingMarker
    | some [] => .error .emptyKeyPart
    | some keyPart => Halves.ofKeyPart keyPart

/-- A half that spells no combo, and why. -/
structure Refused where
  /-- The half as it was read. -/
  half : List Char
  /-- What is wrong with it. -/
  cause : ScanError

/-- Reads one half. -/
def readHalf (half : List Char) : Except Refused Combo :=
  (Half.scan half).mapError (⟨half, ·⟩)

/-- Reads the combos of the halves. The second half is only looked at if
there is nothing wrong with the first. -/
def Halves.read (halves : Halves) :
    Except Refused (Combo × Option Combo) := do
  let first ← readHalf halves.first
  let second ← halves.second.mapM readHalf
  return (first, second)

/-- Reads the combos that a line declares. -/
def read (line : List Char) :
    Except DeclarationError (Combo × Option Combo) := do
  let halves ← Halves.ofLine line
  halves.read.mapError fun refused => .half refused.cause

end Declaration

/-- The hotkey that a line declares. -/
def Hotkey.ofLine (line : String) : Except DeclarationError Hotkey := do
  let (first, second) ← Declaration.read line.toList
  return ⟨line, first, second⟩

/-- The hotkey that a line declares, if it declares one. -/
def Hotkey.ofLine? (line : String) : Option Hotkey :=
  (Hotkey.ofLine line).toOption

end HotkeyScript
