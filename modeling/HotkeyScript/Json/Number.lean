/-!
# `HotkeyScript.Json.Number`: numbers as they are written

No record of this library has a number to be read, but a number may
stand in what a reader skips. So a number stays as it is written, and
only two things are asked of it.

* `isNumber`: whether characters are a number at all.
* `fitsDouble`: whether it is finite as a double. A reader that has to
  keep a number for later has no other place to put it. The double is
  had with one multiplication, from as many digits as a word of 64 bits
  holds, so close to the greatest double it may differ from the one
  nearest to the number.
-/

set_option autoImplicit false

namespace HotkeyScript.Json

/-- A character that may stand in a number. -/
def isNumberChar (c : Char) : Bool :=
  c.isDigit || c == '-' || c == '+' || c == '.' || c == 'e' || c == 'E'

/-- The parts of a number. -/
structure NumberParts where
  /-- The digits before the point. -/
  whole : List Char
  /-- The digits after the point. -/
  fraction : List Char
  /-- The exponent of ten. -/
  exponent : Int
  deriving Repr

/-- The number that decimal digits spell. -/
def decimalValue (digits : List Char) : Nat :=
  digits.foldl (fun value c => value * 10 + (c.toNat - '0'.toNat)) 0

/-- The digits at the start of a text, at least one, and the rest. -/
def takeDigits? (text : List Char) : Option (List Char × List Char) :=
  let digits := text.takeWhile Char.isDigit
  if digits.isEmpty then none
  else some (digits, text.dropWhile Char.isDigit)

/-- The exponent that fills a text. -/
def exponent? : List Char → Option Int
  | [] => some 0
  | e :: rest =>
    if e != 'e' && e != 'E' then none
    else
      let (negative, digits) :=
        match rest with
        | '-' :: digits => (true, digits)
        | '+' :: digits => (false, digits)
        | digits => (false, digits)
      match takeDigits? digits with
      | some (digits, []) =>
        let value : Int := decimalValue digits
        some (if negative then -value else value)
      | _ => none

/-- The parts of the number that fills a text. A whole part of more
than one digit does not begin with a zero. -/
def numberParts? (text : List Char) : Option NumberParts := do
  let unsigned :=
    match text with
    | '-' :: rest => rest
    | _ => text
  let (whole, rest) ← takeDigits? unsigned
  if whole.head? == some '0' && whole != ['0'] then none
  else
    match rest with
    | '.' :: rest =>
      let (fraction, rest) ← takeDigits? rest
      return ⟨whole, fraction, ← exponent? rest⟩
    | _ => return ⟨whole, [], ← exponent? rest⟩

/-- Whether a text is a number. -/
def isNumber (text : List Char) : Bool := (numberParts? text).isSome

/-! ### Numbers as doubles -/

/-- A number that a reader holds: `significand * 10 ^ exponent`. -/
structure Scaled where
  /-- The digits, as a word of 64 bits. -/
  significand : Nat
  /-- The exponent of ten. -/
  exponent : Int
  deriving Repr

/-- Appends decimal digits to a number while a word of 64 bits can hold
it: the number, and how many digits it took. -/
def appendDigits (value : Nat) : List Char → Nat × Nat
  | [] => (value, 0)
  | c :: cs =>
    let longer := value * 10 + (c.toNat - '0'.toNat)
    if longer < 2 ^ 64 then
      let (value, count) := appendDigits longer cs
      (value, count + 1)
    else (value, 0)

/-- The number held for some parts. Digits for which there is no room
are dropped. In the whole part they still count as places. -/
def NumberParts.scaled (parts : NumberParts) : Scaled :=
  let (whole, wholeCount) := appendDigits 0 parts.whole
  -- The fraction goes on from the whole part, also where that has
  -- stopped for want of room: a smaller digit may still have some.
  let (significand, fractionCount) := appendDigits whole parts.fraction
  ⟨significand,
   parts.exponent + (parts.whole.length - wholeCount : Nat)
     - fractionCount⟩

/-- The double nearest to a natural number, of two the one with the
even significand, without regard to how large a double can be. -/
def nearestDouble (n : Nat) : Nat :=
  let unit := Nat.pow 2 (n.log2 - 52)
  let significand := n / unit
  let rest := n % unit
  if 2 * rest < unit ∨ 2 * rest = unit ∧ significand % 2 = 0 then
    significand * unit
  else (significand + 1) * unit

/-- The least number that rounds to no double: halfway between the
greatest double and the next power of two. -/
def doubleLimit : Nat := Nat.pow 2 1024 - Nat.pow 2 970

/-- The greatest power of ten that is a double. -/
def powerLimit : Int := 308

/-- Whether a number is finite as a double. It is the product of two
doubles, the one nearest to its significand and the one nearest to its
power of ten. A negative power divides, and so never grows too large. -/
def Scaled.isFinite (number : Scaled) : Bool :=
  number.significand == 0 || decide (number.exponent < 0)
    || decide (number.exponent ≤ powerLimit)
      && decide (nearestDouble number.significand
          * nearestDouble (Nat.pow 10 number.exponent.toNat)
        < doubleLimit)

/-- Whether a number that is read as a double is finite. -/
def fitsDouble (text : List Char) : Bool :=
  match numberParts? text with
  | some parts => parts.scaled.isFinite
  | none => false

end HotkeyScript.Json
