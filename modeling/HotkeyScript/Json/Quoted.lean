import HotkeyScript.Text

/-!
# `HotkeyScript.Json.Quoted`: string literals

A JSON string stands between quotes. Quotes, backslashes and the
characters below U+0020 are written as escapes, everything else as it
is. A reader also takes escapes where none is needed, among them
`\u` with four digits for a UTF-16 unit.

* `quote`: writes a text as a string.
* `readBody?`: reads a string after its first quote, as pieces.
* `denoted?`: the text that the pieces spell. Two halves of a
  surrogate pair make one character; a half by itself makes none, and
  then the string denotes no text.
-/

set_option autoImplicit false

namespace HotkeyScript.Json

/-! ### Writing -/

/-- A character as it stands in a string. -/
def escape (c : Char) : List Char :=
  match c with
  | '"' => ['\\', '"']
  | '\\' => ['\\', '\\']
  | '\x08' => ['\\', 'b']
  | '\x0c' => ['\\', 'f']
  | '\n' => ['\\', 'n']
  | '\r' => ['\\', 'r']
  | '\t' => ['\\', 't']
  | _ =>
    if c.toNat < 0x20 then
      ['\\', 'u', '0', '0', Nat.digitChar (c.toNat / 16),
       Nat.digitChar (c.toNat % 16)]
    else [c]

/-- A text as a string. -/
def quote (text : List Char) : List Char :=
  '"' :: (text.flatMap escape ++ ['"'])

/-! ### Reading -/

/-- What one place of a string spells. -/
inductive Piece where
  /-- A character. -/
  | char (c : Char)
  /-- A UTF-16 unit that is half of a surrogate pair. -/
  | half (unit : Nat)
  deriving DecidableEq, Repr

/-- What the UTF-16 unit of a `\u` escape spells. -/
def Piece.ofUnit (unit : Nat) : Piece :=
  if 0xD800 ≤ unit ∧ unit ≤ 0xDFFF then .half unit
  else .char (Char.ofNat unit)

/-- The character that a backslash makes of the next one. -/
def unescape? : Char → Option Char
  | '"' => some '"'
  | '\\' => some '\\'
  | '/' => some '/'
  | 'b' => some '\x08'
  | 'f' => some '\x0c'
  | 'n' => some '\n'
  | 'r' => some '\r'
  | 't' => some '\t'
  | _ => none

/-- The value of four hexadecimal digits. -/
def hexUnit? (a b c d : Char) : Option Nat := do
  let a ← Text.hexDigit? a
  let b ← Text.hexDigit? b
  let c ← Text.hexDigit? c
  let d ← Text.hexDigit? d
  return ((a * 16 + b) * 16 + c) * 16 + d

/-- Reads a string after its first quote: its pieces, and what stands
after its last quote. -/
def readBody? : List Char → Option (List Piece × List Char)
  | [] => none
  | '"' :: rest => some ([], rest)
  -- Halves of a pair are put together by `denoted?`, so each escape is
  -- read by itself.
  | '\\' :: 'u' :: a :: b :: c :: d :: rest => do
    let unit ← hexUnit? a b c d
    let (pieces, rest) ← readBody? rest
    return (.ofUnit unit :: pieces, rest)
  | '\\' :: e :: rest => do
    let c ← unescape? e
    let (pieces, rest) ← readBody? rest
    return (.char c :: pieces, rest)
  | c :: rest =>
    if c == '\\' || decide (c.toNat < 0x20) then none
    else do
      let (pieces, rest) ← readBody? rest
      return (.char c :: pieces, rest)

/-- The text that pieces spell, unless a half of a surrogate pair
stands by itself. -/
def denoted? : List Piece → Option (List Char)
  | [] => some []
  | .char c :: pieces => (denoted? pieces).map (c :: ·)
  | .half high :: .half low :: pieces =>
    if high < 0xDC00 ∧ 0xDC00 ≤ low then
      (denoted? pieces).map
        (Char.ofNat (0x10000 + (high - 0xD800) * 0x400 + (low - 0xDC00))
          :: ·)
    else none
  | .half _ :: _ => none

/-- What follows a string is shorter than what begins with it. -/
theorem readBody?_shorter {text rest : List Char} {pieces : List Piece}
    (h : readBody? text = some (pieces, rest)) :
    rest.length < text.length := by
  fun_induction readBody? text generalizing pieces rest with
  -- At each place of the string some characters are gone, and what
  -- follows is shorter by the induction.
  | case1 => simp at h
  | case2 rest' =>
      simp only [Option.some.injEq, Prod.mk.injEq] at h
      obtain ⟨-, rfl⟩ := h
      simp
  | case3 a b c d rest' ih =>
      simp only [Option.bind_eq_bind, Option.bind_eq_some_iff] at h
      obtain ⟨unit, -, ⟨ps, r⟩, hr, heq⟩ := h
      simp only [Option.pure_def, Option.some.injEq, Prod.mk.injEq] at heq
      obtain ⟨-, rfl⟩ := heq
      have := ih hr
      simp only [List.length_cons]
      omega
  | case4 e rest' _ ih =>
      simp only [Option.bind_eq_bind, Option.bind_eq_some_iff] at h
      obtain ⟨c, -, ⟨ps, r⟩, hr, heq⟩ := h
      simp only [Option.pure_def, Option.some.injEq, Prod.mk.injEq] at heq
      obtain ⟨-, rfl⟩ := heq
      have := ih hr
      simp only [List.length_cons]
      omega
  | case5 => simp at h
  | case6 c rest' _ _ _ _ ih =>
      simp only [Option.bind_eq_bind, Option.bind_eq_some_iff] at h
      obtain ⟨⟨ps, r⟩, hr, heq⟩ := h
      simp only [Option.pure_def, Option.some.injEq, Prod.mk.injEq] at heq
      obtain ⟨-, rfl⟩ := heq
      have := ih hr
      simp only [List.length_cons]
      omega

end HotkeyScript.Json
