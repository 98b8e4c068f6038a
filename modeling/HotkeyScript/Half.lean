import HotkeyScript.Combo

/-!
# `HotkeyScript.Half`: the text of one combo

A half is the text of one combo in a declaration: modifier symbols and
at most one key, in any order, such as `^!k`. It is read from left to
right.

* A character that is no symbol is the key. A second key is refused.
* `<` and `>` qualify the symbol that follows and are read together
  with it, so one of the two that stands before a key or at the end is
  refused. The symbol that follows may itself be `<` or `>`.
* The empty half is the combo of nothing.

`Half.scan` reads a half. A refusal names the first character that
cannot be read and where it stands, as a number of UTF-8 bytes.
-/

set_option autoImplicit false

namespace HotkeyScript

/-- Why a text is not the text of one combo. -/
inductive ScanError where
  /-- A `<` or `>` that no modifier symbol follows. -/
  | danglingSide (symbol : Char) (offset : Nat)
  /-- A key after the first key. -/
  | secondKey (first second : Char) (offset : Nat)
  deriving DecidableEq, Repr

/-- The refusal in words. -/
def ScanError.message : ScanError → String
  | .danglingSide symbol offset =>
    s!"'{symbol}' at offset {offset} must be followed by a modifier symbol"
  | .secondKey first second offset =>
    s!"second key '{second}' at offset {offset} (already have '{first}')"

namespace Half

/-- Reads on at the byte `offset`, where `combo` has been read so
far. -/
def scanFrom (combo : Combo) (offset : Nat) :
    List Char → Except ScanError Combo
  | [] => .ok combo
  | c :: rest =>
    match Modifier.ofSymbol? c with
    | none =>
      match combo.key with
      | none => scanFrom (combo.press c) (offset + c.utf8Size) rest
      | some first => .error (.secondKey first c offset)
    | some m =>
      if m.isSide then
        -- The partner is taken whatever symbol it is, so that `<>` is
        -- read whole and leaves nothing to qualify.
        match rest with
        | [] => .error (.danglingSide c offset)
        | d :: rest =>
          match Modifier.ofSymbol? d with
          | none => .error (.danglingSide c offset)
          | some n =>
            scanFrom ((combo.hold m).hold n)
              (offset + c.utf8Size + d.utf8Size) rest
      else scanFrom (combo.hold m) (offset + c.utf8Size) rest

/-- Reads the combo that a half spells. -/
def scan (half : List Char) : Except ScanError Combo :=
  scanFrom Combo.empty 0 half

/-! ### One step of the scan -/

section
variable {combo : Combo} {offset : Nat} {c d : Char} {m n : Modifier}
  {rest : List Char}

/-- The first key of a half joins what has been read, and the scan goes on
behind it. -/
theorem scanFrom_key (hc : Modifier.ofSymbol? c = none)
    (hkey : combo.key = none) :
    scanFrom combo offset (c :: rest)
      = scanFrom (combo.press c) (offset + c.utf8Size) rest := by
  rw [scanFrom]
  simp only [hc, hkey]

/-- Where there is a key already, the next one is refused, however many
symbols stand between the two. -/
theorem scanFrom_secondKey {first : Char}
    (hc : Modifier.ofSymbol? c = none) (hkey : combo.key = some first) :
    scanFrom combo offset (c :: rest)
      = .error (.secondKey first c offset) := by
  rw [scanFrom]
  simp only [hc, hkey]

/-- A side takes the symbol behind it along, so the scan goes on behind
both. -/
theorem scanFrom_pair (hc : Modifier.ofSymbol? c = some m)
    (hm : m.isSide = true) (hd : Modifier.ofSymbol? d = some n) :
    scanFrom combo offset (c :: d :: rest)
      = scanFrom ((combo.hold m).hold n)
          (offset + c.utf8Size + d.utf8Size) rest := by
  rw [scanFrom]
  simp only [hc, hm, hd, if_true]

/-- A side in front of a key, or at the end, is refused. Both come under
one premise, that no symbol follows. -/
theorem scanFrom_danglingSide (hc : Modifier.ofSymbol? c = some m)
    (hm : m.isSide = true)
    (hrest : ∀ d ∈ rest.head?, Modifier.ofSymbol? d = none) :
    scanFrom combo offset (c :: rest)
      = .error (.danglingSide c offset) := by
  rw [scanFrom]
  simp only [hc, hm, if_true]
  cases rest with
  | nil => rfl
  | cons d rest => simp only [hrest d rfl]

/-- A symbol other than `<` and `>` is read by itself. -/
theorem scanFrom_plain (hc : Modifier.ofSymbol? c = some m)
    (hm : ¬ m.isSide = true) :
    scanFrom combo offset (c :: rest)
      = scanFrom (combo.hold m) (offset + c.utf8Size) rest := by
  rw [scanFrom]
  simp only [hc, if_neg hm]

end

end Half

end HotkeyScript
