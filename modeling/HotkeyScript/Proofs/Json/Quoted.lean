import HotkeyScript.Json.Quoted

/-!
# `HotkeyScript.Proofs.Json.Quoted`: reading a string that was written

A text is written character by character, and the end quote cannot be
taken for one of them, since a quote inside the text is escaped.

* `readBody?_escape_append`: one character.
* `readBody?_flatMap_escape_append`: a text and its end quote.
* `denoted?_map_char`: pieces that are characters denote these.
* `Spells`: the other ways to write a text, with more escapes than needed.
  `Spells.readBody?` reads them back.
-/

set_option autoImplicit false

namespace HotkeyScript.Json

/-! ### One character -/

/-- The two digits that are written for a control character. -/
theorem hexUnit?_digitChar : ∀ n < 0x20,
    hexUnit? '0' '0' (Nat.digitChar (n / 16)) (Nat.digitChar (n % 16))
      = some n := by decide

/-- The unit of a control character is that character. -/
theorem ofUnit_toNat {c : Char} (h : c.toNat < 0x20) :
    Piece.ofUnit c.toNat = .char c := by
  rw [Piece.ofUnit, if_neg (by omega), Char.ofNat_toNat]

/-- An escape by digits is read as its unit. -/
theorem readBody?_unit_append {a b c d : Char} {unit : Nat}
    (h : hexUnit? a b c d = some unit) (rest : List Char) :
    readBody? ('\\' :: 'u' :: a :: b :: c :: d :: rest)
      = (readBody? rest).map fun (pieces, after) =>
        (.ofUnit unit :: pieces, after) := by
  rw [readBody?, h]
  cases readBody? rest <;> rfl

/-- An escape by a letter is read as what the letter stands for. -/
theorem readBody?_unescape_append {e c : Char} (hunit : e ≠ 'u')
    (h : unescape? e = some c) (rest : List Char) :
    readBody? ('\\' :: e :: rest)
      = (readBody? rest).map fun (pieces, after) =>
        (.char c :: pieces, after) := by
  rw [readBody?.eq_4 e rest fun _ _ _ _ _ he _ => hunit he, h]
  cases readBody? rest <;> rfl

/-- A character that needs no escape is read as it is. -/
theorem readBody?_plain {c : Char} (hquote : c ≠ '"')
    (hbackslash : c ≠ '\\') (hcontrol : ¬ c.toNat < 0x20)
    (rest : List Char) :
    readBody? (c :: rest)
      = (readBody? rest).map fun (pieces, after) =>
        (.char c :: pieces, after) := by
  rw [readBody?.eq_5 c rest hquote (fun _ _ _ _ _ hc _ => hbackslash hc)
    (fun _ _ hc _ => hbackslash hc), if_neg (by simp [hbackslash, hcontrol])]
  cases readBody? rest <;> rfl

/-- A character is read as it was written, whatever follows it. -/
theorem readBody?_escape_append (c : Char) (rest : List Char) :
    readBody? (escape c ++ rest)
      = (readBody? rest).map fun (pieces, after) =>
        (.char c :: pieces, after) := by
  unfold escape
  split
  -- The first seven cases are the characters escaped by a letter.
  case h_8 c hquote hbackslash _ _ _ _ _ =>
    split
    · next hcontrol =>
      have hread := readBody?_unit_append (hexUnit?_digitChar _ hcontrol) rest
      rwa [ofUnit_toNat hcontrol] at hread
    · next hcontrol =>
      exact readBody?_plain hquote hbackslash hcontrol rest
  all_goals exact readBody?_unescape_append (by decide) rfl rest

/-! ### A text -/

/-- A text is read as it was written, up to the quote that ends it. -/
theorem readBody?_flatMap_escape_append (text rest : List Char) :
    readBody? (text.flatMap escape ++ '"' :: rest)
      = some (text.map .char, rest) := by
  induction text with
  | nil => rfl
  | cons c text ih =>
    rw [List.flatMap_cons, List.append_assoc, readBody?_escape_append, ih]
    rfl

/-- Pieces that are characters spell these characters. -/
theorem denoted?_map_char (text : List Char) :
    denoted? (text.map .char) = some text := by
  induction text with
  | nil => rfl
  | cons c text ih =>
    rw [List.map_cons, denoted?, ih]
    rfl

/-! ### A text in any spelling -/

/-- A text and the body of a string that spells it. A character may stand
there as it is, unless it is a quote, a backslash or a control character.
It may be escaped by a letter or, as one UTF-16 unit or two, by digits. -/
inductive Spells : List Char → List Char → Prop where
  | nil : Spells [] []
  | plain {c : Char} {text body : List Char} (hquote : c ≠ '"')
      (hbackslash : c ≠ '\\') (hcontrol : ¬ c.toNat < 0x20)
      (h : Spells text body) : Spells (c :: text) (c :: body)
  | letter {e c : Char} {text body : List Char}
      (hletter : unescape? e = some c) (h : Spells text body) :
      Spells (c :: text) ('\\' :: e :: body)
  | unit {a b c d char : Char} {text body : List Char}
      (hunit : hexUnit? a b c d = some char.toNat) (h : Spells text body) :
      Spells (char :: text) ('\\' :: 'u' :: a :: b :: c :: d :: body)
  | pair {a b c d a' b' c' d' char : Char} {high low : Nat}
      {text body : List Char}
      (hhigh : hexUnit? a b c d = some high)
      (hlow : hexUnit? a' b' c' d' = some low)
      (hunits : 0xD800 ≤ high ∧ high < 0xDC00 ∧ 0xDC00 ≤ low ∧ low ≤ 0xDFFF)
      (hchar : char.toNat
        = 0x10000 + (high - 0xD800) * 0x400 + (low - 0xDC00))
      (h : Spells text body) :
      Spells (char :: text)
        ('\\' :: 'u' :: a :: b :: c :: d
          :: '\\' :: 'u' :: a' :: b' :: c' :: d' :: body)

/-- The code of a character is read as the character. No character is half
of a surrogate pair. -/
theorem ofUnit_char (c : Char) : Piece.ofUnit c.toNat = .char c := by
  have hvalid : c.toNat < 0xD800 ∨ 0xDFFF < c.toNat := by
    cases c.valid with
    | inl h => exact .inl h
    | inr h => exact .inr h.1
  rw [Piece.ofUnit, if_neg (by omega), Char.ofNat_toNat]

/-- Every spelling of a text is read to its end, and denotes the text. -/
theorem Spells.readBody? {text body : List Char} (h : Spells text body)
    (rest : List Char) :
    ∃ pieces, Json.readBody? (body ++ '"' :: rest) = some (pieces, rest)
      ∧ denoted? pieces = some text := by
  -- One case for each way to write a character. The last one takes two
  -- pieces, which make one character together.
  induction h with
  | nil => exact ⟨[], rfl, rfl⟩
  | @plain c _ _ hquote hbackslash hcontrol _ ih =>
    obtain ⟨pieces, hread, hdenoted⟩ := ih
    refine ⟨.char c :: pieces, ?_, by rw [denoted?, hdenoted]; rfl⟩
    rw [List.cons_append, readBody?_plain hquote hbackslash hcontrol, hread]
    rfl
  | @letter e c _ _ hletter _ ih =>
    obtain ⟨pieces, hread, hdenoted⟩ := ih
    refine ⟨.char c :: pieces, ?_, by rw [denoted?, hdenoted]; rfl⟩
    have hunit : e ≠ 'u' := by
      rintro rfl
      cases hletter
    rw [List.cons_append, List.cons_append,
      readBody?_unescape_append hunit hletter, hread]
    rfl
  | @unit _ _ _ _ char _ _ hunit _ ih =>
    obtain ⟨pieces, hread, hdenoted⟩ := ih
    refine ⟨.char char :: pieces, ?_, by rw [denoted?, hdenoted]; rfl⟩
    simp only [List.cons_append, readBody?_unit_append hunit, hread,
      ofUnit_char]
    rfl
  | @pair _ _ _ _ _ _ _ _ char high low _ _ hhigh hlow hunits hchar _ ih =>
    obtain ⟨pieces, hread, hdenoted⟩ := ih
    refine ⟨.half high :: .half low :: pieces, ?_, ?_⟩
    · have hhalf (unit : Nat) (h : 0xD800 ≤ unit ∧ unit ≤ 0xDFFF) :
          Piece.ofUnit unit = .half unit := if_pos h
      simp only [List.cons_append, readBody?_unit_append hhigh,
        readBody?_unit_append hlow, hread, Option.map_some]
      rw [hhalf high (by omega), hhalf low (by omega)]
    · rw [denoted?, if_pos ⟨hunits.2.1, hunits.2.2.1⟩, hdenoted, ← hchar,
        Char.ofNat_toNat]
      rfl

end HotkeyScript.Json
