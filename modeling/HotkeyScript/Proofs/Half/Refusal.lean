import HotkeyScript.Proofs.Half.SideRuns

/-!
# `HotkeyScript.Proofs.Half.Refusal`: where a half is refused

A refusal names a character of the half and the number of bytes before
it. `Stuck` says, without a scan, when a character cannot be read: it is
a side that no symbol follows, or a key where there is a key already.
`StuckAt` is such a character of a half, when all that stands before it
is a half by itself. The scan is refused exactly where a half is stuck,
and a half is stuck in one place at most.

* `scanFrom_append`: a text whose beginning has been read is read on from
  there. So a scan that is stuck was not stuck before, and it cannot be
  stuck anywhere behind.
* `exists_stuck_of_scanFrom`: a scan that is refused has read a beginning
  of its text and is stuck there.
* `scan_eq_error_iff_stuckAt`: the refusals of a half.
-/

set_option autoImplicit false

namespace HotkeyScript

/-- The number of bytes before the refused character. -/
def ScanError.offset : ScanError → Nat
  | .danglingSide _ offset => offset
  | .secondKey _ _ offset => offset

namespace Half

open Modifier (sides ofSymbol?_eq_none_iff mem_symbols_of_ofSymbol?)

/-- The number of bytes of a text in UTF-8. -/
def byteLength (text : List Char) : Nat :=
  (String.ofList text).utf8ByteSize

/-- The bytes of a text are those of its parts. -/
theorem byteLength_append (before rest : List Char) :
    byteLength (before ++ rest) = byteLength before + byteLength rest := by
  rw [byteLength, String.ofList_append, String.utf8ByteSize_append]
  rfl

/-- A character in front adds as many bytes as its encoding has. -/
theorem byteLength_cons (c : Char) (rest : List Char) :
    byteLength (c :: rest) = c.utf8Size + byteLength rest := by
  rw [byteLength, String.ofList_cons, String.utf8ByteSize_append,
    String.utf8ByteSize_singleton]
  rfl

/-- Every character has some byte, so a refused one stands before the
end. -/
theorem byteLength_cons_pos (c : Char) (rest : List Char) :
    0 < byteLength (c :: rest) := by
  rw [byteLength_cons]
  exact Nat.add_pos_left c.utf8Size_pos _

/-- The character at the front of the rest of a half cannot be read,
where `combo` has been read so far and `offset` bytes stand before. -/
inductive Stuck (combo : Combo) (offset : Nat) :
    List Char → ScanError → Prop where
  /-- It is a side, and no symbol follows. -/
  | danglingSide {side : Char} {rest : List Char} (hside : side ∈ sides)
      (hrest : ∀ c ∈ rest.head?, c ∉ Modifier.symbols) :
      Stuck combo offset (side :: rest) (.danglingSide side offset)
  /-- It is a key, and there is a key before it. -/
  | secondKey {first second : Char} {rest : List Char}
      (hfirst : combo.key = some first)
      (hsecond : second ∉ Modifier.symbols) :
      Stuck combo offset (second :: rest) (.secondKey first second offset)

/-- Everything before the byte `offset` of a half is a half by itself,
and the character there cannot be read. -/
def StuckAt (half : List Char) (offset : Nat) (cause : ScanError) :
    Prop :=
  ∃ before rest combo, half = before ++ rest
    ∧ byteLength before = offset
    ∧ scan before = .ok combo
    ∧ Stuck combo offset rest cause

/-! ### The beginning of a half -/

/-- A beginning that has been read is left behind: the scan goes on from
the combo and the offset that it has reached. -/
theorem scanFrom_append {combo combo' : Combo} {offset : Nat}
    {before : List Char} (h : scanFrom combo offset before = .ok combo')
    (rest : List Char) :
    scanFrom combo offset (before ++ rest)
      = scanFrom combo' (offset + byteLength before) rest := by
  induction combo, offset, before using scanFrom.induct with
  | case1 combo offset =>
    obtain rfl := Except.ok.inj h
    rfl
  | case2 combo offset c before hc hnone ih =>
    rw [scanFrom_key hc hnone] at h
    rw [List.cons_append, scanFrom_key hc hnone, byteLength_cons,
      ← Nat.add_assoc]
    exact ih h
  -- A beginning that is refused has not been read.
  | case3 combo offset c before hc first hsome =>
    rw [scanFrom_secondKey hc hsome] at h
    cases h
  | case4 combo offset c m hc hm =>
    rw [scanFrom_danglingSide hc hm (by simp)] at h
    cases h
  | case5 combo offset c m hc hm d before hd =>
    rw [scanFrom_danglingSide hc hm (by simpa using hd)] at h
    cases h
  -- The pair lies within the beginning as a whole, so the rest of the
  -- text has no part in it.
  | case6 combo offset c m hc hm d before n hd ih =>
    rw [scanFrom_pair hc hm hd] at h
    rw [List.cons_append, List.cons_append, scanFrom_pair hc hm hd,
      byteLength_cons, byteLength_cons, ← Nat.add_assoc, ← Nat.add_assoc]
    exact ih h
  | case7 combo offset c before m hc hm ih =>
    rw [scanFrom_plain hc hm] at h
    rw [List.cons_append, scanFrom_plain hc hm, byteLength_cons,
      ← Nat.add_assoc]
    exact ih h

/-! ### The refused character -/

/-- Where nothing can be read the scan is refused, with what is wrong
there. -/
theorem Stuck.scanFrom_eq {combo : Combo} {offset : Nat}
    {rest : List Char} {cause : ScanError}
    (h : Stuck combo offset rest cause) :
    scanFrom combo offset rest = .error cause := by
  cases h with
  | @danglingSide side rest hside hrest =>
    have hsymbol : side ∈ Modifier.symbols := List.mem_append_left _ hside
    cases hm : Modifier.ofSymbol? side with
    | none => exact absurd hsymbol (ofSymbol?_eq_none_iff.mp hm)
    | some m =>
      exact scanFrom_danglingSide hm ((mem_symbols_of_ofSymbol? hm).2.mpr hside)
        fun c hc => ofSymbol?_eq_none_iff.mpr (hrest c hc)
  | secondKey hfirst hsecond =>
    exact scanFrom_secondKey (ofSymbol?_eq_none_iff.mpr hsecond) hfirst

/-- The cause tells the offset at which the scan stood. -/
theorem Stuck.offset_eq {combo : Combo} {offset : Nat}
    {rest : List Char} {cause : ScanError}
    (h : Stuck combo offset rest cause) : cause.offset = offset := by
  cases h <;> rfl

/-- A scan that is refused has read some text by then, and is stuck in
what is left. -/
theorem exists_stuck_of_scanFrom {combo : Combo} {offset : Nat}
    {half : List Char} {cause : ScanError}
    (h : scanFrom combo offset half = .error cause) :
    ∃ before rest combo', half = before ++ rest
      ∧ scanFrom combo offset before = .ok combo'
      ∧ Stuck combo' (offset + byteLength before) rest cause := by
  -- Tokens that are read join the text read so far. At the character that
  -- is refused that text is empty.
  induction combo, offset, half using scanFrom.induct with
  | case1 combo offset => cases h
  | case2 combo offset c half hc hnone ih =>
    rw [scanFrom_key hc hnone] at h
    obtain ⟨before, rest, combo', rfl, hread, hstuck⟩ := ih h
    refine ⟨c :: before, rest, combo', rfl, ?_, ?_⟩
    · rwa [scanFrom_key hc hnone]
    · rwa [byteLength_cons, ← Nat.add_assoc]
  | case3 combo offset c half hc first hsome =>
    rw [scanFrom_secondKey hc hsome] at h
    obtain rfl := Except.error.inj h
    have hsecond := ofSymbol?_eq_none_iff.mp hc
    exact ⟨[], c :: half, combo, rfl, rfl, .secondKey hsome hsecond⟩
  | case4 combo offset c m hc hm =>
    rw [scanFrom_danglingSide hc hm (by simp)] at h
    obtain rfl := Except.error.inj h
    have hside := (mem_symbols_of_ofSymbol? hc).2.mp hm
    exact ⟨[], [c], combo, rfl, rfl, .danglingSide hside (by simp)⟩
  | case5 combo offset c m hc hm d half hd =>
    rw [scanFrom_danglingSide hc hm (by simpa using hd)] at h
    obtain rfl := Except.error.inj h
    have hside := (mem_symbols_of_ofSymbol? hc).2.mp hm
    have hnext : ∀ c ∈ (d :: half).head?, c ∉ Modifier.symbols := by
      simpa using ofSymbol?_eq_none_iff.mp hd
    exact ⟨[], c :: d :: half, combo, rfl, rfl, .danglingSide hside hnext⟩
  | case6 combo offset c m hc hm d half n hd ih =>
    rw [scanFrom_pair hc hm hd] at h
    obtain ⟨before, rest, combo', rfl, hread, hstuck⟩ := ih h
    refine ⟨c :: d :: before, rest, combo', rfl, ?_, ?_⟩
    · rwa [scanFrom_pair hc hm hd]
    · rwa [byteLength_cons, byteLength_cons, ← Nat.add_assoc,
        ← Nat.add_assoc]
  | case7 combo offset c half m hc hm ih =>
    rw [scanFrom_plain hc hm] at h
    obtain ⟨before, rest, combo', rfl, hread, hstuck⟩ := ih h
    refine ⟨c :: before, rest, combo', rfl, ?_, ?_⟩
    · rwa [scanFrom_plain hc hm]
    · rwa [byteLength_cons, ← Nat.add_assoc]

/-! ### The half as a whole -/

section
variable {half : List Char} {offset : Nat} {cause : ScanError}

/-- A half that is stuck somewhere is refused. All before has been read,
and nothing behind can help. -/
theorem StuckAt.scan_eq (h : StuckAt half offset cause) :
    scan half = .error cause := by
  obtain ⟨before, rest, combo, rfl, rfl, hread, hstuck⟩ := h
  rw [scan, scanFrom_append hread, Nat.zero_add]
  exact hstuck.scanFrom_eq

/-- The cause tells where the half is stuck. -/
theorem StuckAt.offset_eq (h : StuckAt half offset cause) :
    cause.offset = offset := by
  obtain ⟨_, _, _, _, _, _, hstuck⟩ := h
  exact hstuck.offset_eq

/-- A half that is refused is stuck where its cause says. -/
theorem stuckAt_of_scan (h : scan half = .error cause) :
    StuckAt half cause.offset cause := by
  obtain ⟨before, rest, combo, heq, hread, hstuck⟩ :=
    exists_stuck_of_scanFrom h
  rw [Nat.zero_add] at hstuck
  rw [hstuck.offset_eq]
  exact ⟨before, rest, combo, heq, rfl, hread, hstuck⟩

/-- The refused character stands in the half, between the end of one
character and the end of the half. -/
theorem StuckAt.isValid_offset (h : StuckAt half offset cause) :
    offset < byteLength half
      ∧ (⟨offset⟩ : String.Pos.Raw).IsValid (String.ofList half) := by
  obtain ⟨before, rest, combo, rfl, rfl, -, hstuck⟩ := h
  constructor
  · have hpos : 0 < byteLength rest := by
      cases hstuck with
      | danglingSide _ _ => exact byteLength_cons_pos _ _
      | secondKey _ _ => exact byteLength_cons_pos _ _
    rw [byteLength_append]
    exact Nat.lt_add_of_pos_right hpos
  · rw [String.Pos.Raw.isValid_iff_exists_append]
    exact ⟨String.ofList before, String.ofList rest,
      String.ofList_append, rfl⟩

/-- The number of bytes that are left tells the number before. -/
theorem StuckAt.exists_rest (h : StuckAt half offset cause) :
    ∃ before rest, half = before ++ rest
      ∧ byteLength rest ≤ byteLength half
      ∧ byteLength half - byteLength rest = offset := by
  obtain ⟨before, rest, _, rfl, rfl, _, _⟩ := h
  rw [byteLength_append]
  exact ⟨before, rest, rfl, Nat.le_add_left _ _, Nat.add_sub_cancel _ _⟩

end

/-- **The refusals of a half.** A half is refused exactly where it is
stuck, and then with what is wrong there. There is one such place only.
It is the start of a character of the half, and the number of bytes
before it can be had from the number of those that are left. -/
theorem scan_eq_error_iff_stuckAt (half : List Char) :
    (∀ cause, scan half = .error cause ↔ ∃ offset, StuckAt half offset cause)
      ∧ ((∃ cause, scan half = .error cause) →
        ∃! offset, ∃ cause, StuckAt half offset cause)
      ∧ ∀ offset cause, StuckAt half offset cause →
        offset < byteLength half
          ∧ (⟨offset⟩ : String.Pos.Raw).IsValid (String.ofList half)
          ∧ ∃ before rest, half = before ++ rest
            ∧ byteLength rest ≤ byteLength half
            ∧ byteLength half - byteLength rest = offset := by
  refine ⟨fun cause => ⟨fun h => ⟨_, stuckAt_of_scan h⟩, ?_⟩, ?_, ?_⟩
  · rintro ⟨offset, h⟩
    exact h.scan_eq
  -- Two places would give two causes for one scan, and each cause tells
  -- its place.
  · rintro ⟨cause, h⟩
    refine ⟨cause.offset, ⟨cause, stuckAt_of_scan h⟩, ?_⟩
    rintro offset ⟨cause', hstuck⟩
    obtain rfl : cause' = cause :=
      Except.error.inj (hstuck.scan_eq.symm.trans h)
    exact hstuck.offset_eq.symm
  · intro offset cause h
    exact ⟨h.isValid_offset.1, h.isValid_offset.2, h.exists_rest⟩

/-- A key of two bytes, a side that no symbol follows, and a second key.
The side comes first. -/
theorem scan_side_before_second_key :
    scan ['é', '<', 'x'] = .error (.danglingSide '<' 2)
      ∧ ∃! offset, ∃ cause, StuckAt ['é', '<', 'x'] offset cause := by
  have hscan : scan ['é', '<', 'x'] = .error (.danglingSide '<' 2) := by
    decide
  exact ⟨hscan, (scan_eq_error_iff_stuckAt _).2.1 ⟨_, hscan⟩⟩

end Half

end HotkeyScript
