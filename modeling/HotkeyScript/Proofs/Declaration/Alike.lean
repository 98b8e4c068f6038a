import HotkeyScript.Proofs.Declaration.Grammar
import HotkeyScript.Proofs.Modifier.Symbols
import HotkeyScript.Proofs.Text.LowerCase

/-!
# `HotkeyScript.Proofs.Declaration.Alike`: two lines read side by side

All that a declaration is cut by are marks: the symbols, the joiner and
the colon. Marks have no case. So two lines that differ in blank
characters and in case are cut in the same places, and what is left are
keys that differ in case. The offsets of their refusals may be different,
since a letter and its lower case may be of different lengths.

* `SameOutcome`: two readings that both succeed or both fail.
* `scanFrom_alike`, `keyPart?_alike`, `splitOn_joiner_alike`: each stage
  takes related texts to related results. They go by the recursion of the
  stage, with both texts in step.
* `ofLine_alike`: the stages together.
-/

set_option autoImplicit false

namespace HotkeyScript

open Text (SameLetter)

/-- Two readings of one outcome, alike as values or alike as refusals. -/
inductive SameOutcome {ε α : Type} (E : ε → ε → Prop) (R : α → α → Prop) :
    Except ε α → Except ε α → Prop where
  | ok {a b : α} (h : R a b) : SameOutcome E R (.ok a) (.ok b)
  | error {a b : ε} (h : E a b) : SameOutcome E R (.error a) (.error b)

/-- The same modifiers, and the same key, case apart. -/
structure Combo.Alike (a b : Combo) : Prop where
  modifiers : a.modifiers = b.modifiers
  key : a.key.map Text.lowerCase = b.key.map Text.lowerCase

/-- The same refusal, wherever it stands and whatever the case of its
keys. -/
inductive ScanError.Alike : ScanError → ScanError → Prop where
  | danglingSide (symbol : Char) (offset offset' : Nat) :
      Alike (.danglingSide symbol offset) (.danglingSide symbol offset')
  | secondKey {first second first' second' : Char} (offset offset' : Nat)
      (hfirst : SameLetter first first')
      (hsecond : SameLetter second second') :
      Alike (.secondKey first second offset)
        (.secondKey first' second' offset')

/-- The same refusal of a line. -/
inductive DeclarationError.Alike :
    DeclarationError → DeclarationError → Prop where
  | blank : Alike .blank .blank
  | missingMarker : Alike .missingMarker .missingMarker
  | emptyKeyPart : Alike .emptyKeyPart .emptyKeyPart
  | tooManyHalves (parts : Nat) :
      Alike (.tooManyHalves parts) (.tooManyHalves parts)
  | half {cause cause' : ScanError} (h : ScanError.Alike cause cause') :
      Alike (.half cause) (.half cause')

/-- Both hotkeys are single combos or both are chords, of combos that are
alike. A search takes the one for the other. -/
structure Hotkey.Alike (a b : Hotkey) : Prop where
  sameTrigger : a.sameTrigger b = true
  isChord : a.isChord = b.isChord
  first : Combo.Alike a.first b.first
  second : ∀ p ∈ a.second, ∀ q ∈ b.second, Combo.Alike p q

namespace SameOutcome

variable {ε ε' α β : Type} {E : ε → ε → Prop} {E' : ε' → ε' → Prop}
  {R : α → α → Prop} {S : β → β → Prop} {x y : Except ε α}

/-- What is made of related values is related if making keeps the
relation. -/
theorem map (h : SameOutcome E R x y) {f g : α → β}
    (hfg : ∀ a b, R a b → S (f a) (g b)) :
    SameOutcome E S (x.map f) (y.map g) := by
  cases h with
  | ok h => exact .ok (hfg _ _ h)
  | error h => exact .error h

/-- A step after another keeps two readings together, if it does so from
any two related results of the first. -/
theorem bind (h : SameOutcome E R x y) {f g : α → Except ε β}
    (hfg : ∀ a b, R a b → SameOutcome E S (f a) (g b)) :
    SameOutcome E S (x.bind f) (y.bind g) := by
  cases h with
  | ok h => exact hfg _ _ h
  | error h => exact .error h

/-- A change of the refusals keeps two readings together too. -/
theorem mapError (h : SameOutcome E R x y) {f g : ε → ε'}
    (hfg : ∀ a b, E a b → E' (f a) (g b)) :
    SameOutcome E' R (x.mapError f) (y.mapError g) := by
  cases h with
  | ok h => exact .ok h
  | error h => exact .error (hfg _ _ h)

end SameOutcome

namespace Combo.Alike

variable {a b : Combo}

/-- Alike combos stay alike when one modifier joins both. -/
theorem hold (h : Combo.Alike a b) (m : Modifier) :
    Combo.Alike (a.hold m) (b.hold m) where
  modifiers := congrArg (· ∪ ModifierSet.single m) h.modifiers
  key := h.key

/-- Alike combos stay alike when each is given the same letter as its key,
in one case or the other. -/
theorem press (h : Combo.Alike a b) {c d : Char} (hletter : SameLetter c d) :
    Combo.Alike (a.press c) (b.press d) where
  modifiers := h.modifiers
  key := congrArg some hletter

end Combo.Alike

/-! ### Marks -/

/-- None of the characters that the readers look for has a case. All that
follows rests on this: a change of case can neither make a mark nor take
one away. -/
theorem caseless_of_mem_marks : ∀ mark ∈ Modifier.symbols ++ [':', '&', ';'],
    ¬ Text.HasCase mark.toNat ∧ mark ≠ '\x00' := by
  -- To decide it as it stands would be to go through all characters.
  have hall : (Modifier.symbols ++ [':', '&', ';']).all (fun mark =>
      ¬ Text.HasCase mark.toNat ∧ mark ≠ '\x00') = true := by
    decide
  exact fun mark hmark =>
    of_decide_eq_true (List.all_eq_true.mp hall mark hmark)

section
variable {c d : Char}

/-- A letter is a mark exactly when its other case is. -/
theorem eq_mark_iff (h : SameLetter c d) {mark : Char}
    (hmark : mark ∈ Modifier.symbols ++ [':', '&', ';']) :
    c = mark ↔ d = mark :=
  h.eq_iff (caseless_of_mem_marks mark hmark)

/-- A letter that is a symbol is the same symbol in either case. -/
theorem ofSymbol?_eq_of_sameLetter (h : SameLetter c d) :
    Modifier.ofSymbol? d = Modifier.ofSymbol? c := by
  -- A symbol has no case and is the same character. What is no symbol in
  -- one case is none in the other.
  by_cases hc : c ∈ Modifier.symbols
  · rw [(eq_mark_iff h (List.mem_append_left _ hc)).mp rfl]
  · have hd : d ∉ Modifier.symbols := by
      intro hd
      rw [(eq_mark_iff h (List.mem_append_left _ hd)).mpr rfl] at hc
      exact hc hd
    rw [Modifier.ofSymbol?_eq_none_iff.mpr hc,
      Modifier.ofSymbol?_eq_none_iff.mpr hd]

/-- A symbol is the same letter as itself only. -/
theorem eq_of_ofSymbol? {m : Modifier} (h : SameLetter c d)
    (hc : Modifier.ofSymbol? c = some m) : d = c := by
  have hmem := (Modifier.mem_symbols_of_ofSymbol? hc).1
  exact (eq_mark_iff h (List.mem_append_left _ hmem)).mp rfl

end

/-! ### Halves -/

namespace Half

/-- The scans of two halves in step. They may stand at different offsets,
since a letter and its lower case may be of different lengths. -/
theorem scanFrom_alike {combo combo' : Combo} {half half' : List Char}
    (hcombo : Combo.Alike combo combo')
    (hhalf : List.Forall₂ SameLetter half half') (offset offset' : Nat) :
    SameOutcome ScanError.Alike Combo.Alike (scanFrom combo offset half)
      (scanFrom combo' offset' half') := by
  -- The symbols are the same in both halves and the combos have a key both
  -- or neither, so the second scan takes the branches of the first.
  induction combo, offset, half using scanFrom.induct
    generalizing combo' half' offset' with
  | case1 combo offset =>
    cases hhalf
    exact .ok hcombo
  | case2 combo offset c rest hc hnone ih =>
    obtain ⟨d, rest', hletter, hrest, rfl⟩ :=
      List.forall₂_cons_left_iff.mp hhalf
    have hd := (ofSymbol?_eq_of_sameLetter hletter).trans hc
    have hnone' : combo'.key = none := by
      rw [← Option.map_eq_none_iff, ← hcombo.key, hnone, Option.map_none]
    rw [scanFrom_key hc hnone, scanFrom_key hd hnone']
    exact ih (hcombo.press hletter) hrest _
  | case3 combo offset c rest hc first hsome =>
    obtain ⟨d, rest', hletter, hrest, rfl⟩ :=
      List.forall₂_cons_left_iff.mp hhalf
    have hd := (ofSymbol?_eq_of_sameLetter hletter).trans hc
    have hkey := hcombo.key
    rw [hsome, Option.map_some, eq_comm, Option.map_eq_some_iff] at hkey
    obtain ⟨first', hsome', hfirst⟩ := hkey
    rw [scanFrom_secondKey hc hsome, scanFrom_secondKey hd hsome']
    exact .error (.secondKey _ _ hfirst.symm hletter)
  | case4 combo offset c m hc hm =>
    obtain ⟨d, rest', hletter, hrest, rfl⟩ :=
      List.forall₂_cons_left_iff.mp hhalf
    obtain rfl := eq_of_ofSymbol? hletter hc
    cases hrest
    rw [scanFrom_danglingSide hc hm (by simp),
      scanFrom_danglingSide hc hm (by simp)]
    exact .error (.danglingSide _ _ _)
  | case5 combo offset c m hc hm e rest he =>
    obtain ⟨d, rest', hletter, hrest, rfl⟩ :=
      List.forall₂_cons_left_iff.mp hhalf
    obtain ⟨e', rest', hletter', -, rfl⟩ :=
      List.forall₂_cons_left_iff.mp hrest
    obtain rfl := eq_of_ofSymbol? hletter hc
    have he' := (ofSymbol?_eq_of_sameLetter hletter').trans he
    rw [scanFrom_danglingSide hc hm (by simpa using he),
      scanFrom_danglingSide hc hm (by simpa using he')]
    exact .error (.danglingSide _ _ _)
  | case6 combo offset c m hc hm e rest n he ih =>
    obtain ⟨d, rest', hletter, hrest, rfl⟩ :=
      List.forall₂_cons_left_iff.mp hhalf
    obtain ⟨e', rest', hletter', hrest', rfl⟩ :=
      List.forall₂_cons_left_iff.mp hrest
    have hd := (ofSymbol?_eq_of_sameLetter hletter).trans hc
    have he' := (ofSymbol?_eq_of_sameLetter hletter').trans he
    rw [scanFrom_pair hc hm he, scanFrom_pair hd hm he']
    exact ih ((hcombo.hold m).hold n) hrest' _
  | case7 combo offset c rest m hc hm ih =>
    obtain ⟨d, rest', hletter, hrest, rfl⟩ :=
      List.forall₂_cons_left_iff.mp hhalf
    have hd := (ofSymbol?_eq_of_sameLetter hletter).trans hc
    rw [scanFrom_plain hc hm, scanFrom_plain hd hm]
    exact ih (hcombo.hold m) hrest _

end Half

namespace Declaration

section
variable {text text' : List Char}

/-! ### The key part -/

/-- The first markers of two texts stand at the same place, with related
texts behind them. -/
theorem afterMarker?_alike (h : List.Forall₂ SameLetter text text') :
    Option.Rel (List.Forall₂ SameLetter) (afterMarker? text)
      (afterMarker? text') := by
  have hcolon : ':' ∈ Modifier.symbols ++ [':', '&', ';'] := by decide
  induction text using afterMarker?.induct generalizing text' with
  | case1 =>
    cases h
    exact .none
  | case2 tail =>
    obtain ⟨c, rest, hc, hrest, rfl⟩ := List.forall₂_cons_left_iff.mp h
    obtain ⟨d, rest, hd, htail, rfl⟩ := List.forall₂_cons_left_iff.mp hrest
    obtain rfl : c = ':' := (eq_mark_iff hc hcolon).mp rfl
    obtain rfl : d = ':' := (eq_mark_iff hd hcolon).mp rfl
    exact .some htail
  | case3 c tail hnot ih =>
    obtain ⟨d, tail', hletter, htail, rfl⟩ :=
      List.forall₂_cons_left_iff.mp h
    -- A marker here would be one in the other text.
    have hnot' : ∀ rest, d = ':' → tail' = ':' :: rest → False := by
      rintro rest hd rfl
      obtain ⟨e, rest, he, -, rfl⟩ := List.forall₂_cons_right_iff.mp htail
      exact hnot rest ((eq_mark_iff hletter hcolon).mpr hd)
        (by rw [(eq_mark_iff he hcolon).mpr rfl])
    rw [afterMarker?.eq_3 c tail hnot, afterMarker?.eq_3 d tail' hnot']
    exact ih htail

/-- The last markers stand at the same place as well, with related texts
before them. -/
theorem keyPart?_alike (h : List.Forall₂ SameLetter text text') :
    Option.Rel (List.Forall₂ SameLetter) (keyPart? text)
      (keyPart? text') := by
  have hafter := afterMarker?_alike (List.rel_reverse h)
  rw [keyPart?, keyPart?]
  -- Found or not, the two searches end alike.
  generalize afterMarker? text.reverse = rest at hafter ⊢
  generalize afterMarker? text'.reverse = rest' at hafter ⊢
  cases hafter with
  | none => exact .none
  | some hrest => exact .some (List.rel_reverse hrest)

/-! ### The halves -/

/-- Two texts of the same letters are split at the same joiners, into
parts of the same letters. -/
theorem splitOn_joiner_alike (h : List.Forall₂ SameLetter text text') :
    List.Forall₂ (List.Forall₂ SameLetter) (text.splitOn joiner)
      (text'.splitOn joiner) := by
  rw [List.splitOn_eq_splitOnP, List.splitOn_eq_splitOnP]
  refine List.forall₂_splitOnP h fun c d hletter => ?_
  rw [beq_iff_eq, beq_iff_eq]
  exact eq_mark_iff hletter (by decide)

/-- Two refused halves with the same cause. -/
def Refused.Alike (a b : Refused) : Prop := ScanError.Alike a.cause b.cause

/-- Halves that differ in the case of letters are read alike. -/
theorem readHalf_alike (h : List.Forall₂ SameLetter text text') :
    SameOutcome Refused.Alike Combo.Alike (readHalf text)
      (readHalf text') := by
  have hempty : Combo.Alike Combo.empty Combo.empty := ⟨rfl, rfl⟩
  have hscan := Half.scanFrom_alike hempty h 0 0
  exact hscan.mapError fun _ _ hcause => hcause

/-- The combos of two key parts, one by one. -/
def CombosAlike (a b : Combo × Option Combo) : Prop :=
  Combo.Alike a.1 b.1 ∧ Option.Rel Combo.Alike a.2 b.2

/-- Two hotkeys with related combos are alike, whatever their lines. -/
theorem CombosAlike.hotkey {a b : Combo × Option Combo}
    (h : CombosAlike a b) (line other : String) :
    Hotkey.Alike ⟨line, a.1, a.2⟩ ⟨other, b.1, b.2⟩ where
  sameTrigger := by
    rw [Hotkey.sameTrigger, Combo.sameKey, Bool.and_eq_true, beq_iff_eq,
      beq_iff_eq]
    exact ⟨h.1.modifiers, h.1.key⟩
  isChord := by
    obtain ⟨-, hsecond⟩ := h
    rw [Hotkey.isChord, Hotkey.isChord]
    -- There are two second combos or none.
    generalize a.2 = second at hsecond ⊢
    generalize b.2 = second' at hsecond ⊢
    cases hsecond <;> rfl
  first := h.1
  second p hp q hq := by
    obtain ⟨-, hsecond⟩ := h
    change a.2 = some p at hp
    change b.2 = some q at hq
    rw [hp, hq] at hsecond
    cases hsecond with
    | some hcombo => exact hcombo

/-- The halves of two key parts, one by one. -/
structure Halves.Alike (a b : Halves) : Prop where
  first : List.Forall₂ SameLetter a.first b.first
  second : Option.Rel (List.Forall₂ SameLetter) a.second b.second

/-- The combos of the halves are read in step, so that one reading ends
with a refusal where the other does. -/
theorem Halves.Alike.read {a b : Halves} (h : Halves.Alike a b) :
    SameOutcome Refused.Alike CombosAlike a.read b.read := by
  obtain ⟨first, second⟩ := a
  obtain ⟨first', second'⟩ := b
  obtain ⟨hfirst, hsecond⟩ := h
  refine (readHalf_alike hfirst).bind fun _ _ hcombo => ?_
  cases hsecond with
  | none => exact .ok ⟨hcombo, .none⟩
  | some hright =>
    exact ((readHalf_alike hright).map fun _ _ => Option.Rel.some).bind
      fun _ _ hcombo' => .ok ⟨hcombo, hcombo'⟩

/-- A key part falls into as many halves in either case. -/
theorem ofKeyPart_alike (h : List.Forall₂ SameLetter text text') :
    SameOutcome DeclarationError.Alike Halves.Alike
      (Halves.ofKeyPart text) (Halves.ofKeyPart text') := by
  have hsplit := splitOn_joiner_alike h
  rw [Halves.ofKeyPart, Halves.ofKeyPart]
  generalize text.splitOn joiner = parts at hsplit ⊢
  generalize text'.splitOn joiner = parts' at hsplit ⊢
  cases hsplit with
  | nil => exact .error (.tooManyHalves _)
  | cons hleft hrest =>
    cases hrest with
    | nil => exact .ok ⟨hleft, .none⟩
    | cons hright hmore =>
      cases hmore with
      | nil => exact .ok ⟨hleft, .some hright⟩
      | cons _ hmore =>
        simp only [List.length_cons, hmore.length_eq]
        exact .error (.tooManyHalves _)

end

/-! ### Lines -/

/-- The tests before the halves go by marks and blank characters only. -/
theorem halves_alike {line other : List Char} (h : Text.Alike line other) :
    SameOutcome DeclarationError.Alike Halves.Alike (Halves.ofLine line)
      (Halves.ofLine other) := by
  unfold Text.Alike at h
  have hblank : Text.squeeze line = [] ↔ Text.squeeze other = [] := by
    rw [← List.length_eq_zero_iff, h.length_eq, List.length_eq_zero_iff]
  have hkeyPart := keyPart?_alike h
  rw [Halves.ofLine, Halves.ofLine]
  simp only [trim_isEmpty_iff, ← hblank]
  split
  · exact .error .blank
  -- The marker is found in both lines or in neither, and the key parts
  -- are empty together.
  · generalize keyPart? (Text.squeeze line) = keyPart at hkeyPart ⊢
    generalize keyPart? (Text.squeeze other) = keyPart' at hkeyPart ⊢
    cases hkeyPart with
    | none => exact .error .missingMarker
    | @some keyPart keyPart' hsome =>
      cases hsome with
      | nil => exact .error .emptyKeyPart
      | cons hletter hrest => exact ofKeyPart_alike (.cons hletter hrest)

/-- Lines that are alike declare combos that are alike. -/
theorem read_alike {line other : List Char} (h : Text.Alike line other) :
    SameOutcome DeclarationError.Alike CombosAlike (read line)
      (read other) :=
  (halves_alike h).bind fun _ _ hhalves =>
    hhalves.read.mapError fun _ _ hcause => .half hcause

/-- Lines that differ in blank characters and
in case declare hotkeys that are alike, or are refused alike. -/
theorem ofLine_alike {line other : String}
    (h : Text.Alike line.toList other.toList) :
    SameOutcome DeclarationError.Alike Hotkey.Alike (Hotkey.ofLine line)
      (Hotkey.ofLine other) := by
  rw [ofLine_eq_map_read, ofLine_eq_map_read]
  exact (read_alike h).map fun _ _ hcombos => hcombos.hotkey line other

end Declaration

end HotkeyScript
