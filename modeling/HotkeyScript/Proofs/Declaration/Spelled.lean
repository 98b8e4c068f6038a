import HotkeyScript.Proofs.Declaration.Grammar
import HotkeyScript.Proofs.Half.Spelled

/-!
# `HotkeyScript.Proofs.Declaration.Spelled`: declarations put together

A declaration is put together from its halves: the halves, a joiner
between them if there are two, and the marker behind. It is taken apart
at the same places if no half has a joiner or a blank character in it. A
half may end with a colon, or hold a marker. The last marker of the whole
text is the one behind the halves all the same, since nothing follows it.

* `ofLine_marker`, `ofLine_joiner_marker`: reading what was put together
  from one half or from two.
* `Declares` and `declares_of_ofLine`: every hotkey that is read has been
  read from one or two such halves.
* `Combo.Declarable`, `Hotkey.IsDeclarable`: what these halves make of
  its combos.
-/

set_option autoImplicit false

namespace HotkeyScript

namespace Declaration

/-- A text of which a declaration can be put together. -/
def IsHalf (half : List Char) : Prop :=
  ∀ c ∈ half, Text.isBlank c = false ∧ c ≠ joiner

/-! ### Putting together -/

/-- A text without blank characters has nothing to lose. -/
theorem squeeze_eq_self {text : List Char}
    (h : ∀ c ∈ text, Text.isBlank c = false) : Text.squeeze text = text := by
  rw [Text.squeeze, List.filter_eq_self]
  intro c hc
  rw [h c hc]
  rfl

/-- What is put before a single marker is the key part, also if it ends
with a colon or holds a marker itself. -/
theorem hasKeyPart_marker {keyPart : List Char}
    (h : ∀ c ∈ keyPart, Text.isBlank c = false) :
    HasKeyPart (String.ofList (keyPart ++ marker.toList)) keyPart := by
  refine ⟨[], ?_, by simp, by simp [toList_marker]⟩
  rw [String.toList_ofList, List.append_nil]
  apply squeeze_eq_self
  intro c hc
  cases List.mem_append.mp hc with
  | inl hmem => exact h c hmem
  | inr hmem =>
    have hall : marker.toList.all (Text.isBlank · = false) = true := by
      decide
    exact of_decide_eq_true (List.all_eq_true.mp hall c hmem)

/-- A half has no joiner, so none is counted in it. -/
theorem IsHalf.count_joiner {half : List Char} (h : IsHalf half) :
    half.count joiner = 0 :=
  List.count_eq_zero.mpr fun hmem => (h joiner hmem).2 rfl

/-- What was put together from one half is read as what the half spells. -/
theorem ofLine_marker {half : List Char} (hhalf : IsHalf half)
    (hne : half ≠ []) :
    let line := String.ofList (half ++ marker.toList)
    Hotkey.ofLine line
      = ((Half.scan half).map fun combo => ⟨line, combo, none⟩).mapError
          .half := by
  intro line
  have hkey : HasKeyPart line half := hasKeyPart_marker fun c hc => (hhalf c hc).1
  have hhalves : halves half = 1 := by rw [halves, hhalf.count_joiner]
  rw [ofLine_eq_map_read, read_of_ok (hkey.ofLine_single hne hhalves)]
  cases hscan : Half.scan half with
  | error cause => rw [read_of_first_error hscan]; rfl
  | ok combo => rw [read_single_of_ok hscan]; rfl

/-- What was put together from two halves is read as what they spell, the
first of them first. -/
theorem ofLine_joiner_marker {left right : List Char} (hleft : IsHalf left)
    (hright : IsHalf right) :
    let line := String.ofList (left ++ joiner :: right ++ marker.toList)
    Hotkey.ofLine line
      = ((Half.scan left).bind fun first =>
          (Half.scan right).map fun second =>
            ⟨line, first, some second⟩).mapError .half := by
  intro line
  have hblank : ∀ c ∈ left ++ joiner :: right, Text.isBlank c = false := by
    intro c hc
    simp only [List.mem_append, List.mem_cons] at hc
    rcases hc with hmem | rfl | hmem
    · exact (hleft c hmem).1
    · decide
    · exact (hright c hmem).1
  have hkey : HasKeyPart line (left ++ joiner :: right) :=
    hasKeyPart_marker hblank
  -- Neither half holds a joiner, so the one between them is the only one.
  have hhalves : halves (left ++ joiner :: right) = 2 := by
    rw [halves, List.count_append, List.count_cons_self, hleft.count_joiner,
      hright.count_joiner]
  rw [ofLine_eq_map_read, read_of_ok (hkey.ofLine_chord hhalves)]
  cases hfirst : Half.scan left with
  | error cause => rw [read_of_first_error hfirst]; rfl
  | ok first =>
    cases hsecond : Half.scan right with
    | error cause => rw [read_chord_of_error hfirst hsecond]; rfl
    | ok second => rw [read_chord_of_ok hfirst hsecond]; rfl

/-! ### Taking apart -/

/-- A line declares a hotkey by one half or by two, all of whose
characters are its own. -/
inductive Declares (line : String) : Hotkey → Prop where
  | single {half : List Char} {combo : Combo} (hhalf : IsHalf half)
      (hmem : ∀ c ∈ half, c ∈ line.toList) (hne : half ≠ [])
      (hscan : Half.scan half = .ok combo) :
      Declares line ⟨line, combo, none⟩
  | chord {left right : List Char} {first second : Combo}
      (hleft : IsHalf left) (hright : IsHalf right)
      (hmem : ∀ c ∈ left ++ right, c ∈ line.toList)
      (hfirst : Half.scan left = .ok first)
      (hsecond : Half.scan right = .ok second) :
      Declares line ⟨line, first, some second⟩

/-- The key part has characters of the line, none of them blank. -/
theorem HasKeyPart.mem {line : String} {keyPart : List Char}
    (h : HasKeyPart line keyPart) :
    ∀ c ∈ keyPart, c ∈ line.toList ∧ Text.isBlank c = false := by
  obtain ⟨body, hcut⟩ := h
  intro c hc
  have hmem : c ∈ Text.squeeze line.toList := by
    rw [hcut.eq_append, List.append_assoc]
    exact List.mem_append_left _ hc
  simpa [Text.squeeze] using hmem

/-- Every hotkey that is read has been read from one half or from two. -/
theorem declares_of_ofLine {line : String} {hotkey : Hotkey}
    (h : Hotkey.ofLine line = .ok hotkey) : Declares line hotkey := by
  obtain ⟨verdict, hgrammar⟩ := exists_grammar line
  obtain rfl : verdict = .ok hotkey := (ofLine_eq_of_grammar hgrammar).symm.trans h
  -- Only these two rules end with a hotkey.
  cases hgrammar with
  | @single half combo hkey hne hhalves hscan =>
    have hcount : half.count joiner = 0 := Nat.succ.inj hhalves
    refine .single (fun c hc => ⟨(hkey.mem c hc).2, ?_⟩)
      (fun c hc => (hkey.mem c hc).1) hne hscan
    rintro rfl
    exact List.count_eq_zero.mp hcount hc
  -- The only joiner is the one between the halves, so neither of them has
  -- another.
  | @chord left right first second hkey hhalves hleft hright =>
    have hcount : left.count joiner = 0 ∧ right.count joiner = 0 := by
      rw [halves, List.count_append, List.count_cons_self] at hhalves
      omega
    have hmem : ∀ c, c ∈ left ∨ c ∈ right →
        c ∈ line.toList ∧ Text.isBlank c = false := by
      intro c hc
      apply hkey.mem
      rw [List.mem_append, List.mem_cons]
      exact hc.imp_right .inr
    refine .chord (fun c hc => ⟨(hmem c (.inl hc)).2, ?_⟩)
      (fun c hc => ⟨(hmem c (.inr hc)).2, ?_⟩)
      (fun c hc => (hmem c (List.mem_append.mp hc)).1) hleft hright
    · rintro rfl
      exact List.count_eq_zero.mp hcount.1 hc
    · rintro rfl
      exact List.count_eq_zero.mp hcount.2 hc

end Declaration

/-! ### The combos of a declaration -/

/-- A combo that a declaration can have. -/
structure Combo.Declarable (combo : Combo) : Prop where
  /-- The modifiers are some of those with a symbol, and nothing else. -/
  modifiers : combo.modifiers.OfSymbols
  key : ∀ c ∈ combo.key, Text.isBlank c = false
    ∧ c ∉ Modifier.symbols ∧ c ≠ Declaration.joiner

/-- The combos of a hotkey, in their order. -/
def Hotkey.combos (hotkey : Hotkey) : List Combo :=
  hotkey.first :: hotkey.second.toList

/-- The combos of a hotkey that can be declared. -/
structure Hotkey.IsDeclarable (first : Combo) (second : Option Combo) :
    Prop where
  declarable_first : first.Declarable
  declarable_second : ∀ combo ∈ second, combo.Declarable
  /-- With nothing before it a marker declares nothing. -/
  ne_empty : second = none → first.modifiers ≠ ∅ ∨ first.key ≠ none

namespace Declaration

/-- A combo that is read from a half can be declared. -/
theorem declarable_of_scan {half : List Char} {combo : Combo}
    (hhalf : IsHalf half) (hscan : Half.scan half = .ok combo) :
    combo.Declarable where
  modifiers := Half.ofSymbols_of_scan hscan
  key c hc := by
    obtain ⟨hmem, hsymbol⟩ := Half.mem_of_scan hscan c hc
    exact ⟨(hhalf c hmem).1, hsymbol, (hhalf c hmem).2⟩

/-- The combos of a line can be declared. A single half is not empty, so
it has made something of its combo. -/
theorem Declares.isDeclarable {line : String} {hotkey : Hotkey}
    (h : Declares line hotkey) :
    Hotkey.IsDeclarable hotkey.first hotkey.second := by
  cases h with
  | single hhalf _ hne hscan =>
    exact ⟨declarable_of_scan hhalf hscan, by simp,
      fun _ => Half.ne_empty_of_scan hscan hne⟩
  | chord hleft hright _ hfirst hsecond =>
    refine ⟨declarable_of_scan hleft hfirst, ?_, by simp⟩
    intro combo hcombo
    obtain rfl := Option.some.inj hcombo
    exact declarable_of_scan hright hsecond

/-- Texts of the key and of symbols of a combo can be its half. -/
theorem isHalf_of_declarable {combo : Combo} (h : combo.Declarable)
    {half : List Char}
    (hhalf : ∀ c ∈ half, c ∈ Modifier.symbols ∨ c ∈ combo.key) :
    IsHalf half := by
  have hall : Modifier.symbols.all
      (fun c => Text.isBlank c = false ∧ c ≠ joiner) = true := by decide
  intro c hc
  cases hhalf c hc with
  | inl hsymbol =>
    exact of_decide_eq_true (List.all_eq_true.mp hall c hsymbol)
  | inr hkey => exact ⟨(h.key c hkey).1, (h.key c hkey).2.2⟩

end Declaration

end HotkeyScript
