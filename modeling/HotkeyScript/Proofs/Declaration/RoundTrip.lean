import HotkeyScript.Proofs.Declaration.Image

/-!
# `HotkeyScript.Proofs.Declaration.RoundTrip`: reading a hotkey again

`Hotkey.declaration` writes a hotkey in symbols, with `<` and `>` in
front of the others. The line that the hotkey was read from may have had
them elsewhere, as in `^<!k`, or twice, as in `<<k`. The first of these is
written as `<!^k`, where they qualify another symbol, and is read as the
same combo. The second is written as `<k`, which is no half.

* `ofLine_declaration_eq`: reading what is written for combos that can be
  declared.
* `ofLine_declaration`: so for every hotkey that has been read.
-/

set_option autoImplicit false

namespace HotkeyScript

namespace Declaration

section
variable {combo : Combo}

/-- The symbols of a combo can be a half of a declaration. -/
theorem isHalf_symbols (h : combo.Declarable) : IsHalf combo.symbols :=
  isHalf_of_declarable h fun _ hc => Half.mem_of_mem_symbols hc

/-- The symbols of a declarable combo spell it, but for a lonely side. -/
theorem scan_symbols_of_declarable (h : combo.Declarable) :
    Half.scan combo.symbols
      = match combo.lonelySide? with
        | none => .ok combo
        | some side => .error (.danglingSide side 0) :=
  Half.scan_symbols h.modifiers fun c hc => (h.key c hc).2.1

/-- A combo with a modifier or a key has something to write. -/
theorem symbols_ne_nil (h : combo.Declarable)
    (hne : combo.modifiers ≠ ∅ ∨ combo.key ≠ none) :
    combo.symbols ≠ [] := by
  intro hnil
  rw [Half.symbols_eq_append, List.append_eq_nil_iff] at hnil
  -- Nothing doubled is still nothing.
  apply spelling_ne_nil h hne
  rw [Combo.spelling, hnil.1, hnil.2]
  rfl

end

/-- What is written for a declarable hotkey is read as its combos, or
refused at the start of the first half with a lonely side. -/
theorem ofLine_declaration_eq {hotkey : Hotkey}
    (h : Hotkey.IsDeclarable hotkey.first hotkey.second) :
    let text := String.ofList hotkey.declaration
    Hotkey.ofLine text
      = match hotkey.combos.findSome? Combo.lonelySide? with
        | none => .ok ⟨text, hotkey.first, hotkey.second⟩
        | some side => .error (.half (.danglingSide side 0)) := by
  intro text
  obtain ⟨line, first, second⟩ := hotkey
  have hfirst := h.declarable_first
  -- A single half or two. In either case the text is the one from which
  -- `ofLine_marker` or `ofLine_joiner_marker` reads.
  cases second with
  | none =>
    have htext : text = String.ofList (first.symbols ++ marker.toList) := by
      simp [text, Hotkey.declaration, toList_marker]
    rw [htext, ofLine_marker (isHalf_symbols hfirst)
      (symbols_ne_nil hfirst (h.ne_empty rfl)),
      scan_symbols_of_declarable hfirst]
    cases hlonely : first.lonelySide? <;>
      simp [Hotkey.combos, hlonely, Except.map, Except.mapError]
  | some second =>
    have hsecond := h.declarable_second second rfl
    have htext : text = String.ofList
        (first.symbols ++ joiner :: second.symbols ++ marker.toList) := by
      simp [text, Hotkey.declaration, toList_marker, joiner]
    rw [htext, ofLine_joiner_marker (isHalf_symbols hfirst)
      (isHalf_symbols hsecond), scan_symbols_of_declarable hfirst,
      scan_symbols_of_declarable hsecond]
    -- The second half is read only if the first one is.
    cases hlonely : first.lonelySide? with
    | some side => simp [Hotkey.combos, hlonely, Except.bind, Except.mapError]
    | none =>
      cases hlonely' : second.lonelySide? <;>
        simp [Hotkey.combos, hlonely, hlonely', Except.bind, Except.map,
          Except.mapError]

/-- **Reading a hotkey again** from the symbols in which it is written:
it has the same combos, unless one of them has a lonely side. -/
theorem ofLine_declaration {line : String} {hotkey : Hotkey}
    (h : Hotkey.ofLine? line = some hotkey) :
    let text := String.ofList hotkey.declaration
    Hotkey.ofLine text
      = match hotkey.combos.findSome? Combo.lonelySide? with
        | none => .ok ⟨text, hotkey.first, hotkey.second⟩
        | some side => .error (.half (.danglingSide side 0)) :=
  ofLine_declaration_eq
    (declares_of_ofLine (Hotkey.ofLine?_eq_some_iff.mp h)).isDeclarable

/-- The `<` of the first line qualifies another symbol in the second
reading. The `>` of the other one is left with none. -/
theorem ofLine_declaration_of_lines :
    let single : Hotkey := ⟨"^<!k:: x", ⟨⟨0x26#16⟩, some 'k'⟩, none⟩
    let chord : Hotkey :=
      ⟨": & >> ::", ⟨⟨0#16⟩, some ':'⟩, some ⟨⟨0x40#16⟩, none⟩⟩
    (Hotkey.ofLine? "^<!k:: x" = some single
        ∧ Hotkey.ofLine "<!^k::" = .ok { single with text := "<!^k::" })
      ∧ Hotkey.ofLine? ": & >> ::" = some chord
        ∧ Hotkey.ofLine ":&>::" = .error (.half (.danglingSide '>' 0)) := by
  intro single chord
  have hsingle : Hotkey.ofLine? "^<!k:: x" = some single := by decide
  have hchord : Hotkey.ofLine? ": & >> ::" = some chord := by decide
  have hsingle' : Hotkey.ofLine (String.ofList single.declaration) = _ :=
    ofLine_declaration hsingle
  have hchord' : Hotkey.ofLine (String.ofList chord.declaration) = _ :=
    ofLine_declaration hchord
  have hwritten : String.ofList single.declaration = "<!^k::" := by decide
  have hwritten' : String.ofList chord.declaration = ":&>::" := by decide
  -- The first hotkey leaves no side alone. The chord leaves the `>`.
  have hlonely : single.combos.findSome? Combo.lonelySide? = none := by
    decide
  have hlonely' : chord.combos.findSome? Combo.lonelySide? = some '>' := by
    decide
  rw [hwritten, hlonely] at hsingle'
  rw [hwritten', hlonely'] at hchord'
  exact ⟨⟨hsingle, hsingle'⟩, hchord, hchord'⟩

end Declaration

end HotkeyScript
