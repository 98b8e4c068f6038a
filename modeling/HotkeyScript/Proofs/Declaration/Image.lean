import HotkeyScript.Proofs.Declaration.Spelled
import HotkeyScript.Statement
import Mathlib.Data.List.TakeWhile

/-!
# `HotkeyScript.Proofs.Declaration.Image`: which hotkeys can be declared

Not every hotkey that can be built can be read from a line. AltGr, Up and
the bits that stand for no modifier have no symbol, and some characters
cannot be a key in any declaration. `Hotkey.IsDeclarable` has all the
others: each of them has a line, and no line has any other one.

* `ofLine_spelling`: the line of a declarable hotkey. Its halves are
  spellings, since a combo such as the one of `<<` alone is read from no
  text that has the `<` once.
* `Statement.ofLine?_eq_hotkey_iff`: a line of a script declares what it
  would declare by itself, if it holds no comment.
* `exists_line_iff_isDeclarable`: the hotkeys that are read from a line,
  and those that are read from a line of a script.
-/

set_option autoImplicit false

namespace HotkeyScript

namespace Hotkey

/-- A declaration of these combos. -/
def spelling (first : Combo) (second : Option Combo) : List Char :=
  match second with
  | none => first.spelling ++ Declaration.marker.toList
  | some second =>
    first.spelling ++ Declaration.joiner :: second.spelling
      ++ Declaration.marker.toList

/-- The short form of a reading drops the refusals and nothing else. -/
theorem ofLine?_eq_some_iff {line : String} {hotkey : Hotkey} :
    ofLine? line = some hotkey ↔ ofLine line = .ok hotkey := by
  rw [ofLine?]
  cases ofLine line <;> simp [Except.toOption]

end Hotkey

namespace Declaration

/-! ### A line for every declarable hotkey -/

section
variable {combo : Combo}

/-- A combo that can be declared is read from its spelling. -/
theorem scan_spelling_of_declarable (h : combo.Declarable) :
    Half.scan combo.spelling = .ok combo :=
  Half.scan_spelling h.modifiers fun c hc => (h.key c hc).2.1

/-- A spelling can be a half of a declaration. -/
theorem isHalf_spelling (h : combo.Declarable) : IsHalf combo.spelling :=
  isHalf_of_declarable h fun _ hc => Half.mem_of_mem_spelling hc

/-- A combo with a modifier or a key has something to spell: the empty
half is read as the combo of nothing. -/
theorem spelling_ne_nil (h : combo.Declarable)
    (hne : combo.modifiers ≠ ∅ ∨ combo.key ≠ none) :
    combo.spelling ≠ [] := by
  intro hnil
  have hscan := scan_spelling_of_declarable h
  rw [hnil] at hscan
  obtain rfl : Combo.empty = combo := Except.ok.inj hscan
  exact hne.elim (· rfl) (· rfl)

end

/-- Every hotkey that can be declared has a line. -/
theorem ofLine_spelling {first : Combo} {second : Option Combo}
    (h : Hotkey.IsDeclarable first second) :
    let line := String.ofList (Hotkey.spelling first second)
    Hotkey.ofLine line = .ok ⟨line, first, second⟩ := by
  intro line
  have hfirst := h.declarable_first
  -- One half or two, each with the spelling of its combo.
  cases second with
  | none =>
    have hread : Hotkey.ofLine line = _ :=
      ofLine_marker (isHalf_spelling hfirst)
        (spelling_ne_nil hfirst (h.ne_empty rfl))
    rw [hread, scan_spelling_of_declarable hfirst]
    rfl
  | some second =>
    have hsecond := h.declarable_second second rfl
    have hread : Hotkey.ofLine line = _ :=
      ofLine_joiner_marker (isHalf_spelling hfirst) (isHalf_spelling hsecond)
    rw [hread, scan_spelling_of_declarable hfirst,
      scan_spelling_of_declarable hsecond]
    rfl

end Declaration

/-! ### Lines of a script -/

/-- A line holds a comment exactly when it has the marker of one. -/
theorem Comment.ofLine?_eq_none_iff {line : String} :
    Comment.ofLine? line = none ↔ Comment.marker ∉ line.toList := by
  have hnil : line.toList.dropWhile (· != Comment.marker) = []
      ↔ Comment.marker ∉ line.toList := by
    rw [List.dropWhile_eq_nil_iff]
    constructor
    · intro h hmem
      simpa using h _ hmem
    · rintro h c hc
      simp only [bne_iff_ne, ne_eq]
      rintro rfl
      exact h hc
  rw [← hnil, Comment.ofLine?]
  cases line.toList.dropWhile (· != Comment.marker) <;> simp

/-- A line of a script is searched for a comment first. Without one it
says what its declaration says. -/
theorem Statement.ofLine?_eq_hotkey_iff {line : String} {hotkey : Hotkey} :
    Statement.ofLine? line = some (.hotkey hotkey)
      ↔ Comment.marker ∉ line.toList
        ∧ Hotkey.ofLine? line = some hotkey := by
  rw [← Comment.ofLine?_eq_none_iff, Statement.ofLine?]
  cases Comment.ofLine? line <;> simp

namespace Declaration

/-- The keys of a hotkey are characters of its line. -/
theorem Declares.mem_of_key {line : String} {hotkey : Hotkey}
    (h : Declares line hotkey) {combo : Combo}
    (hcombo : combo ∈ hotkey.combos) {c : Char} (hc : c ∈ combo.key) :
    c ∈ line.toList := by
  cases h with
  | single _ hmem _ hscan =>
    obtain rfl := List.mem_singleton.mp hcombo
    exact hmem c (Half.mem_of_scan hscan c hc).1
  | chord _ _ hmem hfirst hsecond =>
    apply hmem
    rw [List.mem_append]
    cases List.mem_cons.mp hcombo with
    | inl heq =>
      subst heq
      exact .inl (Half.mem_of_scan hfirst c hc).1
    | inr hright =>
      obtain rfl := List.mem_singleton.mp hright
      exact .inr (Half.mem_of_scan hsecond c hc).1

/-- No spelling begins a comment, unless a key does. -/
theorem marker_not_mem_spelling {first : Combo} {second : Option Combo}
    (hkey : ∀ combo ∈ first :: second.toList,
      combo.key ≠ some Comment.marker) :
    Comment.marker ∉ Hotkey.spelling first second := by
  -- No symbol is the marker of a comment, so it could only be a key.
  have hhalf : ∀ combo ∈ first :: second.toList,
      Comment.marker ∉ combo.spelling := by
    intro combo hcombo hmem
    cases Half.mem_of_mem_spelling hmem with
    | inl hsymbol => exact absurd hsymbol (by decide)
    | inr hmarker => exact hkey combo hcombo hmarker
  have hfirst := hhalf first List.mem_cons_self
  have hmarker : Comment.marker ∉ marker.toList := by decide
  have hjoiner : Comment.marker ≠ joiner := by decide
  cases second with
  | none => simp [Hotkey.spelling, hfirst, hmarker]
  | some second =>
    have hsecond := hhalf second (by simp)
    simp [Hotkey.spelling, hfirst, hsecond, hmarker, hjoiner]

/-- **The hotkeys that lines declare.** A line of a script declares all
of them but those with the comment marker as a key. -/
theorem exists_line_iff_isDeclarable (first : Combo)
    (second : Option Combo) :
    ((∃ line hotkey, Hotkey.ofLine? line = some hotkey
          ∧ hotkey.first = first ∧ hotkey.second = second)
        ↔ Hotkey.IsDeclarable first second)
      ∧ ((∃ line hotkey, Statement.ofLine? line = some (.hotkey hotkey)
            ∧ hotkey.first = first ∧ hotkey.second = second)
          ↔ Hotkey.IsDeclarable first second
            ∧ ∀ combo ∈ first :: second.toList,
              combo.key ≠ some Comment.marker) := by
  have hdeclares {line : String} {hotkey : Hotkey}
      (h : Hotkey.ofLine? line = some hotkey) : Declares line hotkey :=
    declares_of_ofLine (Hotkey.ofLine?_eq_some_iff.mp h)
  have hline (h : Hotkey.IsDeclarable first second) :=
    Hotkey.ofLine?_eq_some_iff.mpr (ofLine_spelling h)
  refine ⟨⟨?_, fun h => ⟨_, _, hline h, rfl, rfl⟩⟩, ⟨?_, ?_⟩⟩
  · rintro ⟨line, hotkey, h, rfl, rfl⟩
    exact (hdeclares h).isDeclarable
  · -- A line with the comment marker in it would be a comment, and every
    -- key is a character of the line.
    rintro ⟨line, hotkey, h, rfl, rfl⟩
    obtain ⟨hcomment, h⟩ := Statement.ofLine?_eq_hotkey_iff.mp h
    refine ⟨(hdeclares h).isDeclarable, fun combo hcombo hkey => ?_⟩
    exact hcomment ((hdeclares h).mem_of_key hcombo hkey)
  · rintro ⟨h, hkey⟩
    refine ⟨_, _, Statement.ofLine?_eq_hotkey_iff.mpr ⟨?_, hline h⟩,
      rfl, rfl⟩
    rw [String.toList_ofList]
    exact marker_not_mem_spelling hkey

end Declaration

end HotkeyScript
