import HotkeyScript.Proofs.Modifier.Symbols
import HotkeyScript.Statement

/-!
# `HotkeyScript.Proofs.Statement.Agreement`: when two statements agree

A script is searched by an equality of its own, `Statement.agrees`. It
does not look at the text of a hotkey, at the second combo of a chord, or
at the case of a key.

* `SaysSame`: the equality, one rule for each way to agree.
* `Statement.meaning`: what it looks at. Two statements agree exactly
  when they have one meaning (`agrees_iff_meaning_eq`), so the equality
  is an equivalence, and `agrees_congr_right` lets one query stand for
  another.
-/

set_option autoImplicit false

namespace HotkeyScript.Statement

/-- Two statements that say the same. -/
inductive SaysSame : Statement → Statement → Prop where
  | comment {a b : Comment} (htext : a.text = b.text) :
      SaysSame (comment a) (comment b)
  /-- Neither hotkey has a key. -/
  | keyless {a b : Hotkey}
      (hbits : a.first.modifiers.bits = b.first.modifiers.bits)
      (ha : a.first.key = none) (hb : b.first.key = none) :
      SaysSame (hotkey a) (hotkey b)
  /-- The keys are the same but for their case. -/
  | keyed {a b : Hotkey} {c d : Char}
      (hbits : a.first.modifiers.bits = b.first.modifiers.bits)
      (ha : a.first.key = some c) (hb : b.first.key = some d)
      (hcase : Text.lowerCase c = Text.lowerCase d) :
      SaysSame (hotkey a) (hotkey b)

/-- What the equality looks at: the text of a comment, or the modifiers
and the lower case of the key that a hotkey begins with. -/
def meaning : Statement → String ⊕ ModifierSet × Option (List Char)
  | comment c => .inl c.text
  | hotkey h => .inr (h.first.modifiers, h.first.key.map Text.lowerCase)

/-- Two statements agree when they mean the same. A comment and a hotkey
never do. -/
theorem agrees_iff_meaning_eq {a b : Statement} :
    a.agrees b = true ↔ a.meaning = b.meaning := by
  cases a with
  | comment a =>
    cases b with
    | comment b =>
      obtain ⟨text⟩ := a
      obtain ⟨text'⟩ := b
      simp [agrees, meaning]
    | hotkey b => simp [agrees, meaning]
  | hotkey a =>
    cases b with
    | comment b => simp [agrees, meaning]
    | hotkey b =>
      simp [agrees, meaning, Hotkey.sameTrigger, Combo.sameKey]

/-- The rules relate the statements of one meaning. -/
theorem saysSame_iff_meaning_eq {a b : Statement} :
    SaysSame a b ↔ a.meaning = b.meaning := by
  constructor
  · intro h
    cases h with
    | comment htext => exact congrArg Sum.inl htext
    | keyless hbits ha hb =>
      simp [meaning, ModifierSet.bits_inj.mp hbits, ha, hb]
    | keyed hbits ha hb hcase =>
      simp [meaning, ModifierSet.bits_inj.mp hbits, ha, hb, hcase]
  · intro h
    cases a with
    | comment a =>
      cases b with
      | comment b => exact .comment (Sum.inl.inj h)
      | hotkey b => cases h
    | hotkey a =>
      cases b with
      | comment b => cases h
      | hotkey b =>
        obtain ⟨hmodifiers, hkey⟩ := Prod.mk.inj (Sum.inr.inj h)
        have hbits := ModifierSet.bits_inj.mpr hmodifiers
        -- Both hotkeys have a key or neither has, which tells the rule.
        cases ha : a.first.key with
        | none =>
          rw [ha, Option.map_none, eq_comm, Option.map_eq_none_iff] at hkey
          exact .keyless hbits ha hkey
        | some c =>
          rw [ha, Option.map_some, eq_comm, Option.map_eq_some_iff] at hkey
          obtain ⟨d, hb, hcase⟩ := hkey
          exact .keyed hbits ha hb hcase.symm

/-- The equality of the search is the one of the rules. -/
theorem agrees_iff_saysSame {a b : Statement} :
    a.agrees b = true ↔ SaysSame a b := by
  rw [agrees_iff_meaning_eq, saysSame_iff_meaning_eq]

/-- To mean the same is to have an equal meaning, hence an equivalence. -/
theorem equivalence_saysSame : Equivalence SaysSame where
  refl _ := saysSame_iff_meaning_eq.mpr rfl
  symm h := saysSame_iff_meaning_eq.mpr (saysSame_iff_meaning_eq.mp h).symm
  trans h h' := saysSame_iff_meaning_eq.mpr
    ((saysSame_iff_meaning_eq.mp h).trans (saysSame_iff_meaning_eq.mp h'))

/-- Statements that say the same agree with the same statements. -/
theorem agrees_congr_right {b b' : Statement} (h : SaysSame b b')
    (a : Statement) : a.agrees b = a.agrees b' := by
  rw [Bool.eq_iff_iff, agrees_iff_meaning_eq, agrees_iff_meaning_eq,
    saysSame_iff_meaning_eq.mp h]

end HotkeyScript.Statement
