import HotkeyScript.Text
import HotkeyScript.Text.LowerCase
import Mathlib

/-!
# `HotkeyScript.Proofs.Text.LowerCase`: characters that have no case

Every run of the lower-case mapping begins and ends with letters of
ASCII, or lies beyond ASCII altogether. So a punctuation mark of ASCII is
its own lower case, and it is the lower case of nothing else, not even of
a character from the far end of Unicode.

* `HasCase`: the codes among which the mapping goes.
* `eq_of_lowerCase_eq`: a character outside them has its lower case to
  itself.
* `SameLetter`: two characters that differ in case at most.
* `Alike`: two texts that differ in blank characters and in case at most.
-/

set_option autoImplicit false

namespace HotkeyScript.Text

/-- The code of a letter of ASCII, or a code beyond ASCII. -/
def HasCase (code : Nat) : Prop :=
  (0x41 ≤ code ∧ code ≤ 0x5A) ∨ (0x61 ≤ code ∧ code ≤ 0x7A) ∨ 0x80 ≤ code

instance (code : Nat) : Decidable (HasCase code) :=
  inferInstanceAs (Decidable (_ ∨ _ ∨ _))

/-! ### The runs -/

/-- Runs that begin in ASCII are the capital letters and have the small
ones as lower case. No other run leads into ASCII, but to a letter. -/
theorem bounds_of_mem_caseRuns : ∀ run ∈ caseRuns,
    ((0x41 ≤ run.first ∧ run.last ≤ 0x5A) ∨ 0x80 ≤ run.first)
      ∧ ((0x61 ≤ run.first + run.shift ∧ run.last + run.shift ≤ 0x7A)
        ∨ 0x80 ≤ run.first + run.shift) := by
  decide +kernel

section
variable {run : CaseRun} {c : Char}

/-- A run holds no code beyond its ends. -/
theorem CaseRun.bounds_of_holds {code : Nat}
    (h : run.holds code = true) : run.first ≤ code ∧ code ≤ run.last := by
  rw [holds, Bool.and_eq_true, Bool.and_eq_true, decide_eq_true_iff,
    decide_eq_true_iff] at h
  exact h.1

/-- A character of some run is among those that have a case. -/
theorem hasCase_of_holds (hrun : run ∈ caseRuns)
    (h : run.holds c.toNat = true) : HasCase c.toNat := by
  obtain ⟨hfirst, -⟩ := bounds_of_mem_caseRuns run hrun
  have hbounds := CaseRun.bounds_of_holds h
  unfold HasCase
  omega

/-- The lower case that a run gives is a letter of ASCII or lies beyond
it. A code that is no character's stands for the character 0. -/
theorem hasCase_lower (hrun : run ∈ caseRuns)
    (h : run.holds c.toNat = true) :
    HasCase (run.lower c).toNat ∨ run.lower c = '\x00' := by
  obtain ⟨-, hlast⟩ := bounds_of_mem_caseRuns run hrun
  have hbounds := CaseRun.bounds_of_holds h
  -- A sum that is no character's code is read as 0.
  rw [← Char.toNat_inj, CaseRun.lower, Char.toNat_ofNat]
  split
  · left
    unfold HasCase
    omega
  · exact .inr rfl

end

/-! ### One character -/

/-- The lower case of a character is the character itself, or has a code
of its kind. -/
theorem lowerCase_cases (c : Char) :
    lowerCase c = [c]
      ∨ HasCase c.toNat
        ∧ ∀ d, lowerCase c = [d] → HasCase d.toNat ∨ d = '\x00' := by
  unfold lowerCase
  -- The capital with a dot has two characters as lower case, so nothing
  -- is said of a single one.
  by_cases hdotted : c = 'İ'
  · subst hdotted
    rw [if_pos rfl]
    exact .inr ⟨by decide, fun d hd => by simp at hd⟩
  · rw [if_neg hdotted]
    cases hfind : caseRuns.find? fun run => run.holds c.toNat with
    | none => exact .inl rfl
    | some run =>
      have hrun := List.mem_of_find?_eq_some hfind
      have hholds : run.holds c.toNat = true := by
        simpa using List.find?_some hfind
      refine .inr ⟨hasCase_of_holds hrun hholds, ?_⟩
      intro d hd
      obtain rfl : run.lower c = d := List.singleton_inj.mp hd
      exact hasCase_lower hrun hholds

/-- A character without a case has its lower case to itself. -/
theorem eq_of_lowerCase_eq {c mark : Char} (hmark : ¬ HasCase mark.toNat)
    (hne : mark ≠ '\x00') (h : lowerCase c = lowerCase mark) : c = mark := by
  have hself : lowerCase mark = [mark] :=
    (lowerCase_cases mark).resolve_right fun hcase => hmark hcase.1
  rw [hself] at h
  -- If `c` had a case, so would `mark`.
  rcases lowerCase_cases c with hc | ⟨-, hc⟩
  · rw [hc] at h
    exact List.singleton_inj.mp h
  · exact absurd (hc mark h) (not_or.mpr ⟨hmark, hne⟩)

/-! ### Texts -/

/-- The characters are the same, or differ in case only. -/
def SameLetter (c d : Char) : Prop := lowerCase c = lowerCase d

/-- The texts have the same letters, their blank characters apart. -/
def Alike (text other : List Char) : Prop :=
  List.Forall₂ SameLetter (squeeze text) (squeeze other)

/-- A mark without case is the same letter as itself only. -/
theorem SameLetter.eq_iff {c d mark : Char} (h : SameLetter c d)
    (hmark : ¬ HasCase mark.toNat ∧ mark ≠ '\x00') :
    c = mark ↔ d = mark := by
  constructor
  · rintro rfl
    exact eq_of_lowerCase_eq hmark.1 hmark.2 h.symm
  · rintro rfl
    exact eq_of_lowerCase_eq hmark.1 hmark.2 h

end HotkeyScript.Text
