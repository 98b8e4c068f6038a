import HotkeyScript.Json.Number
import Mathlib.Data.List.TakeWhile

/-!
# `HotkeyScript.Proofs.Json.Number`: the characters of a number

Where a number ends cannot be seen in the number, only in what follows
it. So it matters that a number has no character that ends one.

* `takeDigits?_eq_some`: what the digits of a text are.
* `isNumberChar_of_exponent?`: the characters of an exponent.
* `isNumberChar_of_isNumber`: the characters of a number.
* `isNumber_toDigits`: natural numbers are written as numbers.
-/

set_option autoImplicit false

namespace HotkeyScript.Json

/-- A digit may stand in a number, and so may the signs, the point and the
letter of the exponent. -/
theorem isNumberChar_of_isDigit {c : Char} (h : c.isDigit = true) :
    isNumberChar c = true := by
  simp [isNumberChar, h]

/-- The digits at the start of a text are a part of it, and may stand in a
number. -/
theorem takeDigits?_eq_some {text digits rest : List Char}
    (h : takeDigits? text = some (digits, rest)) :
    text = digits ++ rest ∧ ∀ c ∈ digits, isNumberChar c = true := by
  simp only [takeDigits?, Option.ite_none_left_eq_some, Option.some.injEq,
    Prod.mk.injEq] at h
  obtain ⟨-, rfl, rfl⟩ := h
  exact ⟨List.takeWhile_append_dropWhile.symm, fun c hc =>
    isNumberChar_of_isDigit (List.all_eq_true.mp List.all_takeWhile c hc)⟩

/-- An exponent has only characters of numbers. -/
theorem isNumberChar_of_exponent? {text : List Char} {value : Int}
    (h : exponent? text = some value) :
    ∀ c ∈ text, isNumberChar c = true := by
  unfold exponent? at h
  split at h
  · simp
  · next e rest =>
    rw [Option.ite_none_left_eq_some] at h
    obtain ⟨he, h⟩ := h
    -- The mark is one of the two letters.
    have hmark : isNumberChar e = true := by
      simp only [isNumberChar]
      grind
    split at h
    next negative digits hsign =>
    split at h
    · next taken htaken =>
      obtain ⟨rfl, hdigits⟩ := takeDigits?_eq_some htaken
      rw [List.append_nil] at hsign
      have hrest : ∀ c ∈ rest, isNumberChar c = true := by
        -- A minus, a plus or no sign before the digits.
        split at hsign
        · cases hsign
          simpa [isNumberChar] using hdigits
        · cases hsign
          simpa [isNumberChar] using hdigits
        · cases hsign
          exact hdigits
      simpa [hmark] using hrest
    · cases h

/-- A number has only characters of numbers: its sign, its digits, its
point and its exponent. -/
theorem isNumberChar_of_isNumber {text : List Char}
    (h : isNumber text = true) : ∀ c ∈ text, isNumberChar c = true := by
  obtain ⟨parts, h⟩ := Option.isSome_iff_exists.mp h
  simp only [numberParts?, Option.bind_eq_bind, Option.bind_eq_some_iff] at h
  obtain ⟨⟨whole, rest⟩, hwhole, h⟩ := h
  obtain ⟨hsplit, hdigits⟩ := takeDigits?_eq_some hwhole
  -- Behind the whole part stands a fraction with an exponent, or an
  -- exponent only.
  have hrest : ∀ c ∈ rest, isNumberChar c = true := by
    rw [Option.ite_none_left_eq_some] at h
    obtain ⟨-, h⟩ := h
    split at h
    · next fractionText hpoint =>
      simp only [Option.bind_eq_some_iff] at h
      obtain ⟨⟨fraction, rest'⟩, hfraction, value, hvalue, -⟩ := h
      obtain ⟨rfl, hfractionDigits⟩ := takeDigits?_eq_some hfraction
      cases hpoint
      simp only [List.forall_mem_cons, List.forall_mem_append]
      exact ⟨rfl, hfractionDigits, isNumberChar_of_exponent? hvalue⟩
    · obtain ⟨value, hvalue, -⟩ := Option.bind_eq_some_iff.mp h
      exact isNumberChar_of_exponent? hvalue
  have hunsigned := List.forall_mem_append.mpr ⟨hdigits, hrest⟩
  rw [← hsplit] at hunsigned
  split at hunsigned
  · exact List.forall_mem_cons.mpr ⟨rfl, hunsigned⟩
  · exact hunsigned

/-- Digits of a number that is not zero do not begin with a zero. -/
theorem head?_toDigits_ne {n : Nat} (h : 0 < n) :
    (Nat.toDigits 10 n).head? ≠ some '0' := by
  -- The first digit of a number is that of a tenth of it, down to one
  -- digit.
  induction n using Nat.strongRecOn with
  | ind n ih =>
    rw [Nat.toDigits_eq_if (by decide)]
    split
    · next hn =>
      have hdigit : ∀ d < 10, 0 < d → Nat.digitChar d ≠ '0' := by decide
      simpa using hdigit n hn h
    · next hn =>
      have hhead := ih (n / 10) (by omega) (by omega)
      cases hfront : Nat.toDigits 10 (n / 10) with
      | nil => exact absurd hfront Nat.toDigits_ne_nil
      | cons c front => rwa [hfront] at hhead

/-- A natural number is written as a number: no sign, no zero in front,
and nothing behind the digits. -/
theorem isNumber_toDigits (n : Nat) :
    isNumber (Nat.toDigits 10 n) = true := by
  have hdigits : ∀ c ∈ Nat.toDigits 10 n, c.isDigit = true :=
    fun _ => Nat.isDigit_of_mem_toDigits (by decide) (by decide)
  have hzero : ((Nat.toDigits 10 n).head? == some '0'
      && Nat.toDigits 10 n != ['0']) = false := by
    cases Nat.eq_zero_or_pos n with
    | inl hn => subst hn; rfl
    | inr hn => simp [head?_toDigits_ne hn]
  have htake : takeDigits? (Nat.toDigits 10 n)
      = some (Nat.toDigits 10 n, []) := by
    rw [takeDigits?, List.takeWhile_eq_self_iff.mpr hdigits,
      List.dropWhile_eq_nil_iff.mpr hdigits]
    simp [Nat.toDigits_ne_nil]
  cases htext : Nat.toDigits 10 n with
  | nil => exact absurd htext Nat.toDigits_ne_nil
  | cons c digits =>
    rw [htext] at hdigits hzero htake
    -- A digit is no minus sign, so nothing is cut off in front.
    have hsign : c ≠ '-' := by
      rintro rfl
      exact absurd (hdigits '-' List.mem_cons_self) (by decide)
    simpa [isNumber, numberParts?, hsign, htake, exponent?] using hzero

/-- A number is not empty, since it has a digit. -/
theorem ne_nil_of_isNumber {text : List Char} (h : isNumber text = true) :
    text ≠ [] := by
  intro hnil
  rw [hnil] at h
  exact absurd h (by decide)

end HotkeyScript.Json
