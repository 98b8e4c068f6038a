import HotkeyScript.Proofs.Lists
import HotkeyScript.Text
import Mathlib.Data.List.DropRight
import Mathlib.Data.List.Induction

/-!
# `HotkeyScript.Proofs.Text.Trim`: blank characters at the ends

Trimming takes blank characters from both ends, one by one. A text that
falls into parts can be trimmed before it is split, or not, when every
part is trimmed afterwards.

* `trim_cons`, `trim_concat`: one blank character less.
* `trim_eq_self`: a text without blank characters.
* `map_trim_splitOn_trim`: trimming before and after.
-/

set_option autoImplicit false

namespace HotkeyScript.Text

/-! ### Texts of which nothing is left -/

/-- Nothing is left of a text exactly when all of it is blank. -/
theorem squeeze_eq_nil_iff (text : List Char) :
    squeeze text = [] ↔ ∀ c ∈ text, isBlank c = true := by
  simp [squeeze, List.filter_eq_nil_iff]

/-- Trimming leaves nothing exactly of a text that is all blank. What the
cut at the front leaves cannot all be blank unless it is empty, so the
cut at the end adds nothing to it. -/
theorem trim_eq_nil_iff (text : List Char) :
    trim text = [] ↔ ∀ c ∈ text, isBlank c = true := by
  rw [trim, trimRight, List.reverse_eq_nil_iff, List.dropWhile_eq_nil_iff]
  simp only [List.mem_reverse]
  rw [← List.dropWhile_eq_nil_iff, List.dropWhile_idempotent,
    List.dropWhile_eq_nil_iff]

/-! ### One character at an end -/

section
variable {c : Char}

/-- A blank character at the front is trimmed away. -/
theorem trim_cons (hc : isBlank c = true) (text : List Char) :
    trim (c :: text) = trim text := by
  rw [trim, List.dropWhile_cons_of_pos hc, trim]

/-- A blank character at the end is cut off there. -/
theorem trimRight_concat (hc : isBlank c = true) (text : List Char) :
    trimRight (text ++ [c]) = trimRight text := by
  rw [trimRight, List.reverse_concat, List.dropWhile_cons_of_pos hc,
    trimRight]

/-- The cut at the end stops at the first character that is not
blank. -/
theorem trimRight_concat_of_not (hc : isBlank c = false)
    (text : List Char) : trimRight (text ++ [c]) = text ++ [c] := by
  rw [trimRight, List.reverse_concat, List.dropWhile_cons_of_neg (by simp [hc]),
    List.reverse_cons, List.reverse_reverse]

/-- A blank character at the end is trimmed away. The cut at the front
comes first and may already have reached it: that is the text with
nothing but blank characters before it. -/
theorem trim_concat (hc : isBlank c = true) (text : List Char) :
    trim (text ++ [c]) = trim text := by
  rw [trim, trim, List.dropWhile_append]
  cases h : text.dropWhile isBlank with
  | nil => simp [hc]
  | cons d rest => simpa using trimRight_concat hc (d :: rest)

end

/-- A text without blank characters has nothing to trim: its first and
its last character stop the two cuts. -/
theorem trim_eq_self {text : List Char}
    (h : ∀ c ∈ text, isBlank c = false) : trim text = text := by
  cases text using List.reverseRecOn with
  | nil => rfl
  | append_singleton text c =>
    have hdrop : (text ++ [c]).dropWhile isBlank = text ++ [c] := by
      cases text with
      | nil => simp [h c (by simp)]
      | cons d text => simp [h d (by simp)]
    rw [trim, hdrop, trimRight_concat_of_not (h c (by simp))]

/-! ### Parts of a text -/

section
variable {c mark : Char}

/-- A blank character is never a mark that is not blank. -/
theorem ne_mark (hmark : isBlank mark = false) (hc : isBlank c = true) :
    c ≠ mark := by
  intro heq
  rw [heq, hmark] at hc
  cases hc

/-- A blank character at the front belongs to the first part, which is
trimmed. -/
theorem map_trim_splitOn_cons (hmark : isBlank mark = false)
    (hc : isBlank c = true) (text : List Char) :
    ((c :: text).splitOn mark).map trim = (text.splitOn mark).map trim := by
  have hne : (c == mark) = false :=
    beq_eq_false_iff_ne.mpr (ne_mark hmark hc)
  rw [List.splitOn_cons_eq_if_modifyHead, hne]
  cases text.splitOn mark with
  | nil => rfl
  | cons part parts => simp [trim_cons hc]

/-- A blank character at the end belongs to the last part, which is
trimmed. -/
theorem map_trim_splitOn_concat (hmark : isBlank mark = false)
    (hc : isBlank c = true) (text : List Char) :
    ((text ++ [c]).splitOn mark).map trim
      = (text.splitOn mark).map trim := by
  obtain ⟨parts, part, htext, hconcat⟩ :=
    List.splitOn_concat (ne_mark hmark hc) text
  rw [htext, hconcat, List.map_append, List.map_append]
  simp [trim_concat hc]

/-- What is taken from the ends of a text would be taken from the ends of
its first and its last part. -/
theorem map_trim_splitOn_trim (hmark : isBlank mark = false)
    (text : List Char) :
    ((trim text).splitOn mark).map trim = (text.splitOn mark).map trim := by
  -- Each cut is undone one character at a time, from its own end. Both
  -- inductions stop at the first character that is not blank.
  have hright (text : List Char) :
      ((trimRight text).splitOn mark).map trim
        = (text.splitOn mark).map trim := by
    induction text using List.reverseRecOn with
    | nil => rfl
    | append_singleton text c ih =>
      cases hc : isBlank c with
      | true =>
        rw [trimRight_concat hc, ih, map_trim_splitOn_concat hmark hc]
      | false => rw [trimRight_concat_of_not hc]
  rw [trim, hright]
  induction text with
  | nil => rfl
  | cons c text ih =>
    cases hc : isBlank c with
    | true =>
      rw [List.dropWhile_cons_of_pos hc, ih, map_trim_splitOn_cons hmark hc]
    | false => rw [List.dropWhile_cons_of_neg (by simp [hc])]

end

end HotkeyScript.Text
