import HotkeyScript.Proofs.Lists
import HotkeyScript.Text

/-!
# `HotkeyScript.Proofs.Text.Lines`: the lines of a text

The lines of two texts in a row, with a break between the two, are the
lines of the one and then those of the other.

* `lines_append_break`: this law. `lines_of_unbroken` is the law for a
  text of one line, and `lines_intercalate` for lines that are joined.
* `unbroken_of_mem_lines`: no line has a break in it.
* `length_lines`: each break begins a new line.
-/

set_option autoImplicit false

namespace HotkeyScript.Text

/-- The breaks of a text, in their order. -/
def breaks (text : String) : List Char := text.toList.filter isBreak

/-- A text of one line. -/
def Unbroken (text : String) : Prop :=
  ∀ c ∈ text.toList, isBreak c = false

/-- A break ends the line before it, and the text behind it has the other
lines. -/
theorem lines_append_break (before after : String) {c : Char}
    (hc : isBreak c = true) :
    lines (before ++ String.singleton c ++ after)
      = lines before ++ lines after := by
  have htext : (before ++ String.singleton c ++ after).toList
      = before.toList ++ c :: after.toList := by simp
  rw [lines, htext, List.splitOnP_append_cons _ _ hc, List.map_append]
  rfl

/-- A text without a break is one line. -/
theorem lines_of_unbroken {line : String} (h : Unbroken line) :
    lines line = [line] := by
  rw [lines, List.splitOnP_eq_singleton h, List.map_singleton,
    String.ofList_toList]

/-- Lines that are joined by line feeds are the lines of the whole. -/
theorem lines_intercalate {joined : List String} (hne : joined ≠ [])
    (h : ∀ line ∈ joined, Unbroken line) :
    lines ("\n".intercalate joined) = joined := by
  induction joined with
  | nil => exact absurd rfl hne
  | cons line joined ih =>
    rw [List.forall_mem_cons] at h
    -- The last line has no line feed behind it.
    cases joined with
    | nil => rw [String.intercalate_singleton, lines_of_unbroken h.1]
    | cons next joined =>
      have hbreak := lines_append_break line
        ("\n".intercalate (next :: joined)) (c := '\n') (by decide)
      rw [String.intercalate_cons_cons]
      refine hbreak.trans ?_
      rw [lines_of_unbroken h.1, ih (List.cons_ne_nil _ _) h.2,
        List.singleton_append]

/-- No line has a break in it. -/
theorem unbroken_of_mem_lines {text line : String}
    (h : line ∈ lines text) : Unbroken line := by
  obtain ⟨piece, hpiece, rfl⟩ := List.mem_map.mp h
  rw [Unbroken, String.toList_ofList]
  exact List.eq_false_of_mem_splitOnP hpiece

/-- There is one line more than there are breaks. -/
theorem length_lines (text : String) :
    (lines text).length = (breaks text).length + 1 := by
  rw [lines, breaks, List.length_map, List.length_splitOnP,
    List.countP_eq_length_filter]

/-- There is always a line, though it may be empty. -/
theorem lines_ne_nil (text : String) : lines text ≠ [] := by
  rw [← List.length_pos_iff, length_lines]
  exact Nat.succ_pos _

end HotkeyScript.Text
