import HotkeyScript.Proofs.Declaration.Image
import HotkeyScript.Proofs.Text.Lines

/-!
# `HotkeyScript.Proofs.Statement.Recognition`: a statement and its line

A comment keeps the part of its line from the first `;` on, and a hotkey
keeps its line as it is. So the text of a statement is a line that says
the same statement again.

* `StandsIn`: how a statement stands in its line. `standsIn_of_ofLine?`
  says that every statement stands so in the line it is read from.
* `ofLine?_text`: what the text of a statement says.
* `unbroken_text`: the text of a statement is one line.
-/

set_option autoImplicit false

namespace HotkeyScript

/-- A comment begins with the first `;` of its line. -/
theorem Comment.exists_of_ofLine? {line : String} {comment : Comment}
    (h : Comment.ofLine? line = some comment) :
    ∃ before rest, line.toList = before ++ comment.text.toList
      ∧ Comment.marker ∉ before
      ∧ comment.text.toList = Comment.marker :: rest := by
  -- The line falls into what is skipped and the comment.
  have hsplit := List.takeWhile_append_dropWhile
    (p := (· != Comment.marker)) (l := line.toList)
  rw [Comment.ofLine?] at h
  cases hdrop : line.toList.dropWhile (· != Comment.marker) with
  | nil => simp [hdrop] at h
  | cons c rest =>
    have hne : line.toList.dropWhile (· != Comment.marker) ≠ [] := by
      simp [hdrop]
    have hc := List.head_dropWhile_not (· != Comment.marker) hne
    simp only [hdrop, List.head_cons, bne_eq_false_iff_eq] at hc
    simp only [hdrop, Option.some.injEq] at h
    obtain rfl := hc
    obtain rfl := h
    rw [hdrop] at hsplit
    refine ⟨line.toList.takeWhile (· != Comment.marker), rest, ?_, ?_,
      String.toList_ofList⟩
    · rw [String.toList_ofList, hsplit]
    · intro hmem
      simpa using List.mem_takeWhile_imp hmem

/-- A text that begins with `;` is a comment as a whole. -/
theorem Comment.ofLine?_text {comment : Comment} {rest : List Char}
    (h : comment.text.toList = Comment.marker :: rest) :
    Comment.ofLine? comment.text = some comment := by
  have hdrop : comment.text.toList.dropWhile (· != Comment.marker)
      = comment.text.toList := by simp [h]
  rw [Comment.ofLine?, hdrop, h]
  simp [← h]

/-- A hotkey has its line as it stands, blanks and body included. -/
theorem Hotkey.text_of_ofLine? {line : String} {hotkey : Hotkey}
    (h : Hotkey.ofLine? line = some hotkey) : hotkey.text = line := by
  rw [Hotkey.ofLine?_eq_some_iff, Hotkey.ofLine] at h
  cases hread : Declaration.read line.toList with
  | error cause =>
    rw [hread] at h
    cases h
  | ok combos =>
    rw [hread] at h
    cases h
    rfl

namespace Statement

/-- How a statement stands in the line that says it. -/
inductive StandsIn (line : String) : Statement → Prop where
  /-- A comment is all that follows, with the first `;`. -/
  | comment {c : Comment} (before rest : List Char)
      (hline : line.toList = before ++ c.text.toList)
      (hbefore : Comment.marker ∉ before)
      (hmarker : c.text.toList = Comment.marker :: rest) :
      StandsIn line (comment c)
  /-- A hotkey is the line, and the line has no `;`. -/
  | hotkey {h : Hotkey} (hline : h.text = line)
      (hmarker : Comment.marker ∉ h.text.toList) :
      StandsIn line (hotkey h)

section
variable {line : String} {statement : Statement}

/-- A statement stands in the line from which it is read. -/
theorem standsIn_of_ofLine? (h : ofLine? line = some statement) :
    StandsIn line statement := by
  cases statement with
  | comment c =>
    have hcomment : Comment.ofLine? line = some c := by
      rw [ofLine?] at h
      -- The line says a comment, so the search for one has not failed.
      cases hc : Comment.ofLine? line with
      | some c' =>
        rw [hc] at h
        cases h
        rfl
      | none => simp [hc] at h
    obtain ⟨before, rest, hline, hbefore, hmarker⟩ :=
      Comment.exists_of_ofLine? hcomment
    exact .comment before rest hline hbefore hmarker
  | hotkey hotkey =>
    obtain ⟨hmarker, hhotkey⟩ := ofLine?_eq_hotkey_iff.mp h
    obtain rfl := Hotkey.text_of_ofLine? hhotkey
    exact .hotkey rfl hmarker

/-- The text of a statement says the statement. -/
theorem ofLine?_text (h : ofLine? line = some statement) :
    ofLine? statement.text = some statement := by
  -- The text of a comment begins with its marker. The text of a hotkey is
  -- the line.
  cases standsIn_of_ofLine? h with
  | comment before rest hline hbefore hmarker =>
    rw [text, ofLine?, Comment.ofLine?_text hmarker]
  | hotkey hline hmarker =>
    rw [text, hline]
    exact h

/-- A part of an unbroken line is unbroken. -/
theorem unbroken_text (h : ofLine? line = some statement)
    (hline : Text.Unbroken line) : Text.Unbroken statement.text := by
  cases standsIn_of_ofLine? h with
  | comment before rest heq hbefore hmarker =>
    intro c hc
    exact hline c (heq ▸ List.mem_append_right before hc)
  | hotkey heq hmarker =>
    rw [text, heq]
    exact hline

end

end Statement

end HotkeyScript
