import HotkeyScript.Proofs.Reading.Lines
import HotkeyScript.Proofs.Text.Trim

/-!
# `HotkeyScript.Proofs.Reading.Missed`: the lines that are missed

A line is missed if it is neither blank nor recognized. Both can be told
from the line alone: blank is a line of blank characters, and no other
line has any part in whether a line is recognized. So the missed lines of
a report are known from its text.

* `Text.FullyRecognized`: no line is missed. `isComplete_read_iff` is the
  policy in these words.
* `Text.Missed`: the lines that are missed and their numbers.
  `missed_read` has them from the report.
-/

set_option autoImplicit false

namespace HotkeyScript

/-- The line holds a character that is not blank. -/
def Text.HasContent (line : String) : Prop :=
  ∃ c ∈ line.toList, Text.isBlank c = false

/-- Every line that holds more than blank characters is recognized. -/
def Text.FullyRecognized (text : String) : Prop :=
  ∀ line ∈ Text.lines text, Text.HasContent line →
    ∃ statement, Statement.ofLine? line = some statement

/-- The lines of a text that are neither blank nor recognized, each with
its number, in the order of their numbers. -/
structure Text.Missed (text : String) (entries : List (String × Nat)) :
    Prop where
  mem_iff : ∀ line number, (line, number) ∈ entries
    ↔ (line, number) ∈ (Text.lines text).zipIdx 1
      ∧ Text.HasContent line ∧ Statement.ofLine? line = none
  increasing : entries.Pairwise fun a b => a.2 < b.2

/-- No line is missed exactly of a text that is recognized as a whole. -/
theorem Text.Missed.eq_nil_iff {text : String}
    {entries : List (String × Nat)} (h : Text.Missed text entries) :
    entries = [] ↔ Text.FullyRecognized text := by
  constructor
  -- A line with content that says nothing would be one of the entries.
  · rintro rfl line hline hcontent
    rw [← List.zipIdx_map_fst 1 (Text.lines text)] at hline
    obtain ⟨⟨line, number⟩, hmem, rfl⟩ := List.mem_map.mp hline
    cases hread : Statement.ofLine? line with
    | some statement => exact ⟨statement, rfl⟩
    | none => cases (h.mem_iff line number).mpr ⟨hmem, hcontent, hread⟩
  · intro hfull
    rw [List.eq_nil_iff_forall_not_mem]
    rintro ⟨line, number⟩ hmem
    obtain ⟨hline, hcontent, hnone⟩ := (h.mem_iff line number).mp hmem
    obtain ⟨statement, hsome⟩ :=
      hfull line (List.fst_mem_of_mem_zipIdx hline) hcontent
    rw [hnone] at hsome
    cases hsome

namespace Report

/-- A line is not blank if it has a character that is not. -/
theorem Line.isBlank_eq_false_iff {line : Line} :
    line.isBlank = false ↔ Text.HasContent line.text := by
  rw [isBlank, Text.HasContent, List.isEmpty_eq_false_iff, ne_eq,
    Text.trim_eq_nil_iff]
  simp

/-- What is told as missed has content and says nothing. -/
theorem isMissed_lineAt_iff {place : Nat} {line : String} :
    (lineAt place line).isMissed = true
      ↔ Text.HasContent line ∧ Statement.ofLine? line = none := by
  rw [Line.isMissed, Bool.and_eq_true, Bool.not_eq_true', Bool.not_eq_true',
    isRecognized_lineAt, Option.isSome_eq_false_iff, Option.isNone_iff_eq_none,
    Line.isBlank_eq_false_iff, and_comm]
  rfl

end Report

namespace Outline

/-- The missed lines of a report are those of its lines that have content
and say nothing. -/
theorem mem_missed_read {outline : Outline} {text : String}
    {entry : Report.Line} :
    entry ∈ (outline.read text).2.missed
      ↔ entry ∈ (outline.read text).2.lines.toList
        ∧ Text.HasContent entry.text
        ∧ Statement.ofLine? entry.text = none := by
  rw [Report.missed, Array.toList_filter, List.mem_filter]
  refine and_congr_right fun hentry => ?_
  rw [toList_lines_read] at hentry
  obtain ⟨⟨line, place⟩, -, rfl⟩ := List.mem_map.mp hentry
  exact Report.isMissed_lineAt_iff

/-- The report has the missed lines of its text, with their numbers. -/
theorem missed_read (outline : Outline) (text : String) :
    Text.Missed text ((outline.read text).2.missed.map
      fun entry => (entry.text, entry.number)) where
  mem_iff line number := by
    rw [← numbered_lines_read outline, List.mem_map, List.mem_map]
    constructor
    · rintro ⟨entry, hentry, heq⟩
      cases heq
      obtain ⟨hlines, hmissed⟩ := mem_missed_read.mp hentry
      exact ⟨⟨entry, hlines, rfl⟩, hmissed⟩
    · rintro ⟨⟨entry, hlines, heq⟩, hmissed⟩
      cases heq
      exact ⟨entry, mem_missed_read.mpr ⟨hlines, hmissed⟩, rfl⟩
  increasing := by
    -- The missed lines are some of all lines, and these are numbered on.
    have hsublist : ((outline.read text).2.missed.map
          fun entry => (entry.text, entry.number)).Sublist
        ((Text.lines text).zipIdx 1) := by
      rw [← numbered_lines_read outline, Report.missed, Array.toList_filter]
      exact List.filter_sublist.map _
    have hnumbers : ((Text.lines text).zipIdx 1).Pairwise
        fun a b => a.2 < b.2 := by
      apply List.pairwise_map.mp
      rw [List.zipIdx_map_snd]
      exact List.pairwise_lt_range'
    exact hnumbers.sublist hsublist

/-- The strict policy asks that all content be recognized. -/
theorem isComplete_read_iff {outline : Outline} {text : String} :
    (outline.read text).2.isComplete = true ↔ Text.FullyRecognized text := by
  rw [← (missed_read outline text).eq_nil_iff, List.map_eq_nil_iff,
    Report.isComplete, List.isEmpty_iff]

end Outline

end HotkeyScript
