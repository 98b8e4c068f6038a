import HotkeyScript.Proofs.Reading.Lines
import HotkeyScript.Proofs.Text.Layout

/-!
# `HotkeyScript.Proofs.Reading.LaidOut`: how a text is laid out

Lines can be laid out with breaks of either kind, and with any number of
them, so the same lines make many texts. They all read alike but for the
numbers of the lines, since the empty lines in between are blank and are
not recognized.

* `Report.filled`: what a report says of the lines that are not blank.
  Both policies can be told from it (`isComplete_eq_all_filled`,
  `all_isBlank_eq_isEmpty_filled`).
* `filled_read`: the lines of the text with their verdicts.
* `ReadsAlike`: two texts with the same statements and the same filled
  lines, hence with the same judgement.
* `ReportsLines`: where the report of a laid out text has the lines.
* `readsAlike_of_layouts`: both for any two layouts of the same lines.
-/

set_option autoImplicit false

namespace HotkeyScript

namespace Report

/-- The verdicts on the lines that are not blank, with these lines. -/
def filled (report : Report) : List (Verdict × String) :=
  (report.lines.toList.filter (!·.isBlank)).map
    fun line => (line.verdict, line.text)

/-! ### The policies -/

/-- Only lines that are not blank can keep a report from being
complete. -/
theorem isComplete_eq_all_filled (report : Report) :
    report.isComplete = report.filled.all (·.1 != .unrecognized) := by
  rw [isComplete_eq_all, filled, List.all_map, List.all_filter,
    ← Array.all_toList]
  congr 1
  funext line
  rw [Bool.not_not]
  rfl

/-- All lines are blank when none is left without them. -/
theorem all_isBlank_eq_isEmpty_filled (report : Report) :
    report.lines.all (·.isBlank) = report.filled.isEmpty := by
  rw [filled, ← Array.all_toList, List.isEmpty_map, Bool.eq_iff_iff,
    List.isEmpty_iff, List.filter_eq_nil_iff, List.all_eq_true]
  simp

/-- What the report on a line says of it, if it is not blank. -/
def filledLine? (line : String) : Option (Verdict × String) :=
  if (Text.trim line.toList).isEmpty then none
  else some (.ofStatement? (Statement.ofLine? line), line)

/-- What is said of the lines that are not blank does not depend on their
places. -/
theorem filled_mapIdx_lineAt (lines : List String) :
    filled ⟨(lines.mapIdx lineAt).toArray⟩ = lines.filterMap filledLine? := by
  rw [filled]
  -- From the end, so that the places of the lines before stay as they
  -- are.
  induction lines using List.reverseRecOn with
  | nil => rfl
  | append_singleton lines line ih =>
    simp only [List.mapIdx_concat, List.filter_append, List.map_append,
      List.filterMap_append] at ih ⊢
    rw [ih]
    cases hblank : (Text.trim line.toList).isEmpty with
    | true => simp [lineAt, Line.isBlank, filledLine?, hblank]
    | false => simp [lineAt, Line.isBlank, filledLine?, hblank]

end Report

namespace Outline

/-! ### Two layouts -/

/-- What the report on a text says of the lines that are not blank. -/
theorem filled_read (outline : Outline) (text : String) :
    (outline.read text).2.filled
      = (Text.lines text).filterMap Report.filledLine? := by
  rw [read_eq, Report.filled_mapIdx_lineAt]

/-- Two texts that read alike, apart from the numbers of the lines. -/
structure ReadsAlike (before : Outline) (first second : String) : Prop where
  outline : (before.read first).1 = (before.read second).1
  recognized : (before.read first).2.recognized
    = (before.read second).2.recognized
  isAccepted : (before.read first).2.isAccepted
    = (before.read second).2.isAccepted
  isComplete : (before.read first).2.isComplete
    = (before.read second).2.isComplete
  filled : (before.read first).2.filled = (before.read second).2.filled

/-- Two texts with the same statements and the same filled lines read
alike. -/
theorem readsAlike {before : Outline} {first second : String}
    (hsaid : Statement.ofText first = Statement.ofText second)
    (hfilled : (before.read first).2.filled
      = (before.read second).2.filled) :
    before.ReadsAlike first second where
  outline := by rw [read_eq, read_eq, hsaid]
  recognized := by rw [recognized_read, recognized_read, hsaid]
  isAccepted := by
    rw [Report.isAccepted, Report.isAccepted, recognized_read,
      recognized_read, hsaid, Report.all_isBlank_eq_isEmpty_filled,
      Report.all_isBlank_eq_isEmpty_filled, hfilled]
  isComplete := by
    rw [Report.isComplete_eq_all_filled, Report.isComplete_eq_all_filled,
      hfilled]
  filled := hfilled

section
variable {lines : List String} (layout : Text.Layout lines)

/-- A laid out text says what its lines say, since an empty line says
nothing. -/
theorem ofText_layout :
    Statement.ofText layout.text = lines.filterMap Statement.ofLine? :=
  layout.filterMap_lines_text (by decide)

/-- An empty line does not count among those that are filled, whatever the
layout. -/
theorem filled_read_layout (outline : Outline) :
    (outline.read layout.text).2.filled
      = lines.filterMap Report.filledLine? := by
  rw [filled_read]
  exact layout.filterMap_lines_text (by decide)

/-- The report on a laid out text has each line behind the breaks that
stand before it, and an empty line everywhere else. -/
structure ReportsLines (report : Report) : Prop where
  line : ∀ place (h : place < lines.length),
    report.lines[(Text.breaks (layout.before place)).length]?
      = some
        { number := 1 + (Text.breaks (layout.before place)).length
          verdict := .ofStatement? (Statement.ofLine? lines[place])
          text := lines[place] }
  other : ∀ line ∈ report.lines,
    (∃ place < lines.length,
        line.number = 1 + (Text.breaks (layout.before place)).length)
      ∨ line.text = "" ∧ line.verdict = .unrecognized

/-- The report on a laid out text has each line at its place. -/
theorem reportsLines (outline : Outline) :
    ReportsLines layout (outline.read layout.text).2 where
  line place h := by
    rw [read_eq, List.getElem?_toArray, List.getElem?_mapIdx,
      layout.getElem?_lines_text h, Option.map_some, Report.lineAt,
      Nat.add_comm]
  other line h := by
    rw [read_eq, List.mem_toArray, List.mem_mapIdx] at h
    -- Any line of the report is one that was laid out, or an empty one
    -- between two breaks.
    obtain ⟨k, hk, rfl⟩ := h
    refine (layout.place_or_eq_empty (List.getElem?_eq_getElem hk)).imp ?_ ?_
    · rintro ⟨place, hplace, heq⟩
      refine ⟨place, hplace, ?_⟩
      rw [← heq, Nat.add_comm]
      rfl
    · intro hempty
      have hnone : Statement.ofLine? "" = none := by decide
      rw [Report.lineAt, hempty, hnone]
      exact ⟨rfl, rfl⟩

end

/-- Two layouts of the same lines read alike, each line is reported where
it stands, and each text is a layout of its own lines by its own
breaks. -/
theorem readsAlike_of_layouts {lines : List String}
    (left right : Text.Layout lines) (before : Outline) (text : String) :
    before.ReadsAlike left.text right.text
      ∧ ReportsLines left (before.read left.text).2
      ∧ ReportsLines right (before.read right.text).2
      ∧ (Text.Layout.ofText text).text = text := by
  have hsaid : Statement.ofText left.text = Statement.ofText right.text := by
    rw [ofText_layout, ofText_layout]
  have hfilled : (before.read left.text).2.filled
      = (before.read right.text).2.filled := by
    rw [filled_read_layout, filled_read_layout]
  exact ⟨readsAlike hsaid hfilled, reportsLines left before,
    reportsLines right before, Text.Layout.text_ofText text⟩

end Outline

end HotkeyScript
