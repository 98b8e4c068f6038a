import HotkeyScript.Proofs.Declaration.Image
import HotkeyScript.Proofs.Reading.Missed
import HotkeyScript.Proofs.Text.Lines

/-!
# `HotkeyScript.Proofs.Reading.Accounting`: every line is accounted for

The recognizers, the test for blank lines and the two policies look at a
line in ways of their own: the declaration at what is left without the
blank characters, the report at what is left without those at the two
ends, the comment at each character in turn. They have to mean the same
by a blank line. Only then has every line of a text one place in its
report, and only then do the policies say what they should.

* `Statement.ofLine?_eq_none_of_blank`: a blank line says nothing.
* `Report.Part` and `Report.part`: comments, hotkeys, blank lines and
  missed ones. `Line.isOf_iff` and `perm_parts` say that these are a
  partition of any report in which no blank line is recognized.
* `isAccepted_read_eq_false_iff`: which texts are refused.
* `Report.Accounts`: all that a report says of its text as a whole.
  `accounts_and_tryRead` proves it of every text and every outline.
-/

set_option autoImplicit false

namespace HotkeyScript

/-- What a line of blank characters says is nothing, since neither the
comment marker nor the marker of declarations is blank. -/
theorem Statement.ofLine?_eq_none_of_blank {line : String}
    (h : ∀ c ∈ line.toList, Text.isBlank c = true) :
    Statement.ofLine? line = none := by
  have hcomment : Comment.ofLine? line = none := by
    rw [Comment.ofLine?_eq_none_iff]
    intro hmarker
    have hblank := h _ hmarker
    revert hblank
    decide
  have hhotkey : Hotkey.ofLine? line = none := by
    have hsqueeze := (Text.squeeze_eq_nil_iff line.toList).mpr h
    rw [Hotkey.ofLine?, Declaration.ofLine_eq_of_grammar (.blank hsqueeze)]
    rfl
  rw [Statement.ofLine?, hcomment, hhotkey]
  rfl

/-! ### The parts of a report -/

/-- The parts into which the lines of a report fall. -/
inductive Report.Part where
  /-- The lines that hold a comment. -/
  | comments
  /-- The lines that declare a hotkey. -/
  | hotkeys
  /-- The lines of blank characters. -/
  | blank
  /-- The lines that are missed. -/
  | missed
  deriving DecidableEq, Repr

namespace Report

/-- Whether the line is one of a part. -/
def Line.isOf (line : Line) : Part → Bool
  | .comments => line.verdict == .comment
  | .hotkeys => line.verdict == .hotkey
  | .blank => line.text.toList.all Text.isBlank
  | .missed => line.isMissed

/-- The lines of a part, in their order. -/
def part (report : Report) (part : Part) : List Line :=
  report.lines.toList.filter (·.isOf part)

/-- A line is in a part of the report if it is one of that part. -/
theorem mem_part {report : Report} {part : Part} {line : Line} :
    line ∈ report.part part
      ↔ line ∈ report.lines ∧ line.isOf part = true := by
  rw [Report.part, List.mem_filter, Array.mem_toList_iff]

/-- The missed lines are a part like the others. -/
theorem part_missed (report : Report) :
    report.part .missed = report.missed :=
  Array.toList_filter.symm

/-- A line that trims to nothing is a line of blank characters. -/
theorem Line.isBlank_eq_isOf (line : Line) :
    line.isBlank = line.isOf .blank := by
  rw [Bool.eq_iff_iff, isBlank, List.isEmpty_iff, Text.trim_eq_nil_iff, isOf,
    List.all_eq_true]

/-- No line of blank characters is recognized. -/
def BlankMissed (report : Report) : Prop :=
  ∀ line ∈ report.lines, line.isOf .blank = true →
    line.isRecognized = false

/-- The part of a line that is not recognized if it is blank. -/
def Line.ownPart (line : Line) : Part :=
  match line.verdict with
  | .comment => .comments
  | .hotkey => .hotkeys
  | .unrecognized => if line.isOf .blank then .blank else .missed

/-- A line is of one part, its own, if it is not recognized when it is
blank. -/
theorem Line.isOf_iff {line : Line}
    (h : line.isOf .blank = true → line.isRecognized = false) (part : Part) :
    line.isOf part = true ↔ line.ownPart = part := by
  have hcomments : line.isOf .comments = (line.verdict == .comment) := rfl
  have hhotkeys : line.isOf .hotkeys = (line.verdict == .hotkey) := rfl
  have hmissed : line.isOf .missed
      = (!line.isRecognized && !line.isOf .blank) := by
    rw [← line.isBlank_eq_isOf]
    rfl
  cases hverdict : line.verdict with
  | comment | hotkey =>
    have hblank : line.isOf .blank = false := by
      simpa [isRecognized, hverdict] using h
    cases part <;>
      simp [hcomments, hhotkeys, hmissed, hblank, isRecognized, ownPart,
        hverdict]
  | unrecognized =>
    -- Here it has to be asked whether the line is blank.
    cases hblank : line.isOf .blank with
    | true | false =>
      cases part <;>
        simp [hcomments, hhotkeys, hmissed, hblank, isRecognized, ownPart,
          hverdict]

variable {report : Report}

/-- A part has its lines as often as the report has them, and no other
line. -/
theorem count_part (report : Report) (part : Part) (line : Line) :
    (report.part part).count line
      = if line.isOf part then report.lines.toList.count line else 0 := by
  split
  · next hof => exact List.count_filter hof
  · next hof =>
    rw [List.count_eq_zero, mem_part]
    exact fun hmem => hof hmem.2

/-- No line is lost, and none is in two parts. -/
theorem perm_parts (h : report.BlankMissed) :
    (report.part .comments ++ report.part .hotkeys
        ++ report.part .blank ++ report.part .missed).Perm
      report.lines.toList := by
  -- Each line is counted: it stands in one of the four parts, and there
  -- as often as in the report.
  rw [List.perm_iff_count]
  intro line
  simp only [List.count_append, count_part]
  by_cases hline : line ∈ report.lines
  · simp only [Line.isOf_iff (h line hline)]
    cases line.ownPart <;> simp
  · have hzero : report.lines.toList.count line = 0 := by
      rw [List.count_eq_zero, Array.mem_toList_iff]
      exact hline
    simp [hzero]

/-- A part that goes by a verdict has as many lines as the report counts
with it. Comments and hotkeys are such parts. -/
theorem length_part {part : Part} {verdict : Verdict}
    (h : ∀ line : Line, line.isOf part = (line.verdict == verdict))
    (report : Report) :
    (report.part part).length = report.count verdict := by
  rw [count, ← Array.countP_toList, List.countP_eq_length_filter,
    Report.part]
  simp only [h]

end Report

/-! ### Reports on texts -/

/-- The text holds something, and none of it is recognized. -/
structure Text.Unread (text : String) : Prop where
  unrecognized : ∀ line ∈ Text.lines text, Statement.ofLine? line = none
  content : ∃ line ∈ Text.lines text, Text.HasContent line

namespace Outline

variable {outline : Outline} {text : String}

/-- In the report on a text no blank line is recognized. -/
theorem blankMissed_read (outline : Outline) (text : String) :
    (outline.read text).2.BlankMissed := by
  intro entry hentry hblank
  rw [← Array.mem_toList_iff, toList_lines_read] at hentry
  obtain ⟨⟨line, place⟩, -, rfl⟩ := List.mem_map.mp hentry
  have hnone : Statement.ofLine? line = none :=
    Statement.ofLine?_eq_none_of_blank (List.all_eq_true.mp hblank)
  rw [Report.isRecognized_lineAt, hnone]
  rfl

/-- Nothing is recognized in a text exactly when no line of it says
anything. -/
theorem recognized_read_eq_zero_iff :
    (outline.read text).2.recognized = 0
      ↔ ∀ line ∈ Text.lines text, Statement.ofLine? line = none := by
  rw [recognized_read, List.length_eq_zero_iff, Statement.ofText,
    List.filterMap_eq_nil_iff]

/-- Not all lines are blank when one of them has content. -/
theorem all_isBlank_read_eq_false_iff :
    (outline.read text).2.lines.all (·.isBlank) = false
      ↔ ∃ line ∈ Text.lines text, Text.HasContent line := by
  rw [← Array.all_toList, toList_lines_read, List.all_map,
    List.all_eq_false]
  -- The lines of the report are those of the text, each with its place.
  constructor
  · rintro ⟨⟨line, place⟩, hmem, hline⟩
    refine ⟨line, List.fst_mem_of_mem_zipIdx hmem, ?_⟩
    exact Report.Line.isBlank_eq_false_iff.mp (eq_false_of_ne_true hline)
  · rintro ⟨line, hmem, hcontent⟩
    rw [← List.zipIdx_map_fst 0 (Text.lines text)] at hmem
    obtain ⟨entry, hentry, rfl⟩ := List.mem_map.mp hmem
    exact ⟨entry, hentry,
      ne_true_of_eq_false (Report.Line.isBlank_eq_false_iff.mpr hcontent)⟩

/-- The texts that are refused: some content, and none of it
recognized. -/
theorem isAccepted_read_eq_false_iff :
    (outline.read text).2.isAccepted = false ↔ Text.Unread text := by
  rw [← Bool.not_eq_true, Report.isAccepted_iff, not_or, Nat.not_lt,
    Nat.le_zero, recognized_read_eq_zero_iff, Bool.not_eq_true,
    all_isBlank_read_eq_false_iff]
  exact ⟨fun h => ⟨h.1, h.2⟩, fun h => ⟨h.1, h.2⟩⟩

/-- The strict policy asks for more: what is not blank in a text that is
complete is recognized, and there has to be none in one that is refused. -/
theorem isAccepted_of_isComplete
    (h : (outline.read text).2.isComplete = true) :
    (outline.read text).2.isAccepted = true := by
  rw [← Bool.not_eq_false, isAccepted_read_eq_false_iff]
  -- A refused text has a line with content, which a complete report has
  -- recognized.
  rintro ⟨hnone, line, hline, hcontent⟩
  obtain ⟨statement, hsome⟩ := isComplete_read_iff.mp h line hline hcontent
  rw [hnone line hline] at hsome
  cases hsome

end Outline

/-- The report accounts for each line of the text once, and judges the
text by what its lines are. -/
structure Report.Accounts (report : Report) (text : String) : Prop where
  /-- A line of blank characters is never recognized. -/
  blank : ∀ line ∈ report.lines,
    (∀ c ∈ line.text.toList, Text.isBlank c = true) →
      line.verdict = .unrecognized
  /-- The comments, the hotkeys, the blank lines and the missed lines. -/
  perm : (report.part .comments ++ report.part .hotkeys
      ++ report.part .blank ++ report.missed).Perm report.lines.toList
  existsUnique : ∀ line ∈ report.lines,
    ∃! part, line ∈ report.part part
  /-- Each break begins a new line. -/
  total : report.count .comment + report.count .hotkey
      + (report.part .blank).length + report.missed.length
    = 1 + (Text.breaks text).length
  isComplete_iff : report.isComplete = true ↔ Text.FullyRecognized text
  isAccepted_of_isComplete :
    report.isComplete = true → report.isAccepted = true
  isAccepted_eq_false_iff :
    report.isAccepted = false ↔ Text.Unread text

namespace Outline

/-- The report on any text accounts for each of its lines. -/
theorem accounts_read (outline : Outline) (text : String) :
    (outline.read text).2.Accounts text where
  blank line hline hblank := by
    have hmissed := blankMissed_read outline text line hline
      (List.all_eq_true.mpr hblank)
    simpa [Report.Line.isRecognized] using hmissed
  perm := by
    have hperm := Report.perm_parts (blankMissed_read outline text)
    rwa [Report.part_missed] at hperm
  existsUnique line hline := by
    have hof := Report.Line.isOf_iff (blankMissed_read outline text line hline)
    refine ⟨line.ownPart, Report.mem_part.mpr ⟨hline, (hof _).mpr rfl⟩, ?_⟩
    intro part hpart
    exact ((hof part).mp (Report.mem_part.mp hpart).2).symm
  total := by
    -- The four parts together are as long as the report, and the report
    -- has a line more than the text has breaks.
    have hparts :=
      (Report.perm_parts (blankMissed_read outline text)).length_eq
    have hcomments : ((outline.read text).2.part .comments).length
        = (outline.read text).2.count .comment :=
      Report.length_part (fun _ => rfl) _
    have hhotkeys : ((outline.read text).2.part .hotkeys).length
        = (outline.read text).2.count .hotkey :=
      Report.length_part (fun _ => rfl) _
    have hlines : (outline.read text).2.lines.toList.length
        = 1 + (Text.breaks text).length := by
      rw [Array.length_toList, size_lines_read, Text.length_lines,
        Nat.add_comm]
    rw [List.length_append, List.length_append, List.length_append,
      hcomments, hhotkeys, Report.part_missed, hlines] at hparts
    exact hparts
  isComplete_iff := isComplete_read_iff
  isAccepted_of_isComplete := isAccepted_of_isComplete
  isAccepted_eq_false_iff := isAccepted_read_eq_false_iff

/-- **Every line is accounted for**, whatever was read before the text.
Whoever asks only for acceptance is told the same, and has the same
outline then, also if the text is refused. -/
theorem accounts_and_tryRead (before : Outline) (text : String) :
    (before.read text).2.Accounts text
      ∧ (before.tryRead text).1 = (before.read text).1
      ∧ ((before.tryRead text).2 = false ↔ Text.Unread text) := by
  have htry : before.tryRead text
      = ((before.read text).1, (before.read text).2.isAccepted) := rfl
  simp only [htry, true_and]
  exact ⟨accounts_read before text, isAccepted_read_eq_false_iff⟩

end Outline

end HotkeyScript
