import HotkeyScript.Proofs.Reading.Lines
import HotkeyScript.Proofs.Text.Lines

/-!
# `HotkeyScript.Proofs.Reading.InTurn`: a text read in two parts

A text can be cut at any break. Whoever reads the two parts in turn has
the outline of the whole text, and the two reports make its report when
the lines of the second part are numbered on. So what becomes of a line
does not depend on the lines around it.

* `Report.append`: two reports as one, and what the counts and the two
  policies make of it. Completeness is decided part by part. Acceptance
  is not: a part may be refused in a text that is accepted.
  `inTurn_append` has it all.
* `read_append_break`: the outline and the report of the whole text.
* `read_line`: a line by itself becomes what it becomes in its text.
* `readsInTurn`: what this says of every outline and every cut.
-/

set_option autoImplicit false

namespace HotkeyScript

namespace Report

/-- The line when some other lines come before it. -/
def Line.after (count : Nat) (line : Line) : Line :=
  { line with number := line.number + count }

/-- Two reports as one. The lines of the second are numbered on. -/
def append (first second : Report) : Report :=
  ⟨first.lines ++ second.lines.map (·.after first.lines.size)⟩

/-! ### Two reports as one -/

section
variable (first second : Report)

/-- As many lines are recognized as in both parts. -/
theorem recognized_append :
    (append first second).recognized
      = first.recognized + second.recognized := by
  rw [append, recognized, Array.countP_append, Array.countP_map]
  rfl

/-- A verdict is counted as often as in both parts together. -/
theorem count_append (verdict : Verdict) :
    (append first second).count verdict
      = first.count verdict + second.count verdict := by
  rw [append, count, Array.countP_append, Array.countP_map]
  rfl

/-- The missed lines are those of the first part and then those of the
second, numbered on. -/
theorem missed_append :
    (append first second).missed
      = first.missed ++ second.missed.map (·.after first.lines.size) := by
  simp only [append, missed, Array.toList_filter, Array.toList_append,
    Array.toList_map, List.filter_append, List.filter_map]
  rfl

/-- A whole is complete if both parts are. -/
theorem isComplete_append :
    (append first second).isComplete
      = (first.isComplete && second.isComplete) := by
  rw [isComplete, isComplete, isComplete, missed_append]
  cases first.missed with
  | nil => rw [List.nil_append, List.isEmpty_map]; rfl
  | cons line missed => rfl

/-- A whole is blank if both parts are. -/
theorem all_isBlank_append :
    (append first second).lines.all (·.isBlank)
      = (first.lines.all (·.isBlank) && second.lines.all (·.isBlank)) := by
  rw [append, Array.all_append, Array.all_map]
  rfl

end

/-- Two accepted parts make an accepted whole. -/
theorem isAccepted_append {first second : Report}
    (hfirst : first.isAccepted = true) (hsecond : second.isAccepted = true) :
    (append first second).isAccepted = true := by
  rw [isAccepted_iff] at hfirst hsecond ⊢
  rw [recognized_append, all_isBlank_append, Bool.and_eq_true]
  -- Either some line is recognized, in one of the parts, or both are
  -- blank.
  cases hfirst with
  | inl hpos => exact .inl (Nat.add_pos_left hpos _)
  | inr hblank =>
    exact hsecond.imp (Nat.add_pos_right _ ·) (⟨hblank, ·⟩)

/-- Of an accepted whole one part at least is accepted. -/
theorem isAccepted_or_of_append {first second : Report}
    (h : (append first second).isAccepted = true) :
    first.isAccepted = true ∨ second.isAccepted = true := by
  rw [isAccepted_iff, recognized_append, all_isBlank_append,
    Bool.and_eq_true] at h
  rw [isAccepted_iff, isAccepted_iff]
  cases h with
  | inl hpos =>
    exact (Nat.add_pos_iff_pos_or_pos.mp hpos).imp .inl .inl
  -- In a blank whole the first part is blank too.
  | inr hblank => exact .inl (.inr hblank.1)

/-- What a report on a whole text owes to those on its two parts, the
first of which has `size` lines. -/
structure InTurn (size : Nat) (first second whole : Report) : Prop where
  lines : whole.lines.toList
    = first.lines.toList
      ++ second.lines.toList.map fun line =>
        { line with number := line.number + size }
  recognized : whole.recognized = first.recognized + second.recognized
  count : ∀ verdict,
    whole.count verdict = first.count verdict + second.count verdict
  isComplete : whole.isComplete = (first.isComplete && second.isComplete)
  missed : whole.missed
    = first.missed
      ++ second.missed.map fun line =>
        { line with number := line.number + size }
  isAccepted : first.isAccepted = true → second.isAccepted = true →
    whole.isAccepted = true
  isAccepted_or : whole.isAccepted = true →
    first.isAccepted = true ∨ second.isAccepted = true

/-- Two reports as one, with all that follows for counts and policies. -/
theorem inTurn_append (first second : Report) :
    InTurn first.lines.size first second (append first second) where
  lines := by
    rw [append, Array.toList_append, Array.toList_map]
    rfl
  recognized := recognized_append first second
  count := count_append first second
  isComplete := isComplete_append first second
  missed := missed_append first second
  isAccepted := isAccepted_append
  isAccepted_or := isAccepted_or_of_append

/-- Lines that come after some others are numbered on. -/
theorem mapIdx_lineAt_add (count : Nat) (lines : List String) :
    (lines.mapIdx fun place => lineAt (place + count))
      = (lines.mapIdx lineAt).map (·.after count) := by
  rw [List.mapIdx_eq_zipIdx_map, List.mapIdx_eq_zipIdx_map, List.map_map]
  apply List.map_congr_left
  intro (line, place) _
  simp only [lineAt, Line.after, Function.comp_apply, Nat.add_right_comm]

end Report

namespace Outline

/-! ### The whole text -/

/-- What a text says is what its parts say, one after the other. -/
theorem ofText_append_break (first second : String) {c : Char}
    (hc : Text.isBreak c = true) :
    Statement.ofText (first ++ String.singleton c ++ second)
      = Statement.ofText first ++ Statement.ofText second := by
  rw [Statement.ofText, Text.lines_append_break first second hc,
    List.filterMap_append]
  rfl

/-- The outline and the report of a text that is cut at a break. -/
theorem read_append_break (outline : Outline) (first second : String)
    {c : Char} (hc : Text.isBreak c = true) :
    outline.read (first ++ String.singleton c ++ second)
      = (((outline.read first).1.read second).1,
        .append (outline.read first).2
          ((outline.read first).1.read second).2) := by
  rw [Report.append, size_lines_read]
  simp only [read_eq]
  rw [ofText_append_break first second hc, List.foldl_append,
    Text.lines_append_break first second hc, List.mapIdx_append,
    Report.mapIdx_lineAt_add, List.append_toArray, List.map_toArray]

/-- A line by itself becomes what it becomes in its text. -/
theorem read_line {outline : Outline} {text : String} {line : Report.Line}
    (h : line ∈ (outline.read text).2.lines) (other : Outline) :
    (other.read line.text).2.lines = #[{ line with number := 1 }] := by
  rw [read_eq, List.mem_toArray, List.mem_mapIdx] at h
  obtain ⟨place, hplace, rfl⟩ := h
  -- A line has no break in it, so by itself it is the only line.
  have hline : Text.Unbroken (Text.lines text)[place] :=
    Text.unbroken_of_mem_lines (List.getElem_mem hplace)
  rw [read_eq]
  show ((Text.lines (Text.lines text)[place]).mapIdx Report.lineAt).toArray = _
  rw [Text.lines_of_unbroken hline]
  rfl

/-- What reading a whole text owes to reading its two parts in turn. -/
structure ReadsInTurn (before : Outline) (first second whole : String) :
    Prop where
  outline : (before.read whole).1
    = ((before.read first).1.read second).1
  report : Report.InTurn (Text.lines first).length (before.read first).2
    ((before.read first).1.read second).2 (before.read whole).2
  /-- No other line has any part in what becomes of a line. -/
  line : ∀ line ∈ (before.read whole).2.lines, ∀ other : Outline,
    (other.read line.text).2.lines = #[{ line with number := 1 }]

/-- A text can be read in two parts, cut at any break. -/
theorem readsInTurn (before : Outline) (first second : String) {c : Char}
    (hc : Text.isBreak c = true) :
    before.ReadsInTurn first second
      (first ++ String.singleton c ++ second) where
  outline := by rw [read_append_break before first second hc]
  report := by
    rw [read_append_break before first second hc, ← size_lines_read before]
    exact Report.inTurn_append _ _
  line _ h other := read_line h other

/-- A cut inside a pair of breaks: the first part ends with the one, and
the other stands between the parts. -/
theorem readsInTurn_crlf :
    Text.isBreak '\n' = true
      ∧ (∅ : Outline).ReadsInTurn "a::\r" "b\r; c"
        ("a::\r" ++ String.singleton '\n' ++ "b\r; c") :=
  have hbreak : Text.isBreak '\n' = true := by decide
  ⟨hbreak, readsInTurn ∅ "a::\r" "b\r; c" hbreak⟩

end Outline

end HotkeyScript
