import HotkeyScript.Proofs.Reading.Lines
import HotkeyScript.Proofs.Record.RoundTrip
import HotkeyScript.Proofs.Text.Lines

/-!
# `HotkeyScript.Proofs.Record.Report`: reports in JSON

Reports are only written, so there is no reader of reports that they could
be read back with. What they are written as tells all of them apart even
so, since any JSON text gives back the value that it writes, and the value
has each line with its number, its verdict and its text.

A report is made from the lines of a text. So what it is written as tells
texts apart that have different lines, and no others. Texts with the same
lines differ in the kinds of their breaks only.

* `Report.compact_toJson_injective`: different reports are written
  differently.
* `Text.unified`: a text with breaks of one kind. `lines_eq_iff` says that
  this is what the lines know of a text.
* `reports_identify_texts`: texts by what their reports are written as.
-/

set_option autoImplicit false

namespace HotkeyScript

open Json (Value)

/-! ### Different reports -/

namespace Report

/-- The record of a line can be read as JSON, since its number is written
in digits. -/
theorem Line.isReadable_toJson (line : Line) :
    line.toJson.isReadable = true := by
  have hnumber : (Value.ofNat line.number).isReadable = true := by
    simp [Value.ofNat, Value.isReadable, Value.tokens,
      Json.Token.isReadable, Json.isNumber_toDigits]
  rw [toJson, Json.isReadable_record, List.all_cons, hnumber]
  rfl

/-- The record of a report can be read as JSON. -/
theorem isReadable_toJson (report : Report) :
    report.toJson.isReadable = true := by
  rw [toJson, Json.isReadable_record, List.all_cons, Json.isReadable_array]
  simp [Line.isReadable_toJson]

/-- The record of a line has the number, the verdict and the text of the
line, and no two of these are written in one way. -/
theorem Line.toJson_injective : Function.Injective Line.toJson := by
  have hnumber {m n : Nat} (h : toString m = toString n) : m = n := by
    have hdigits : Nat.toDigits 10 m = Nat.toDigits 10 n := by
      simpa using congrArg String.toList h
    rw [← Nat.ofDigitChars_ten_toDigits (n := m), hdigits,
      Nat.ofDigitChars_ten_toDigits]
  have hword : Function.Injective Verdict.word := by
    intro v w
    cases v <;> cases w <;> decide
  intro line line' h
  obtain ⟨number, verdict, text⟩ := line
  obtain ⟨number', verdict', text'⟩ := line'
  -- Equal records have equal values under each name.
  simp only [toJson, Value.record, Value.ofNat, Value.ofString,
    List.map_cons, List.map_nil, Value.object.injEq, List.cons.injEq,
    Prod.mk.injEq, Value.number.injEq, Value.string.injEq,
    Option.some.injEq, true_and, and_true] at h
  obtain ⟨hnumbers, hwords, htexts⟩ := h
  rw [hnumber hnumbers, hword hwords, htexts]

/-- The record of a report has all lines of the report in their order. -/
theorem toJson_injective : Function.Injective toJson := by
  intro report report' h
  obtain ⟨lines⟩ := report
  obtain ⟨lines'⟩ := report'
  simp only [toJson, Value.record, List.map_cons, List.map_nil,
    Value.object.injEq, List.cons.injEq, Prod.mk.injEq, Value.array.injEq,
    true_and, and_true] at h
  -- A report has nothing but its lines, which stand in an array.
  have hlines := List.map_injective_iff.mpr Line.toJson_injective h
  rw [Array.toList_inj.mp hlines]

/-- Different reports are written differently. -/
theorem compact_toJson_injective :
    Function.Injective fun report : Report => report.toJson.compact := by
  intro report report' h
  exact toJson_injective (Value.compact_inj report.isReadable_toJson
    report'.isReadable_toJson h)

end Report

/-! ### Texts and their lines -/

namespace Text

/-- The text with a line feed for each carriage return. -/
def unified (text : String) : String :=
  String.ofList (text.toList.map fun c => if c = '\r' then '\n' else c)

/-- Splitting at line feeds sees all breaks once they are unified: the
kind of a break does not matter. -/
theorem splitOn_unified (text : String) :
    (unified text).toList.splitOn '\n' = text.toList.splitOnP isBreak := by
  rw [unified, String.toList_ofList, List.splitOn_eq_splitOnP]
  induction text.toList with
  | nil => rfl
  | cons c cs ih =>
    rw [List.map_cons, List.splitOnP_cons_eq_if_modifyHead,
      List.splitOnP_cons_eq_if_modifyHead, ih]
    by_cases hreturn : c = '\r'
    · simp [hreturn, isBreak]
    · simp [hreturn, isBreak]

/-- A unified text is its lines with a line feed between any two. -/
theorem toList_unified (text : String) :
    (unified text).toList
      = ['\n'].intercalate (text.toList.splitOnP isBreak) := by
  rw [← splitOn_unified, List.intercalate_splitOn]

/-- Of a text the lines know all but the kinds of its breaks. -/
theorem lines_eq_iff {first second : String} :
    lines first = lines second ↔ unified first = unified second := by
  have hlines : lines first = lines second
      ↔ first.toList.splitOnP isBreak = second.toList.splitOnP isBreak :=
    (List.map_injective_iff.mpr fun _ _ => String.ofList_inj.mp).eq_iff
  rw [hlines]
  constructor
  · intro h
    rw [← String.toList_inj, toList_unified, toList_unified, h]
  · intro h
    rw [← splitOn_unified, ← splitOn_unified, h]

end Text

/-! ### Texts and their reports -/

/-- A report knows the lines of its text. -/
theorem Outline.report_read_eq_iff {left right : Outline}
    {first second : String} :
    (left.read first).2 = (right.read second).2
      ↔ Text.lines first = Text.lines second := by
  constructor
  · intro h
    have hnumbered := left.numbered_lines_read first
    rw [h, right.numbered_lines_read second] at hnumbered
    rw [← List.zipIdx_map_fst 1 (Text.lines first), ← hnumbered,
      List.zipIdx_map_fst]
  · intro h
    rw [read_eq, read_eq, h]

/-- **What a report is written as identifies its text**, the kinds of its
breaks apart. So it also identifies what the text does to an outline. -/
theorem reports_identify_texts (first second : String) :
    (∀ left right : Outline,
        (left.read first).2.toJson.compact
            = (right.read second).2.toJson.compact
          ↔ Text.unified first = Text.unified second)
      ∧ (Text.unified first = Text.unified second →
        ∀ outline : Outline,
          (outline.read first).1 = (outline.read second).1) := by
  constructor
  · intro left right
    rw [Report.compact_toJson_injective.eq_iff, Outline.report_read_eq_iff,
      Text.lines_eq_iff]
  · intro h outline
    rw [← Text.lines_eq_iff] at h
    rw [Outline.read_eq, Outline.read_eq, Statement.ofText,
      Statement.ofText, h]

/-- Two breaks the one way round and the other. -/
theorem reports_identify_texts_crlf :
    Text.unified "a::\r\n; b" = Text.unified "a::\n\r; b"
      ∧ ((∅ : Outline).read "a::\r\n; b").1
        = ((∅ : Outline).read "a::\n\r; b").1 :=
  have hunified : Text.unified "a::\r\n; b" = Text.unified "a::\n\r; b" := by
    decide
  ⟨hunified, (reports_identify_texts _ _).2 hunified ∅⟩

end HotkeyScript
