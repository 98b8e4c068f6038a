import HotkeyScript.Statement

/-!
# `HotkeyScript.Report`: what became of each line

A report says of every line of a text whether it was recognized, and
as what. Two policies judge a text by its report:

* `Report.isComplete`: every line that is not blank was recognized.
* `Report.isAccepted`: some line was recognized, or there was nothing
  to recognize.
-/

set_option autoImplicit false

namespace HotkeyScript

/-- What a line was recognized as. -/
inductive Verdict where
  /-- The line holds a comment. -/
  | comment
  /-- The line declares a hotkey. -/
  | hotkey
  /-- The line is neither. -/
  | unrecognized
  deriving DecidableEq, Repr

namespace Verdict

/-- The verdict on a line that says `statement?`. -/
def ofStatement? : Option Statement → Verdict
  | some (.comment _) => comment
  | some (.hotkey _) => hotkey
  | none => unrecognized

/-- The verdict in one word. -/
def word : Verdict → String
  | comment => "comment"
  | hotkey => "hotkey"
  | unrecognized => "unrecognized"

end Verdict

/-- What became of one line. -/
structure Report.Line where
  /-- The number of the line, from 1. -/
  number : Nat
  /-- What the line was recognized as. -/
  verdict : Verdict
  /-- The line as it stands in the text. -/
  text : String
  deriving DecidableEq, Repr

namespace Report.Line

/-- Whether the line holds blank characters only. -/
def isBlank (line : Report.Line) : Bool :=
  (Text.trim line.text.toList).isEmpty

/-- Whether the line was recognized. -/
def isRecognized (line : Report.Line) : Bool :=
  line.verdict != .unrecognized

/-- Whether the line was not recognized although it is not blank. -/
def isMissed (line : Report.Line) : Bool :=
  !line.isRecognized && !line.isBlank

end Report.Line

/-- What became of the lines of a text, in their order. -/
structure Report where
  /-- The lines. -/
  lines : Array Report.Line
  deriving DecidableEq, Repr

namespace Report

/-- The number of recognized lines. -/
def recognized (report : Report) : Nat :=
  report.lines.countP (·.isRecognized)

/-- The number of lines with one verdict. -/
def count (report : Report) (verdict : Verdict) : Nat :=
  report.lines.countP (·.verdict == verdict)

/-- The lines that were not recognized although they are not blank. -/
def missed (report : Report) : List Report.Line :=
  (report.lines.filter (·.isMissed)).toList

/-- Whether every line that is not blank was recognized. -/
def isComplete (report : Report) : Bool := report.missed.isEmpty

/-- Whether some line was recognized or all lines are blank. -/
def isAccepted (report : Report) : Bool :=
  decide (0 < report.recognized) || report.lines.all (·.isBlank)

end Report

end HotkeyScript
