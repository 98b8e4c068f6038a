import HotkeyScript.Outline.Traversal
import HotkeyScript.Report
import HotkeyScript.Text

/-!
# `HotkeyScript.Reading`: reading a text into an outline

Each line of a text is recognized by itself. What it says is added to
the outline, under the root, and the report says what became of it. A
second text is added to what the first has left.

* `Outline.readLine`: one line, together with the report so far.
* `Outline.read`: a whole text.
* `Outline.tryRead`: a whole text, judged by `Report.isAccepted`.
-/

set_option autoImplicit false

namespace HotkeyScript.Outline

/-- Adds what a line says, if it is recognized. -/
def addStatement? (outline : Outline) : Option Statement → Outline
  | some statement => outline.add statement
  | none => outline

/-- Reads the line that follows those of a report. -/
def readLine (state : Outline × Array Report.Line) (line : String) :
    Outline × Array Report.Line :=
  let (outline, lines) := state
  let statement? := Statement.ofLine? line
  let entry : Report.Line :=
    ⟨lines.size + 1, .ofStatement? statement?, line⟩
  (outline.addStatement? statement?, lines.push entry)

/-- Adds what a text says and reports on its lines. -/
def read (outline : Outline) (text : String) : Outline × Report :=
  let (outline, lines) := (Text.lines text).foldl readLine (outline, #[])
  (outline, ⟨lines⟩)

/-- Adds what a text says and tells whether the text is accepted. What
was recognized stays in the outline either way. -/
def tryRead (outline : Outline) (text : String) : Outline × Bool :=
  let (outline, report) := outline.read text
  (outline, report.isAccepted)

end HotkeyScript.Outline
