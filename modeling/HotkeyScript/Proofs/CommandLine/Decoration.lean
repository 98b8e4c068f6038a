import HotkeyScript.Proofs.CommandLine.Agreement
import HotkeyScript.Proofs.Terminal.Strip

/-!
# `HotkeyScript.Proofs.CommandLine.Decoration`: colour is only decoration

The lines of a script are written to the terminal, and nobody has looked at
what they hold. A line may end with half of a control sequence or take all
styles off. With colour there are sequences of the program's own between
such pieces; without colour there are none. Still a reader who takes all
sequences out of both gets the same text, since the program never writes
two pieces with nothing between them that could be a part of a sequence.

* `row_checkSpans`, `row_listSpans`: all that the two commands write is such
  a row, whatever the script holds. The pieces that come from the script
  stand between pieces of the commands' own, which begin and end outside of
  any sequence.
* `LooksOnly`: a run is the same with colour and without but for its looks.
* `looksOnly_of_commands`: every run of the two commands.
-/

set_option autoImplicit false

namespace HotkeyScript.CommandLine

open Terminal (BeginsOutside EndsOutside Row Span Strips)

/-! ### Plain pieces of the commands' own -/

/-- A blank may follow any piece, as it stands in no sequence. -/
theorem beginsOutside_space : BeginsOutside " " := ⟨_, rfl, rfl⟩

/-- A piece may follow a blank. -/
theorem endsOutside_space : EndsOutside " " := ⟨_, rfl, rfl⟩

/-- A line feed may follow any piece. -/
theorem beginsOutside_break : BeginsOutside "\n" := ⟨_, rfl, rfl⟩

/-- A piece may follow a line feed. -/
theorem endsOutside_break : EndsOutside "\n" := ⟨_, rfl, rfl⟩

/-! ### What the commands write -/

/-- The heading of `check`. The path in it may hold anything, but it stands
between words of the command and a line feed. -/
theorem row_headingSpans (path : ByteArray) : Row (headingSpans path) := by
  have hwords : BeginsOutside " Parsing script: " := ⟨_, rfl, rfl⟩
  have hbegins :
      BeginsOutside (" Parsing script: " ++ shownPath path ++ "\n") := by
    rw [String.append_assoc]
    exact hwords.append _
  exact .styled hbegins (endsOutside_break.append _) .nil

/-- The two counts of `check`. What stands between the first words and the
two line feeds is made of numbers, but nothing needs to be known of it. -/
theorem row_countSpans (recognized lines : Nat) :
    Row (countSpans recognized lines) := by
  have hwords : BeginsOutside " Recognized " := ⟨_, rfl, rfl⟩
  have hbreaks : EndsOutside " lines\n\n" := ⟨_, rfl, rfl⟩
  have hbegins : BeginsOutside
      s!" Recognized {recognized} of {lines} lines\n\n" := by
    simp only [String.append_assoc]
    exact hwords.append _
  exact .styled hbegins (hbreaks.append _) .nil

/-- The announcement of missed lines, in the singular and in the
plural. -/
theorem row_foundSpans (count : Nat) : Row (foundSpans count) := by
  have hwords : BeginsOutside " Found " := ⟨_, rfl, rfl⟩
  have hbreaks : EndsOutside ":\n\n" := ⟨_, rfl, rfl⟩
  have hbegins (plural : String) : BeginsOutside
      s!" Found {count} unrecognized line{plural}:\n\n" := by
    simp only [String.append_assoc]
    exact hwords.append _
  exact .styled (hbegins _) (hbreaks.append _) .nil

/-- The entry of a missed line. Its text may hold anything, but the line
feed behind it is plain. -/
theorem row_missedSpans (line : Report.Line) : Row (missedSpans line) := by
  have hindent : EndsOutside "  " := ⟨_, rfl, rfl⟩
  have htext : Row [.styled (.inColour .yellow) (trimmed line.text),
      .plain "\n"] :=
    .styled beginsOutside_break endsOutside_break .nil
  exact .plain hindent (.styled beginsOutside_space endsOutside_space htext)

/-- The entry of a statement. A comment and a description may hold
anything, and plain pieces stand behind them. -/
theorem row_statementSpans (statement : Statement) :
    Row (statementSpans statement) := by
  cases statement with
  | comment c => exact .styled beginsOutside_break endsOutside_break .nil
  | hotkey h =>
    exact .styled beginsOutside_space endsOutside_space
      (.styled beginsOutside_space endsOutside_space
        (.styled beginsOutside_break endsOutside_break .nil))

/-- The counts of `check`, with what it says after them. -/
theorem row_checkSpans (report : Report) : Row (checkSpans report) := by
  have hcounts := row_countSpans report.recognized report.lines.size
  unfold checkSpans
  split
  · have hfull : Row [.styled (.heavyIn .green) "✓", .plain " ",
        .styled .heavy "Every line recognized!", .plain "\n"] :=
      .styled beginsOutside_space endsOutside_space
        (.styled beginsOutside_break endsOutside_break .nil)
    exact hcounts.append hfull
  · have hfound := row_foundSpans report.missed.length
    have hentries : Row (report.missed.flatMap missedSpans) :=
      .flatMap row_missedSpans report.missed
    exact (hcounts.append hfound).append hentries

/-- All that `list` writes, as text and as JSON. -/
theorem row_listSpans (script : Script) (json : Bool) :
    Row (listSpans script json) := by
  cases json with
  | true =>
    -- There is no styled piece, so it does not matter how the array begins.
    exact .plain (endsOutside_break.append _) .nil
  | false =>
    have hheading : Row [.styled .heavy
        ("Expressions from: " ++ script.path ++ "\n"), .plain "\n"] :=
      .styled beginsOutside_break endsOutside_break .nil
    have hstatements :
        Row (script.outline.statements.flatMap statementSpans) :=
      .flatMap row_statementSpans _
    have htotal (count : Nat) : Row [.plain "\n", .styled .heavy "Total:",
        .plain s!" {count} expressions\n"] := by
      have hwords : EndsOutside " expressions\n" := ⟨_, rfl, rfl⟩
      have hbegins : BeginsOutside s!" {count} expressions\n" := by
        rw [String.append_assoc]
        exact beginsOutside_space.append _
      exact .plain endsOutside_break
        (.styled hbegins (hwords.append _) .nil)
    exact (hheading.append hstatements).append (htotal _)

/-! ### Whole runs -/

/-- What a run leaves behind is the same with colour and without but for
its looks: the exit code, the complaint, and what is left of the output
when the sequences have been taken out of it in one pass. -/
structure LooksOnly (environment : Environment)
    (run : Environment → Outcome) : Prop where
  code : ∀ colour,
    (run { environment with colour }).code = (run environment).code
  stderr : ∀ colour,
    (run { environment with colour }).stderr = (run environment).stderr
  stdout : ∃ shown, ∀ colour,
    Strips ((run { environment with colour }).output
      { environment with colour }).toList shown

/-- The pieces that a run writes do not depend on colour, only how they are
written does. -/
theorem looksOnly_of_row {environment : Environment}
    {run : Environment → Outcome} (outcome : Outcome)
    (hrun : ∀ colour, run { environment with colour } = outcome)
    (hrow : Row outcome.stdout) : LooksOnly environment run where
  code colour := by rw [hrun, ← hrun environment.colour]
  stderr colour := by rw [hrun, ← hrun environment.colour]
  stdout := by
    refine ⟨outcome.stdout.flatMap (Terminal.strip ·.text.toList),
      fun colour => ?_⟩
    rw [hrun, Terminal.strips_iff]
    exact hrow.strip_render colour

section
variable (environment : Environment) (path : ByteArray)

/-- A run of `check` is the same with colour and without but for its
looks. -/
theorem looksOnly_check :
    LooksOnly environment (check · path) := by
  refine looksOnly_of_row (check environment path) (fun _ => rfl) ?_
  have hheading := row_headingSpans path
  rw [check]
  cases Script.load environment.read environment.home path with
  | error fault => exact hheading
  | ok script => exact hheading.append (row_checkSpans script.report)

/-- A run of `list` is the same with colour and without but for its
looks. -/
theorem looksOnly_list (json : Bool) :
    LooksOnly environment (list · path json) := by
  refine looksOnly_of_row (list environment path json) (fun _ => rfl) ?_
  rw [list]
  cases Script.load environment.read environment.home path with
  | error fault => exact .nil
  | ok script => exact row_listSpans script json

end

/-- **Colour is only decoration** in every run of the two commands, on any
script, given as the bytes of a path or asked for by arguments. -/
theorem looksOnly_of_commands (environment : Environment) :
    (∀ path, LooksOnly environment (check · path))
      ∧ (∀ path json, LooksOnly environment (list · path json))
      ∧ ∀ arguments command, AsksFor arguments command →
        LooksOnly environment (run · arguments) := by
  refine ⟨looksOnly_check environment, looksOnly_list environment, ?_⟩
  intro arguments command hrequest
  have hrun : (run · arguments) = command.run :=
    funext fun environment => hrequest.run_eq environment
  rw [hrun]
  cases command with
  | check script => exact looksOnly_check environment script.toUTF8
  | list script json => exact looksOnly_list environment script.toUTF8 json

/-- A file with half of a sequence at the end of a line, the escape as a
key, and a comment that takes all styles off. -/
theorem looksOnly_of_commands_escapes :
    let environment : Environment :=
      ⟨"/home", true, fun _ => .ok "\x1b[3\n^\x1b::\n;\x1b[0m".toUTF8⟩
    AsksFor ["check", "f"] (.check "f")
      ∧ LooksOnly environment (run · ["check", "f"])
      ∧ AsksFor ["list", "--", "f"] (.list "f" false)
      ∧ LooksOnly environment (run · ["list", "--", "f"]) := by
  intro environment
  have hcheck : AsksFor ["check", "f"] (.check "f") := rfl
  have hlist : AsksFor ["list", "--", "f"] (.list "f" false) := rfl
  exact ⟨hcheck, (looksOnly_of_commands environment).2.2 _ _ hcheck,
    hlist, (looksOnly_of_commands environment).2.2 _ _ hlist⟩

end HotkeyScript.CommandLine
