import HotkeyScript.Declaration

/-!
# `HotkeyScript.Statement`: what a line of a script says

A line of a script is a comment, declares a hotkey, or is not
recognized. A `;` makes a comment of all that follows it, wherever it
stands, so a line with a `;` declares nothing.

* `Comment.ofLine?`: the comment of a line.
* `Statement.ofLine?`: what a line says.
* `Statement.agrees`: the equality by which a script is searched:
  comments by their text, hotkeys by their trigger.
-/

set_option autoImplicit false

namespace HotkeyScript

/-- A comment, from its `;` to the end of the line. -/
structure Comment where
  /-- The comment with its `;`. -/
  text : String
  deriving DecidableEq, Repr

namespace Comment

/-- The character that begins a comment. -/
def marker : Char := ';'

/-- The comment of a line: all that stands from the first `;` on. -/
def ofLine? (line : String) : Option Comment :=
  match line.toList.dropWhile (· != marker) with
  | [] => none
  | text => some ⟨String.ofList text⟩

end Comment

/-- What a line of a script says. -/
inductive Statement where
  /-- The line holds a comment. -/
  | comment (comment : Comment)
  /-- The line declares a hotkey. -/
  | hotkey (hotkey : Hotkey)
  deriving DecidableEq, Repr

namespace Statement

/-- The text of the statement in the script. -/
def text : Statement → String
  | comment c => c.text
  | hotkey h => h.text

/-- What a line says, if it is recognized. -/
def ofLine? (line : String) : Option Statement :=
  match Comment.ofLine? line with
  | some c => some (comment c)
  | none => (Hotkey.ofLine? line).map hotkey

/-- Whether two statements say the same: comments with one text, or
hotkeys with one trigger. -/
def agrees : Statement → Statement → Bool
  | comment a, comment b => a == b
  | hotkey a, hotkey b => a.sameTrigger b
  | _, _ => false

end Statement

end HotkeyScript
