import HotkeyScript.Reading
import HotkeyScript.Text.Lossy

/-!
# `HotkeyScript.Script`: loading a script from a file

A script is loaded from a path in three steps. A `~` at the start of
the path becomes the home directory, the file there is read and has to
be UTF-8 text, and the text is read into an empty outline. A byte-order
mark at the start of the text is dropped.

* `expandHome`: the path with the home directory in place of `~`.
* `Source.load`: the text of the file at a path.
* `Script.load`: the script at a path.
* `LoadError`: what can go wrong, in the order in which it is noticed.

How a file is read is left to the caller: it is a function from paths
to bytes.
-/

set_option autoImplicit false

namespace HotkeyScript

/-! ### What can go wrong -/

/-- Why the bytes of a file cannot be had. -/
inductive ReadFailure where
  /-- No file has this path. -/
  | notFound
  /-- The path leads to a directory. -/
  | isDirectory
  /-- The path leads through something that is no directory. -/
  | notDirectory
  /-- The path or a name in it is too long. -/
  | nameTooLong
  /-- The path holds the character U+0000. -/
  | nulInName
  /-- Something else, in the words of the system. -/
  | other (text : String)
  deriving DecidableEq, Repr

/-- The failure in words. -/
def ReadFailure.message : ReadFailure → String
  | .notFound => "No such file or directory (os error 2)"
  | .isDirectory => "Is a directory (os error 21)"
  | .notDirectory => "Not a directory (os error 20)"
  | .nameTooLong => "File name too long (os error 36)"
  | .nulInName => "file name contained an unexpected NUL byte"
  | .other text => text

/-- Why a script cannot be loaded. -/
inductive LoadError where
  /-- The path is not UTF-8 text, so it cannot be expanded. -/
  | pathNotText (path : ByteArray)
  /-- There is no file at the path. -/
  | notFound (path : String)
  /-- The file cannot be read. -/
  | unreadable (failure : ReadFailure)
  /-- The file is not UTF-8 text. -/
  | fileNotText (path : String)

/-- A path as it is shown, be it text or not. -/
def shownPath (path : ByteArray) : String :=
  String.ofList (Text.lossy path.data.toList)

/-- The refusal in words. -/
def LoadError.message : LoadError → String
  | .pathNotText path => "Invalid path encoding: " ++ shownPath path
  | .notFound path => "Script file not found: " ++ path
  | .unreadable failure => "IO error: " ++ failure.message
  | .fileNotText path => "Script is not valid UTF-8: " ++ path

/-! ### From a path to a script -/

/-- The path with the home directory in place of a `~` that stands by
itself or before a `/`. -/
def expandHome (home path : String) : String :=
  match path.toList with
  | ['~'] => home
  | '~' :: '/' :: rest => home ++ String.ofList ('/' :: rest)
  | _ => path

/-- The expanded form of a path given in bytes. -/
def expandBytes (home : String) (path : ByteArray) :
    Except LoadError String :=
  match String.fromUTF8? path with
  | some path => .ok (expandHome home path)
  | none => .error (.pathNotText path)

/-- The character that marks a text as Unicode when it stands at the
start. -/
def byteOrderMark : Char := '\uFEFF'

/-- The text without a byte-order mark at its start. -/
def dropMark (text : String) : String :=
  match text.toList with
  | c :: rest => if c = byteOrderMark then String.ofList rest else text
  | [] => text

/-- The text of a script file. -/
structure Source where
  /-- The expanded path of the file. -/
  path : String
  /-- The text of the file, without a byte-order mark. -/
  text : String
  deriving DecidableEq, Repr

/-- The text in the bytes read at an expanded path. -/
def Source.ofBytes (path : String) :
    Except ReadFailure ByteArray → Except LoadError Source
  | .error .notFound => .error (.notFound path)
  | .error failure => .error (.unreadable failure)
  | .ok bytes =>
    match String.fromUTF8? bytes with
    | some text => .ok ⟨path, dropMark text⟩
    | none => .error (.fileNotText path)

/-- The text of the file at a path. -/
def Source.load (read : String → Except ReadFailure ByteArray)
    (home : String) (path : ByteArray) : Except LoadError Source := do
  let path ← expandBytes home path
  Source.ofBytes path (read path)

/-- A script that has been read. -/
structure Script where
  /-- The expanded path of its file. -/
  path : String
  /-- What it says. -/
  outline : Outline
  /-- What became of its lines. -/
  report : Report

/-- Reads the text of a script file. -/
def Script.ofSource (source : Source) : Script :=
  let (outline, report) := (∅ : Outline).read source.text
  ⟨source.path, outline, report⟩

/-- The script at a path. -/
def Script.load (read : String → Except ReadFailure ByteArray)
    (home : String) (path : ByteArray) : Except LoadError Script :=
  (Source.load read home path).map Script.ofSource

end HotkeyScript
