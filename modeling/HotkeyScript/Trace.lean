import HotkeyScript.Script

/-!
# `HotkeyScript.Trace`: what reading a script tells as it goes

A trace is the row of events that reading gives rise to, for whoever
wants to see why a line was not recognized. Each line has one event of
its own. Before it comes the reason, if the line would declare a
hotkey but for one of its halves.

* `Trace.ofHalf`, `Trace.ofDeclaration`: why a half or a declaration
  is refused, as the reading of the half or of the declaration found.
* `Trace.ofText`: the lines of a text and then its end.
* `Trace.ofSource`, `Trace.ofLoad`: a script that has been loaded. A
  load that fails tells nothing.
-/

set_option autoImplicit false

namespace HotkeyScript

/-- How much an event matters. -/
inductive Trace.Level where
  /-- Of use only when looking for a fault. -/
  | trace
  /-- Of use when following what is done. -/
  | debug
  /-- Of use to everyone. -/
  | info
  deriving DecidableEq, Repr

/-- Something that happens while a script is read. -/
inductive Trace.Event where
  /-- A half holds a `<` or `>` that no modifier symbol follows. -/
  | danglingSide (half : String) (offset : Nat)
  /-- A half holds a second key. -/
  | secondKey (half : String) (offset : Nat)
  /-- A line has been recognized. -/
  | recognized (line : Nat) (verdict : Verdict) (text : String)
  /-- A line has not been recognized. -/
  | unrecognized (line : Nat) (text : String)
  /-- A text has come to its end. -/
  | finished (lines recognized : Nat)
  /-- A script file has been loaded. -/
  | loaded (path : String) (lines recognized : Nat)
  deriving DecidableEq, Repr

namespace Trace

/-- How much an event matters. -/
def Event.level : Event → Level
  | danglingSide _ _ | secondKey _ _ | unrecognized _ _ => .trace
  | recognized _ _ _ | finished _ _ => .debug
  | loaded _ _ _ => .info

/-- The event in words. -/
def Event.message : Event → String
  | danglingSide _ _ => "dangling directional modifier"
  | secondKey _ _ => "more than one key in hotkey half"
  | recognized _ _ _ => "recognized"
  | unrecognized _ _ => "no recognizer matched"
  | finished _ _ => "parse finished"
  | loaded _ _ _ => "loaded script"

/-- The event and what it is about, on one line. -/
def Event.line (event : Event) : String :=
  let details :=
    match event with
    | danglingSide half offset | secondKey half offset =>
      s!"half={half.quote} offset={offset}"
    | recognized line verdict text =>
      s!"line={line} kind={verdict.word} text={text.quote}"
    | unrecognized line text => s!"line={line} text={text.quote}"
    | finished lines count => s!"lines={lines} matched={count}"
    | loaded path lines count =>
      s!"path={path} lines={lines} recognized={count}"
  event.message ++ " " ++ details

/-- The refusal of a half. -/
def Event.ofRefused (refused : Declaration.Refused) : Event :=
  let half := String.ofList refused.half
  match refused.cause with
  | .danglingSide _ offset => danglingSide half offset
  | .secondKey _ _ offset => secondKey half offset

/-- What reading halves tells: the refusal in which it ends. -/
def ofReading {α : Type} : Except Declaration.Refused α → List Event
  | .ok _ => []
  | .error refused => [.ofRefused refused]

/-- What reading a half tells. -/
def ofHalf (half : List Char) : List Event :=
  ofReading (Declaration.readHalf half)

/-- What reading a declaration tells. Nothing is told of a line without
halves to read. -/
def ofDeclaration (line : List Char) : List Event :=
  match Declaration.Halves.ofLine line with
  | .ok halves => ofReading halves.read
  | .error _ => []

/-- What recognizing a line tells. A line that is not recognized is no
comment, so it has been read as a declaration. -/
def ofLine (number : Nat) (line : String) : List Event :=
  match Statement.ofLine? line with
  | some statement =>
    [.recognized number (.ofStatement? (some statement)) line]
  | none => ofDeclaration line.toList ++ [.unrecognized number line]

/-- Whether the event is that of a recognized line. -/
def Event.isRecognized : Event → Bool
  | recognized _ _ _ => true
  | _ => false

/-- What reading a text tells. -/
def ofText (text : String) : List Event :=
  let lines := Text.lines text
  let events :=
    (lines.zipIdx 1).flatMap fun (line, number) => ofLine number line
  events ++ [.finished lines.length (events.countP (·.isRecognized))]

/-- What loading a script tells, when its text has been had. -/
def ofSource (source : Source) : List Event :=
  let report := (Script.ofSource source).report
  ofText source.text
    ++ [.loaded source.path report.lines.size report.recognized]

/-- What loading the script at a path tells. -/
def ofLoad (read : String → Except ReadFailure ByteArray)
    (home : String) (path : ByteArray) : List Event :=
  match Source.load read home path with
  | .ok source => ofSource source
  | .error _ => []

end Trace

end HotkeyScript
