import HotkeyScript.Record
import HotkeyScript.Script
import HotkeyScript.Terminal

/-!
# `HotkeyScript.CommandLine`: the program

The program has two commands. `check SCRIPT` says which lines of a
script are not recognized, and `list SCRIPT` lists what the script
says, as text or with `--json` as JSON.

* `Request.ofArguments`: what the arguments ask for.
* `check` and `list`: what a command prints, and its exit code: 1 if the
  script cannot be loaded, or if `check` finds something. The path of
  the script is given in bytes and need not be text.
* `Command.run`: the command that the arguments ask for.
* `run`: the whole program as a function of its arguments and its
  environment. A usage error has exit code 2.
-/

set_option autoImplicit false

namespace HotkeyScript.CommandLine

open Terminal (Colour Span Style)

/-! ### Arguments -/

/-- What the program does with a script. -/
inductive Command where
  /-- Says which lines are not recognized. -/
  | check (script : String)
  /-- Lists what the script says. -/
  | list (script : String) (json : Bool)
  deriving DecidableEq, Repr

/-- What the arguments ask for. -/
inductive Request where
  /-- A command, and whether to tell more about it. -/
  | run (verbose : Bool) (command : Command)
  /-- The name and version of the program. -/
  | version
  /-- How to use the program. -/
  | help
  deriving DecidableEq, Repr

/-- Why the arguments ask for nothing. -/
inductive UsageError where
  /-- No command is given. -/
  | missingCommand
  /-- A command has no script. -/
  | missingScript
  /-- A script has no name. -/
  | emptyScript
  /-- A flag is given twice. -/
  | repeatedFlag (flag : String)
  /-- An argument has no meaning where it stands. -/
  | unexpected (argument : String)
  deriving DecidableEq, Repr

/-- The usage error in words. -/
def UsageError.message : UsageError → String
  | .missingCommand => "a command is required: check or list"
  | .missingScript => "a script is required"
  | .emptyScript => "a script must have a name"
  | .repeatedFlag flag => flag ++ " cannot be used multiple times"
  | .unexpected argument => "unexpected argument " ++ argument.quote

/-- What some flags lead to: on to the next argument, or to a request
at once. -/
abbrev Flags := Bool ⊕ Request

/-- Reads the letters of an argument such as `-vh`. `-V` has a meaning
before the command only. -/
def readLetters (inCommand : Bool) (verbose : Bool) :
    List Char → Except UsageError Flags
  | [] => .ok (.inl verbose)
  | 'v' :: letters =>
    if verbose then .error (.repeatedFlag "--verbose")
    else readLetters inCommand true letters
  | 'h' :: _ => .ok (.inr .help)
  | 'V' :: letters =>
    if inCommand then
      .error (.unexpected (String.ofList ('-' :: 'V' :: letters)))
    else .ok (.inr .version)
  | letters => .error (.unexpected (String.ofList ('-' :: letters)))

/-- Reads an argument that begins with a dash and is none of the
command's own flags. -/
def readFlag (inCommand : Bool) (verbose : Bool) (argument : String) :
    Except UsageError Flags :=
  if argument = "--verbose" then readLetters inCommand verbose ['v']
  else if argument = "--help" then readLetters inCommand verbose ['h']
  else if argument = "--version" then readLetters inCommand verbose ['V']
  else
    match argument.toList with
    | '-' :: '-' :: _ => .error (.unexpected argument)
    | '-' :: letters => readLetters inCommand verbose letters
    | _ => .error (.unexpected argument)

/-- Whether an argument is a flag: it begins with a dash and is more
than a dash. -/
def isFlag (argument : String) : Bool :=
  match argument.toList with
  | '-' :: _ :: _ => true
  | _ => false

/-- What has been read of the arguments of a command. -/
structure Progress where
  /-- Whether flags may no longer follow. -/
  closed : Bool
  /-- The script. -/
  script? : Option String
  /-- Whether `--json` is given. -/
  json : Bool
  /-- Whether `--verbose` is given. -/
  verbose : Bool

/-- Reads an argument of a command that is no flag: its script. -/
def Progress.withScript (progress : Progress) (argument : String) :
    Except UsageError Progress :=
  match progress.script? with
  | some _ => .error (.unexpected argument)
  | none =>
    if argument.isEmpty then .error .emptyScript
    else .ok { progress with script? := some argument }

/-- Reads the arguments of a command; `takesJson` says whether
`--json` is one of them, and `make` makes the command. -/
def readCommand (takesJson : Bool) (make : String → Bool → Command) :
    Progress → List String → Except UsageError Request
  | progress, [] =>
    match progress.script? with
    | some script =>
      .ok (.run progress.verbose (make script progress.json))
    | none => .error .missingScript
  | progress, argument :: rest =>
    if progress.closed || !isFlag argument then
      match progress.withScript argument with
      | .ok progress => readCommand takesJson make progress rest
      | .error fault => .error fault
    else if argument = "--" then
      readCommand takesJson make { progress with closed := true } rest
    else if takesJson && argument = "--json" then
      if progress.json then .error (.repeatedFlag "--json")
      else readCommand takesJson make { progress with json := true } rest
    else
      match readFlag true progress.verbose argument with
      | .ok (.inl verbose) =>
        readCommand takesJson make { progress with verbose } rest
      | .ok (.inr request) => .ok request
      | .error fault => .error fault

/-- The request of a command with `--verbose` before the command. -/
def Request.addVerbose (verbose : Bool) : Request → Request
  | .run own command => .run (verbose || own) command
  | request => request

/-- Reads what help is asked for: none in particular, or that of one
command. -/
def readHelp : List String → Except UsageError Request
  | [] => .ok .help
  | [topic] =>
    if topic ∈ ["check", "list", "help"] then .ok .help
    else .error (.unexpected topic)
  | _ :: argument :: _ => .error (.unexpected argument)

/-- Reads the arguments before the command. -/
def readGlobal (verbose : Bool) :
    List String → Except UsageError Request
  | [] => .error .missingCommand
  | argument :: rest =>
    -- The flags of a command are counted by themselves, so the verbose
    -- flag may stand once before the command and once after it.
    let start : Progress := ⟨false, none, false, false⟩
    if argument = "check" then
      (readCommand false (fun script _ => .check script) start rest).map
        (.addVerbose verbose)
    else if argument = "list" then
      (readCommand true .list start rest).map (.addVerbose verbose)
    else if argument = "help" then readHelp rest
    -- After `--` no argument is a command.
    else if argument = "--" then
      match rest with
      | [] => .error .missingCommand
      | argument :: _ => .error (.unexpected argument)
    else if !isFlag argument then .error (.unexpected argument)
    else
      match readFlag false verbose argument with
      | .ok (.inl verbose) => readGlobal verbose rest
      | .ok (.inr request) => .ok request
      | .error fault => .error fault

/-- What the arguments ask for. -/
def Request.ofArguments (arguments : List String) :
    Except UsageError Request :=
  readGlobal false arguments

/-! ### Commands -/

/-- What the program finds around it. -/
structure Environment where
  /-- The home directory. -/
  home : String
  /-- Whether to write colour. -/
  colour : Bool
  /-- Reads a file. -/
  read : String → Except ReadFailure ByteArray

/-- What the program leaves behind. -/
structure Outcome where
  /-- The exit code. -/
  code : Nat
  /-- What is written to standard output. -/
  stdout : List Span
  /-- What is written to standard error. -/
  stderr : String
  deriving Repr

/-- The complaint about a script that cannot be loaded. -/
def complaint (fault : LoadError) : String :=
  "Error: Failed to load script: " ++ fault.message ++ "\n"

/-- A text without the blank characters at its ends. -/
def trimmed (text : String) : String :=
  String.ofList (Text.trim text.toList)

/-- The entry of a line that was not recognized. -/
def missedSpans (line : Report.Line) : List Span :=
  [.plain "  ", .styled .faint s!"{line.number}:", .plain " ",
   .styled (.inColour .yellow) (trimmed line.text), .plain "\n"]

/-- What `check` says of a report. -/
def checkSpans (report : Report) : List Span :=
  let counts : List Span :=
    [.styled (.inColour .green) "✓",
     .plain s!" Recognized {report.recognized} of {report.lines.size} lines\n\n"]
  match report.missed with
  | [] =>
    counts
      ++ [.styled (.heavyIn .green) "✓", .plain " ",
          .styled .heavy "Every line recognized!", .plain "\n"]
  | missed =>
    let plural := if missed.length = 1 then "" else "s"
    counts
      ++ [.styled (.heavyIn .red) "✗",
          .plain s!" Found {missed.length} unrecognized line{plural}:\n\n"]
      ++ missed.flatMap missedSpans

/-- Says which lines of a script are not recognized. -/
def check (environment : Environment) (path : ByteArray) : Outcome :=
  let heading : List Span :=
    [.styled (.inColour .cyan) "→",
     .plain (" Parsing script: " ++ shownPath path ++ "\n")]
  match Script.load environment.read environment.home path with
  | .error fault => ⟨1, heading, complaint fault⟩
  | .ok script =>
    ⟨if script.report.isComplete then 0 else 1,
     heading ++ checkSpans script.report, ""⟩

/-- The entry of a statement in a list. -/
def statementSpans : Statement → List Span
  | .comment comment => [.styled .faint comment.text, .plain "\n"]
  | .hotkey hotkey =>
    let kind := if hotkey.isChord then "chord" else "hotkey"
    [.styled (.heavyIn .cyan) hotkey.describe, .plain " ",
     .styled .faint "←", .plain " ",
     .styled (.inColour .magenta)
       (kind ++ " `" ++ trimmed hotkey.text ++ "`"),
     .plain "\n"]

/-- What `list` says of a script. -/
def listSpans (script : Script) (json : Bool) : List Span :=
  let statements := script.outline.statements
  if json then
    let value : Json.Value := .array (statements.map Statement.toJson)
    [.plain (value.pretty ++ "\n")]
  else
    [.styled .heavy ("Expressions from: " ++ script.path ++ "\n"),
     .plain "\n"]
      ++ statements.flatMap statementSpans
      ++ [.plain "\n", .styled .heavy "Total:",
          .plain s!" {statements.length} expressions\n"]

/-- Lists what a script says. -/
def list (environment : Environment) (path : ByteArray) (json : Bool) :
    Outcome :=
  match Script.load environment.read environment.home path with
  | .error fault => ⟨1, [], complaint fault⟩
  | .ok script => ⟨0, listSpans script json, ""⟩

/-- The script of a command. -/
def Command.script : Command → String
  | check script => script
  | list script _ => script

/-- Runs a command. -/
def Command.run (environment : Environment) : Command → Outcome
  | .check script => CommandLine.check environment script.toUTF8
  | .list script json => CommandLine.list environment script.toUTF8 json

/-! ### The program -/

/-- The name and version of the program. -/
def versionText : String := "ahk-hotkey-parser 0.1.0\n"

/-- How to use the program. -/
def helpText : String :=
  "Usage: ahk-hotkey-parser [-v] check SCRIPT\n"
    ++ "       ahk-hotkey-parser [-v] list SCRIPT [--json]\n"

/-- The program as a function of its arguments. -/
def run (environment : Environment) (arguments : List String) : Outcome :=
  match Request.ofArguments arguments with
  | .ok (.run _ command) => command.run environment
  | .ok .version => ⟨0, [.plain versionText], ""⟩
  | .ok .help => ⟨0, [.plain helpText], ""⟩
  | .error fault => ⟨2, [], "error: " ++ fault.message ++ "\n" ++ helpText⟩

/-- What a run writes to standard output. -/
def Outcome.output (environment : Environment) (outcome : Outcome) :
    String :=
  Terminal.render environment.colour outcome.stdout

end HotkeyScript.CommandLine
