import HotkeyScript.CommandLine
import HotkeyScript.Trace

/-!
# `HotkeyScript.Main`: the program on a real system

Finds the home directory and the wish for colour in the environment,
reads the one file that a command needs, and writes what the run
leaves behind. With `--verbose` the events of a load that succeeds go
to standard error.
-/

set_option autoImplicit false

namespace HotkeyScript.Main

open HotkeyScript.CommandLine

/-- The number of an error of the system. Opening a file tells it
negated, and reading from one tells it as it is. -/
def errorNumber (code : UInt32) : Nat :=
  if code < 0x80000000 then code.toNat else (0 - code).toNat

/-- Why the system could not read a file. -/
def failure : IO.Error → ReadFailure
  | .noFileOrDirectory _ _ _ => .notFound
  | .permissionDenied _ _ _ =>
    .other "Permission denied (os error 13)"
  | .inappropriateType _ code details =>
    match errorNumber code with
    | 20 => .notDirectory
    | 21 => .isDirectory
    | number => .other s!"{details} (os error {number})"
  | .invalidArgument _ code details =>
    match errorNumber code with
    | 22 => .nulInName
    | 36 => .nameTooLong
    | number => .other s!"{details} (os error {number})"
  | error => .other error.toString

/-- The bytes of the file at a path. -/
def readFile (path : String) : IO (Except ReadFailure ByteArray) := do
  match ← (IO.FS.readBinFile path).toBaseIO with
  | .ok bytes => return .ok bytes
  | .error error => return .error (failure error)

/-- Reads the file at an expanded path, to be had again from the
function that it returns. -/
def readOnce (home : String) (script : String) :
    IO (String → Except ReadFailure ByteArray) := do
  match expandBytes home script.toUTF8 with
  | .ok path =>
    let bytes ← readFile path
    return fun _ => bytes
  | .error _ => return fun _ => .error .notFound

end HotkeyScript.Main

open HotkeyScript HotkeyScript.CommandLine in
/-- Runs the program on the arguments of the command line. -/
def main (arguments : List String) : IO UInt32 := do
  let stdout ← IO.getStdout
  let stderr ← IO.getStderr
  let home := (← IO.getEnv "HOME").getD "~"
  let colour := Terminal.wantsColour (← IO.getEnv "CLICOLOR_FORCE")
    (← IO.getEnv "NO_COLOR") (← IO.getEnv "CLICOLOR") (← stdout.isTty)
  -- The file is read before the run, which then takes its bytes from a
  -- function and has no effects of its own.
  let read ←
    match Request.ofArguments arguments with
    | .ok (.run _ command) => Main.readOnce home command.script
    | _ => pure fun _ => .error .notFound
  let environment : Environment := ⟨home, colour, read⟩
  match Request.ofArguments arguments with
  | .ok (.run true command) =>
    for event in Trace.ofLoad read home command.script.toUTF8 do
      if event.level != .trace then stderr.putStrLn event.line
  | _ => pure ()
  let outcome := CommandLine.run environment arguments
  stdout.putStr (outcome.output environment)
  stdout.flush
  stderr.putStr outcome.stderr
  return UInt32.ofNat outcome.code
