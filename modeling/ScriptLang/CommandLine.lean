import ScriptLang.Session

/-!
The command line. One argument names a file to run, and the low byte of its result is the exit
code; without arguments the program is read from standard input and its result is printed. What is
read is given as bytes, so that all decisions are pure.
-/

set_option autoImplicit false
set_option relaxedAutoImplicit false

namespace ScriptLang.CommandLine

/-- What a run of the program writes, and its exit code. -/
structure Report where
  code : UInt8
  output : String := ""
  errors : String := ""
  deriving DecidableEq

/-- Where the arguments ask to read a program from. -/
inductive Request
  | file (path : String)
  | input
  | invalid
  deriving DecidableEq

def Request.ofArgs : List String → Request
  | [] => input
  | [path] => file path
  | _ => invalid

def usage : Report := { code := 1, errors := "usage: bergskript [file]\n" }

/-- Why a file cannot be read; `system` is any other failure, by its number. -/
inductive ReadError
  | missing
  | permissionDenied
  | notDirectory
  | isDirectory
  | nameTooLong
  | system (number : Nat)
  | invalidText
  deriving DecidableEq

namespace ReadError

/-- The failure that the operating system reports by `number`. -/
def ofNumber : Nat → ReadError
  | 2 => missing
  | 13 => permissionDenied
  | 20 => notDirectory
  | 21 => isDirectory
  | 36 => nameTooLong
  | number => system number

/-- How a failure is reported. The texts are those of Linux for the failures that a path can lead
to; for any other failure the text is made up and only the number is that of the system, which has
a text of its own for each. -/
def message : ReadError → String
  | missing => "No such file or directory (os error 2)"
  | permissionDenied => "Permission denied (os error 13)"
  | notDirectory => "Not a directory (os error 20)"
  | isDirectory => "Is a directory (os error 21)"
  | nameTooLong => "File name too long (os error 36)"
  | system number => s!"System error (os error {number})"
  | invalidText => "stream did not contain valid UTF-8"

end ReadError

/-- The text of a file that was read, or why it has none. -/
def decode (content : Except ReadError ByteArray) : Except ReadError String := do
  match String.fromUTF8? (← content) with
  | some text => return text
  | none => throw .invalidText

/-- The exit code for a result: the low byte of an integer that fits in 64 bits, or failure. -/
def exitCode : Value → UInt8
  | .integer n =>
    if -0x8000000000000000 ≤ n && n < 0x8000000000000000 then UInt8.ofNat (n % 256).toNat else 1
  | _ => 1

/-- Runs a program text in a session of its own, and gives what it printed. -/
def runText (fuel : Nat) (text : String) : Except RunError Value × String :=
  match (Session.initial (H := Empty) (.text "")).run fuel text with
  | (result, session) => (result, session.state.sink.printed)

/-- Runs the content of the file at `path`. -/
def runFile (fuel : Nat) (path : String) (content : Except ReadError ByteArray) : Report :=
  match decode content with
  | .error cause =>
    let message := cause.message
    { code := 1, errors := s!"error reading {path}: {message}\n" }
  | .ok text =>
    match runText fuel text with
    | (.ok value, output) => { code := exitCode value, output }
    | (.error cause, output) => { code := 1, output, errors := "error: " ++ cause.message ++ "\n" }

/-- Runs what was read from standard input. -/
def runInput (fuel : Nat) (content : ByteArray) : Report :=
  match decode (.ok content) with
  | .error _ => { code := 1 }
  | .ok text =>
    match runText fuel text with
    | (.ok value, output) => { code := 0, output := output ++ value.display ++ "\n" }
    | (.error cause, output) =>
      { code := 0, output := output ++ "error: " ++ cause.message ++ "\n" }

end ScriptLang.CommandLine
