import ScriptLang.CommandLine

/-!
The program itself: reads what the arguments ask for and writes the report.
-/

set_option autoImplicit false
set_option relaxedAutoImplicit false

namespace ScriptLang.CommandLine

/-- More calls and rounds than any run can make. -/
def unlimitedFuel : Nat := Nat.pow 2 62

/-- The number of a system error, whichever sign it was reported with. -/
def errorNumber : IO.Error → Nat
  | .noFileOrDirectory _ code _ => code.toInt32.toInt.natAbs
  | .inappropriateType _ code _ => code.toInt32.toInt.natAbs
  | .permissionDenied _ code _ => code.toInt32.toInt.natAbs
  | .invalidArgument _ code _ => code.toInt32.toInt.natAbs
  | .resourceExhausted _ code _ => code.toInt32.toInt.natAbs
  | .otherError code _ => code.toInt32.toInt.natAbs
  | _ => 5

/-- Writes a report, and gives the exit code. -/
def Report.write (report : Report) : IO UInt32 := do
  (← IO.getStdout).putStr report.output
  (← IO.getStderr).putStr report.errors
  return report.code.toUInt32

end ScriptLang.CommandLine

open ScriptLang.CommandLine in
def main (args : List String) : IO UInt32 := do
  match Request.ofArgs args with
  | .invalid => usage.write
  | .file path =>
    let content ← (IO.FS.readBinFile path).toBaseIO
    (runFile unlimitedFuel path (content.mapError (ReadError.ofNumber ∘ errorNumber))).write
  | .input => (runInput unlimitedFuel (← (← IO.getStdin).readBinToEnd)).write
