import ContextLog.CommandLine.ExitCodes
/-!
# The program

Runs the command line, prints what it has written, and ends with its exit code.
-/

open ContextLog

/-- Runs the command line. -/
def main (argv : List String) : IO UInt32 := do
  let (code, after) := CommandLine.runMain argv true none {}
  IO.print ((after.store.stdout.map (·.text)).getD "")
  return (code.toNat % 256).toUInt32
