import Conformance.CommandLine.Run

/-!
The command line program: reads the manifest, runs, writes the outcome.
-/

namespace Conformance.CommandLine

/-- The text of a file, if it can be read. -/
def readText? (path : String) : IO (Option String) := do
  try
    return some (← IO.FS.readFile path)
  catch _ =>
    return none

/-- Writes an outcome, and returns the exit code. -/
def Outcome.write : Outcome → IO UInt32
  | .finished code stdout stderr => do
    IO.print stdout
    IO.eprint stderr
    return UInt32.ofNat code
  | .failed message cause? => do
    IO.eprintln ("Error: " ++ message)
    if let some cause := cause? then
      IO.eprintln ("\nCaused by:\n    " ++ cause)
    return 1
  | .misused _ => do
    IO.eprintln "error: the arguments are not understood\n\nFor more information, try '--help'."
    return 2

/-- Runs the program with the given arguments, and returns the exit code. -/
def program (texts : List String) : IO UInt32 := do
  let isTerminal ← (← IO.getStdout).isTty
  match Arguments.parse texts with
  | .error stop => (Outcome.ofStop isTerminal stop).write
  | .ok arguments =>
    (runWith arguments isTerminal (← readText? arguments.manifest)).write

end Conformance.CommandLine

/-- Runs the program. -/
def main (texts : List String) : IO UInt32 :=
  Conformance.CommandLine.program texts
