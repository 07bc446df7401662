import Linewise.CommandLine.Run

/-!
# The program

Reads the files that the arguments name, and prints what comes of them.
-/

namespace Linewise

/-- The content of a file, if it can be read. -/
def contentOf (file : String) : IO (Option ByteArray) := do
  try return some (← IO.FS.readBinFile file) catch _ => return none

end Linewise

open Linewise

/-- The program: prints what its arguments ask for, and ends with a status that tells how that went. -/
def main (arguments : List String) : IO UInt32 := do
  let files := ((CommandLine.invocation? arguments).map (·.files)).getD []
  let contents ← files.mapM fun file => return (file, ← contentOf file)
  let outcome := CommandLine.run (fun file => (List.lookup file contents).join) arguments
  IO.print outcome.output
  return UInt32.ofNat outcome.status
