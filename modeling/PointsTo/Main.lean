import PointsTo.Command.Tool

/-!
# The command line program

Runs the suite of tools on the files of the machine. Results go to the standard output, and the log and
errors to the standard error.
-/

namespace PointsTo.Command

def readFile (path : String) : IO FileContent := do
  match ← (IO.FS.readFile path).toBaseIO with
  | .ok s => return .text s
  | .error (.noFileOrDirectory _ _ _) => return .missing
  | .error (.permissionDenied _ _ _) => return .missing
  | .error _ => return .unreadable

/-- Writes a file; the answer tells whether that was possible. -/
def tryWriteFile (path content : String) : IO Bool := do
  match ← (IO.FS.writeFile path content).toBaseIO with
  | .ok _ => return true
  | .error _ => return false

/-- The files and the terminal of the machine. -/
def machineHost : Host IO := ⟨readFile, tryWriteFile, IO.print, IO.eprintln⟩

def helpText : String :=
  "Commands: " ++ String.intercalate ", " commandNames

/-- Tells how a command ended, and gives its exit code. -/
def conclude (e : Ending) : IO UInt32 := do
  match e with
  | .done => pure ()
  | .shown => IO.println helpText
  | .misused => IO.eprintln "error: wrong arguments"
  | .failed error => IO.eprintln ("Error: " ++ error.message)
  return UInt32.ofNat e.exitCode

end PointsTo.Command

/-- Runs the suite of tools. -/
def main (args : List String) : IO UInt32 := do
  PointsTo.Command.conclude (← PointsTo.Command.runSuite PointsTo.Command.machineHost args)
