import PointsTo.Solver.Error

/-!
# Errors of the command line tools

Why a tool failed after its arguments were accepted.
-/

namespace PointsTo.Command

/-- Why a tool failed. -/
inductive CommandError where
  | badArguments (reason : String)
  /-- A file cannot be read or written. -/
  | file (path : String)
  /-- A filter is no pattern. -/
  | pattern (text : String)
  | load (e : LoadError)
  | analysis (e : AnalysisError)
  deriving DecidableEq, Repr

namespace CommandError

def message : CommandError → String
  | badArguments reason => "bad arguments: " ++ reason
  | file path => "cannot access file: " ++ path
  | pattern text => "invalid pattern: " ++ text
  | load e => e.message
  | analysis e => e.message

/-- A descriptor was cut inside a character, from which there is no orderly way on. -/
def isAbort : CommandError → Bool
  | load (.descriptor .cutCharacter) => true
  | analysis (.program (.descriptor .cutCharacter)) => true
  | _ => false

end CommandError

end PointsTo.Command
