import PointsTo.Program.Error

/-!
# Errors of the analysis

Why a run has no result.
-/

namespace PointsTo

/-- Why an analysis is refused. Methods and statements are given as texts. -/
inductive AnalysisError where
  | missingEntryPoint (reason : String)
  | unresolvedStaticCallee (callSite callee : String)
  | invalidSelector (text : String)
  /-- The text is no options document. -/
  | invalidOptions
  | program (e : LoadError)
  | notAnAllocation (stmt : String)
  /-- The run was stopped before its end, because the extensions kept it going. -/
  | budgetExhausted
  deriving DecidableEq, Repr

namespace AnalysisError

def message : AnalysisError → String
  | missingEntryPoint reason => "no entry point: " ++ reason
  | unresolvedStaticCallee callSite callee =>
    "cannot resolve callee " ++ callee ++ " of statically bound call at " ++ callSite
  | invalidSelector text =>
    "invalid context sensitivity '" ++ text
      ++ "' (expected 'ci', '<k>-call', '<k>-obj' or '<k>-type' with k > 0)"
  | invalidOptions => "options error"
  | program e => "program error: " ++ e.message
  | notAnAllocation stmt => "internal error: " ++ stmt ++ " is not an allocation"
  | budgetExhausted => "internal error: the analysis was stopped before its end"

end AnalysisError

end PointsTo
