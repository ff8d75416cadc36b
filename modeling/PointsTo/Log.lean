/-!
# Log records

The loader and the solver report their progress as data: a list of records in the order in which
they were made, each with a severity and a finished text.
-/

namespace PointsTo

/-- Severity of a log record, the most severe first. -/
inductive Severity where
  | warn
  | info
  | debug
  | trace
  deriving DecidableEq, Repr

namespace Severity

/-- Rank of a severity: a smaller rank is more severe. -/
def rank : Severity → Nat
  | warn => 0
  | info => 1
  | debug => 2
  | trace => 3

/-- The severity as it is written in front of a record. -/
def label : Severity → String
  | warn => "WARN"
  | info => "INFO"
  | debug => "DEBUG"
  | trace => "TRACE"

end Severity

/-- One log record. -/
structure LogRecord where
  severity : Severity
  text : String
  deriving DecidableEq, Repr

namespace LogRecord

/-- A record is visible at a threshold if it is at least as severe. -/
def visibleAt (r : LogRecord) (threshold : Severity) : Bool :=
  r.severity.rank ≤ threshold.rank

/-- A record on one line: the severity, then the text. -/
def line (r : LogRecord) : String :=
  r.severity.label ++ " " ++ r.text

end LogRecord

/-- Log records in the order in which they were made. -/
abbrev Log := Array LogRecord

namespace Log

def linesAt (log : Log) (threshold : Severity) : List String :=
  (log.toList.filter (·.visibleAt threshold)).map (·.line)

end Log

end PointsTo
