import PointsTo.Context.Selector
import PointsTo.Json.Decode
import PointsTo.Json.Printer
import PointsTo.Json.Reader

/-!
# Analysis options

The choices of a run, which may be written as a JSON document. Every option has a default, and a
document may not hold anything else.
-/

namespace PointsTo

/-- The choices of a run. -/
structure Options where
  selector : Selector
  /-- The method to start from, instead of the entry of the program. -/
  entry : Option String
  /-- The arguments of the entry method are an array with an element. -/
  mockMainArgs : Bool
  deriving DecidableEq, Repr

namespace Options

instance : Inhabited Options := ⟨⟨.insensitive, none, false⟩⟩

def selector? (j : Json) : Option Selector := j.text? >>= Selector.parse?

def ofJson? (j : Json) : Option Options := do
  match ← Json.Record.ofJson? ["cs", "entry", "mock-main-args"] true j with
  | [cs, entry, mock] =>
    return ⟨← Json.optional? .insensitive selector? cs,
      ← Json.optional? none (Json.nullable? Json.text?) entry,
      ← Json.optional? false Json.bool? mock⟩
  | _ => none

def parse? (s : String) : Option Options := Json.parse? s >>= ofJson?

def toJson (o : Options) : Json :=
  Json.record [
    ("cs", Json.str o.selector.text),
    ("entry", o.entry.elim Json.null Json.str),
    ("mock-main-args", Json.bool o.mockMainArgs)]

def text (o : Options) : String := o.toJson.compress

end Options

end PointsTo
