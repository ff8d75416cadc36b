import PointsTo.Solver.Checked
import PointsTo.Solver.Extension

/-!
# Sessions

A program is asked for methods, and analysed, as often as one likes. In a session all this is done on one
program, which remembers its answers from one question to the next.
-/

namespace PointsTo

/-- What may be asked of a program. -/
inductive Question where
  /-- The method that a call with the subsignature reaches on an object of the class. -/
  | dispatch (c : ClassId) (s : Subsignature)
  /-- The method that a call reaches when its receiver is an object of the given type. -/
  | callee (receiver : Option Ty) (call : Invoke)
  /-- Every method that a call may reach. -/
  | callees (call : Invoke)
  /-- The result of an analysis. -/
  | solution (o : Options) (sel : Selector) (model : HeapModel) (react : Reaction Extension)
    (extensions : List Extension)

/-- What a program answers. -/
inductive Answer where
  | callee (m : Option MethodId)
  | callees (ms : List MethodId)
  | solution (r : Except Failure Solution)

namespace Program

variable (p : Program)

/-- The answer to a question, of a program that remembers nothing. -/
def answer : Question → Answer
  | .dispatch c s => .callee (p.dispatch? c s)
  | .callee receiver call => .callee (p.resolveCallee? receiver call)
  | .callees call => .callees (p.resolveAll call)
  | .solution o sel model react extensions =>
    .solution ((Analysis.solve ⟨p, o, sel, model⟩ react extensions).result.mapError .refused)

/-- Asks a question. -/
def ask : Question → StateM Memo Answer
  | .dispatch c s => do return .callee (← Memo.dispatch p c s)
  | .callee receiver call => do return .callee (← Memo.resolveCallee p receiver call)
  | .callees call => do return .callees (← Memo.resolveAll p call)
  | .solution o sel model react extensions => do
    return .solution (← (Checked.solve ⟨p, o, sel, model⟩ react extensions).run)

/-- What is remembered after a session, which starts with nothing. -/
def remembered (session : List Question) : Memo :=
  session.foldl (fun memo q => (p.ask q memo).2) []

end Program

end PointsTo
