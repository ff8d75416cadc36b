import PointsTo.Program.Lookup

/-!
# Remembered answers

A program remembers which method every class and subsignature led to, so that it does not look for the
same method twice. That there is no method is an answer as well. Static calls and the classes that types
name are looked up anew.
-/

namespace PointsTo

/-- What the classes and subsignatures that were asked for led to. -/
abbrev Memo := List ((ClassId × Subsignature) × Option MethodId)

namespace Memo

variable (p : Program)

def dispatch (c : ClassId) (s : Subsignature) : StateM Memo (Option MethodId) := fun memo =>
  match memo.lookup (c, s) with
  | some answer => (answer, memo)
  | none => (p.dispatch? c s, ((c, s), p.dispatch? c s) :: memo)

def resolveCallee (receiver : Option Ty) (call : Invoke) : StateM Memo (Option MethodId) :=
  match call.binding with
  | .static => pure (p.staticTarget? call.target)
  | .special _ =>
    match p.findClass? call.target.className with
    | none => pure none
    | some c => dispatch p c call.target.subsignature
  | .virtual _ | .interface _ =>
    match receiver.bind p.dispatchClass? with
    | none => pure none
    | some c => dispatch p c call.target.subsignature

def resolveAll (call : Invoke) : StateM Memo (List MethodId) :=
  match call.binding with
  | .static | .special _ => do return (← resolveCallee p none call).toList
  | .virtual _ | .interface _ =>
    match p.findClass? call.target.className with
    | none => pure []
    | some c => do
      let found ← ((p.allSubtypes c).filter p.isInstantiable).mapM fun d =>
        dispatch p d call.target.subsignature
      return p.methodSet (found.filterMap id)

end Memo

end PointsTo
