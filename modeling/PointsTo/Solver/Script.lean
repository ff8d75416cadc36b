import PointsTo.Solver.State

/-!
# Extensions

An extension is told what happens in a run and answers with a script: a finite course of actions, each
of which may depend on the state of the solver at that point. Scripts can look at the state, look up
identifiers, make mock objects, add facts and flow edges, and register further extensions; they cannot
do anything else to the state.
-/

namespace PointsTo

/-- What an extension is told. -/
inductive Notice where
  /-- The entry method is reachable, and the main part of the run is about to start. -/
  | started
  /-- The statements of a method were visited. -/
  | methodReached (m : CsMethodId)
  | callAdded (e : CallEdge)
  /-- A variable points to more objects. -/
  | objectsAdded (p : PointerId) (objects : ObjectSet)
  /-- Nothing is left to be done. Facts that are added now are ignored. -/
  | finished
  deriving DecidableEq, Repr

/-- A finite course of actions that ends with a value. The type `π` is that of the extensions. -/
inductive Script (π α : Type) where
  | done (a : α)
  /-- Looks at the state. -/
  | view (next : State → Script π α)
  | pointer (p : Pointer) (next : PointerId → Script π α)
  | object (context : Context) (o : ObjectId) (next : CsObjectId → Script π α)
  | callSite (s : CsCallSite) (next : CsCallSiteId → Script π α)
  | method (m : CsMethod) (next : CsMethodId → Script π α)
  | mock (description : String) (type : Ty) (container : ClassId) (next : ObjectId → Script π α)
  | inject (p : PointerId) (objects : ObjectSet) (next : Script π α)
  | flow (source target : PointerId) (next : Script π α)
  /-- Adds an extension, which takes part from the next notice on. -/
  | register (extension : π) (next : Script π α)
  | report (severity : Severity) (text : String) (next : Script π α)
  | note (event : String) (next : Script π α)

namespace Script

variable {π α β : Type}

/-- One script after another. -/
def bind : Script π α → (α → Script π β) → Script π β
  | done a, f => f a
  | view next, f => view fun s => (next s).bind f
  | pointer p next, f => pointer p fun i => (next i).bind f
  | object c o next, f => object c o fun i => (next i).bind f
  | callSite s next, f => callSite s fun i => (next i).bind f
  | method m next, f => method m fun i => (next i).bind f
  | mock d t c next, f => mock d t c fun o => (next o).bind f
  | inject p objects next, f => inject p objects (next.bind f)
  | flow source target next, f => flow source target (next.bind f)
  | register e next, f => register e (next.bind f)
  | report severity text next, f => report severity text (next.bind f)
  | note event next, f => note event (next.bind f)

instance : Monad (Script π) where
  pure := done
  bind := bind

/-- Carries out a script. The result is its value, the new state, and the extensions that were
registered after those given. -/
def run : Script π α → State → List π → α × State × List π
  | done a, s, arrivals => (a, s, arrivals)
  | view next, s, arrivals => (next s).run s arrivals
  | pointer p next, s, arrivals =>
    let (i, s) := s.internPointer p
    (next i).run s arrivals
  | object c o next, s, arrivals =>
    let (i, s) := s.internObject c o
    (next i).run s arrivals
  | callSite c next, s, arrivals =>
    let (i, s) := s.internCallSite c
    (next i).run s arrivals
  | method m next, s, arrivals =>
    let (i, s) := s.internMethod m
    (next i).run s arrivals
  | mock d t c next, s, arrivals =>
    let (o, s) := s.mock d t c
    (next o).run s arrivals
  | inject p objects next, s, arrivals => next.run (s.inject p objects) arrivals
  | flow source target next, s, arrivals => next.run (s.addFlow source target) arrivals
  | register e next, s, arrivals => next.run s (arrivals ++ [e])
  | report severity text next, s, arrivals => next.run (s.report severity text) arrivals
  | note event next, s, arrivals => next.run (s.note event) arrivals

end Script

/-- How extensions answer notices: the value of the script is the extension as it is afterwards. -/
abbrev Reaction (π : Type) := Notice → π → Script π π

end PointsTo
