import PointsTo.Collection.Queue
import PointsTo.Context.Elements
import PointsTo.Heap
import PointsTo.Log
import PointsTo.Solver.CallEdges
import PointsTo.Solver.FlowGraph

/-!
# States of the solver

What the solver knows at a moment of a run: the elements with their objects, the flow graph and the call
graph, and what is still to be done, namely the facts on the work list and the reachable methods that
were not visited yet.

The operations here are those of which every step is made. Pointers are given by what they are; an
operation looks up their identifiers, in a fixed order that shows in the numbering.
-/

namespace PointsTo

/-- A state of the solver. -/
structure State where
  heap : Heap
  elements : Elements
  flow : FlowGraph
  calls : CsCallGraph
  /-- Objects that are to be added to the objects of pointers. -/
  work : Queue (PointerId × ObjectSet)
  /-- Reachable methods whose statements are still to be visited. -/
  pending : Queue CsMethodId
  /-- Calls for which some receiver has no method, each once. -/
  unresolved : Array StmtId
  /-- Number of facts taken from the work list. -/
  processed : Nat
  log : Log
  /-- What the extensions noted. -/
  journal : Array String

namespace State

/-- The state before a run. -/
def initial : State :=
  ⟨.empty, .empty, .empty, .empty, .empty, .empty, #[], 0, #[], #[]⟩

instance : Inhabited State := ⟨initial⟩

def report (s : State) (severity : Severity) (text : String) : State :=
  { s with log := s.log.push ⟨severity, text⟩ }

def note (s : State) (event : String) : State :=
  { s with journal := s.journal.push event }

/-! ## Elements -/

def internPointer (s : State) (p : Pointer) : PointerId × State :=
  let (id, elements) := s.elements.internPointer p
  (id, { s with elements })

def internObject (s : State) (context : Context) (o : ObjectId) : CsObjectId × State :=
  let (id, elements) := s.elements.internObject ⟨context, o, (s.heap.get o).container⟩
  (id, { s with elements })

def internCallSite (s : State) (c : CsCallSite) : CsCallSiteId × State :=
  let (id, elements) := s.elements.internCallSite c
  (id, { s with elements })

def internMethod (s : State) (m : CsMethod) : CsMethodId × State :=
  let (id, elements) := s.elements.internMethod m
  (id, { s with elements })

def mock (s : State) (description : String) (type : Ty) (container : ClassId) :
    ObjectId × State :=
  let (id, heap) := s.heap.mock description type container
  (id, { s with heap })

def allocate (s : State) (model : HeapModel) (p : Program) (stmt : StmtId) (type : Ty) :
    ObjectId × State :=
  let (id, heap) := s.heap.allocate model p stmt type
  (id, { s with heap })

/-! ## Facts and flow -/

/-- Puts objects for a pointer on the work list. -/
def push (s : State) (p : PointerId) (objects : ObjectSet) : State :=
  { s with work := s.work.push (p, objects) }

/-- Puts objects from outside of the program on the work list. -/
def inject (s : State) (p : PointerId) (objects : ObjectSet) : State :=
  (s.report .trace ("injecting " ++ toString objects.size ++ " objects to " ++ p.text)).push p
    objects

/-- Adds a flow edge. If it is new, the objects of its source are put on the work list for its
target. -/
def addFlow (s : State) (source target : PointerId) : State :=
  if s.flow.hasEdge source target then s
  else
    let objects := s.elements.pointsTo source
    let s := { s with flow := s.flow.addEdge source target }
    if objects.isEmpty then s else s.push target objects

/-- Adds a flow edge; the source is looked up first. -/
def connect (s : State) (source target : Pointer) : State :=
  let (i, s) := s.internPointer source
  let (j, s) := s.internPointer target
  s.addFlow i j

/-- Adds a flow edge; the target is looked up first. -/
def connectInto (s : State) (target source : Pointer) : State :=
  let (j, s) := s.internPointer target
  let (i, s) := s.internPointer source
  s.addFlow i j

/-- Puts an object for a pointer on the work list. -/
def assign (s : State) (p : Pointer) (o : CsObjectId) : State :=
  let (i, s) := s.internPointer p
  s.push i (.singleton o)

/-- Adds objects to those of a pointer, and puts them on the work list for its successors. -/
def propagate (s : State) (p : PointerId) (objects : ObjectSet) : State :=
  let s := { s with elements := s.elements.addObjects p objects }
  (s.flow.successors p).foldl (fun s q => s.push q objects) s

/-! ## Calls -/

/-- Makes a method reachable. If it is new, its statements are to be visited. -/
def reachMethod (s : State) (m : CsMethodId) : State :=
  if s.calls.isReachable m then s
  else { s with calls := s.calls.addReachable m, pending := s.pending.push m }

/-- Records that a call has no method for some receiver. -/
def markUnresolved (s : State) (c : StmtId) : State :=
  if s.unresolved.contains c then s else { s with unresolved := s.unresolved.push c }

end State

end PointsTo
