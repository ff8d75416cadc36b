import PointsTo.Solver.State

/-!
# Statistics

The sizes of what a run has found.
-/

namespace PointsTo

/-- Sizes of the structures of a run. -/
structure Statistics where
  reachableMethods : Nat
  reachableCsMethods : Nat
  callEdges : Nat
  pointers : Nat
  objects : Nat
  csObjects : Nat
  flowEdges : Nat
  processed : Nat
  /-- Calls for which some receiver has no method. -/
  unresolved : Nat
  deriving DecidableEq, Repr

namespace Statistics

/-- Sizes of the structures of a state. -/
def ofState (s : State) : Statistics where
  reachableMethods :=
    ((s.calls.reachable.toList.map fun m => (s.elements.method m).method).eraseDups).length
  reachableCsMethods := s.calls.reachable.size
  callEdges := s.calls.edges.size
  pointers := s.elements.pointers.size
  objects := s.heap.objects.size
  csObjects := s.elements.objects.size
  flowEdges := s.flow.edgeCount
  processed := s.processed
  unresolved := s.unresolved.size

def text (t : Statistics) : String :=
  String.intercalate "\n" [
    "reachable methods: " ++ toString t.reachableMethods,
    "reachable cs methods: " ++ toString t.reachableCsMethods,
    "call edges: " ++ toString t.callEdges,
    "pointers: " ++ toString t.pointers,
    "objects: " ++ toString t.objects ++ " (" ++ toString t.csObjects ++ " context-sensitive)",
    "pfg edges: " ++ toString t.flowEdges,
    "processed work-list entries: " ++ toString t.processed,
    "unresolved call sites: " ++ toString t.unresolved]

end Statistics

end PointsTo
