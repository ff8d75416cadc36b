import PointsTo.Collection.Family
import PointsTo.Context.Element

/-!
# The pointer flow graph

An edge from one pointer to another says that the objects of the first flow into the second.
-/

namespace PointsTo

/-- The targets of the edges of each pointer, in the order in which the edges were added. -/
structure FlowGraph where
  targets : Family (Array PointerId)

namespace FlowGraph

def empty : FlowGraph := ⟨.empty⟩

instance : Inhabited FlowGraph := ⟨empty⟩

/-- Pointers into which the objects of a pointer flow. -/
def successors (g : FlowGraph) (p : PointerId) : Array PointerId := g.targets.get p.idx

def hasEdge (g : FlowGraph) (source target : PointerId) : Bool :=
  (g.successors source).contains target

/-- Adds an edge, at the end of those of its source. -/
def addEdge (g : FlowGraph) (source target : PointerId) : FlowGraph :=
  if g.hasEdge source target then g else ⟨g.targets.update source.idx (·.push target)⟩

def edges (g : FlowGraph) : List (PointerId × PointerId) :=
  g.targets.stored.toList.zipIdx.flatMap fun (row, i) => row.toList.map fun q => (⟨i⟩, q)

def edgeCount (g : FlowGraph) : Nat :=
  g.targets.stored.foldl (fun n row => n + row.size) 0

/-- Number of pointers at either end of an edge. -/
def pointerCount (g : FlowGraph) : Nat :=
  (g.edges.flatMap fun e => [e.1, e.2]).eraseDups.length

end FlowGraph

end PointsTo
