import PointsTo.Collection.Family
import PointsTo.Context.Element
import PointsTo.Program.Definition

/-!
# The context-sensitive call graph

Which methods are reachable, in which contexts, and which call sites call them. Everything is kept in
the order in which it was discovered, and nothing is there twice. The edges of a call site and the edges
to a method are kept apart as well, and are always those that the list of all edges has.
-/

namespace PointsTo

/-- A call from a call site to a method. -/
structure CallEdge where
  kind : CallKind
  callSite : CsCallSiteId
  callee : CsMethodId
  deriving DecidableEq, Repr

/-- A call edge as text: `virtual cscs0 -> csm1`. -/
def CallEdge.text (e : CallEdge) : String :=
  e.kind.text ++ " " ++ e.callSite.text ++ " -> " ++ e.callee.text

/-- A context-sensitive call graph. -/
structure CsCallGraph where
  entries : Array CsMethodId
  /-- Reachable methods, in the order in which they were discovered. -/
  reachable : Array CsMethodId
  /-- Edges, in the order in which they were discovered. -/
  edges : Array CallEdge
  /-- The edges of each call site. -/
  calls : Family (Array CallEdge)
  /-- The edges to each method. -/
  callers : Family (Array CallEdge)
  /-- The call sites in the body of each method. -/
  callSites : Family (Array CsCallSiteId)
  calls_eq : ∀ i : Nat, (calls.get i).toList = edges.toList.filter (·.callSite.idx = i)
  callers_eq : ∀ i : Nat, (callers.get i).toList = edges.toList.filter (·.callee.idx = i)

namespace CsCallGraph

def empty : CsCallGraph where
  entries := #[]
  reachable := #[]
  edges := #[]
  calls := .empty
  callers := .empty
  callSites := .empty
  calls_eq i := by
    rw [Family.get_empty]
    rfl
  callers_eq i := by
    rw [Family.get_empty]
    rfl

instance : Inhabited CsCallGraph := ⟨empty⟩

def addEntry (g : CsCallGraph) (m : CsMethodId) : CsCallGraph :=
  if g.entries.contains m then g else { g with entries := g.entries.push m }

def isReachable (g : CsCallGraph) (m : CsMethodId) : Bool := g.reachable.contains m

def addReachable (g : CsCallGraph) (m : CsMethodId) : CsCallGraph :=
  if g.isReachable m then g else { g with reachable := g.reachable.push m }

def edgesOutOf (g : CsCallGraph) (s : CsCallSiteId) : Array CallEdge := g.calls.get s.idx

def edgesInto (g : CsCallGraph) (m : CsMethodId) : List CallEdge := (g.callers.get m.idx).toList

/-- The call site calls the method already, by a call of whatever kind. -/
def hasEdge (g : CsCallGraph) (e : CallEdge) : Bool :=
  (g.edgesOutOf e.callSite).any (·.callee = e.callee)

/-- Adding an edge under its key keeps an index exact. -/
theorem toList_get_update {edges : Array CallEdge} {index : Family (Array CallEdge)}
    {key : CallEdge → Nat} (h : ∀ i, (index.get i).toList = edges.toList.filter (key · = i))
    (e : CallEdge) (i : Nat) : ((index.update (key e) (·.push e)).get i).toList =
      (edges.push e).toList.filter (key · = i) := by
  rw [Family.get_update, Array.toList_push, List.filter_append]
  split
  · rename_i hi
    subst hi
    simp [h]
  · rename_i hi
    simp [h, Ne.symm hi]

def addEdge (g : CsCallGraph) (e : CallEdge) : CsCallGraph :=
  if g.hasEdge e then g
  else { g with
    edges := g.edges.push e
    calls := g.calls.update e.callSite.idx (·.push e)
    callers := g.callers.update e.callee.idx (·.push e)
    calls_eq := toList_get_update g.calls_eq e
    callers_eq := toList_get_update g.callers_eq e }

def callSitesIn (g : CsCallGraph) (m : CsMethodId) : Array CsCallSiteId := g.callSites.get m.idx

def addCallSite (g : CsCallGraph) (m : CsMethodId) (s : CsCallSiteId) : CsCallGraph :=
  { g with callSites := g.callSites.update m.idx (·.push s) }

end CsCallGraph

end PointsTo
