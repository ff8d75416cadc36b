import PointsTo.Collection.Reach
import PointsTo.Program.Basic

/-!
# The class hierarchy

Inheritance links form a graph from classes to their parents, which is acyclic in every loaded
program. The closures of the graph are searches over all classes.
-/

namespace PointsTo

namespace Program

/-- The class is a node of the graph, whose nodes are the classes of the table. -/
def isNode (p : Program) (c : ClassId) : Bool := c.idx < p.classes.size

/-- Links that start at a class, in the order in which they were made. -/
def linksOf (p : Program) (c : ClassId) : List Link :=
  p.links.toList.filter (·.child = c)

def superclass? (p : Program) (c : ClassId) : Option ClassId :=
  (p.links.toList.find? fun l => l.child = c ∧ l.kind = .extends).map (·.parent)

/-- Interfaces that the class implements directly (or extends, for an interface), in the order of
identifiers. -/
def interfaces (p : Program) (c : ClassId) : List ClassId :=
  (((p.linksOf c).filter (·.kind = .implements)).map (·.parent)).mergeSort
    fun a b => decide (a.idx ≤ b.idx)

def parents (p : Program) (c : ClassId) : List ClassId :=
  (p.linksOf c).map (·.parent)

/-- Direct children of a class, in the order of the links. -/
def children (p : Program) (c : ClassId) : List ClassId :=
  (p.links.toList.filter (·.parent = c)).map (·.child)

/-- The set of classes in a list, in the order of identifiers. -/
def classSet (p : Program) (cs : List ClassId) : List ClassId :=
  p.classIds.filter (· ∈ cs)

/-- Classes and interfaces that inherit directly from a class, in the order of identifiers. -/
def directSubtypes (p : Program) (c : ClassId) : List ClassId :=
  p.classSet (p.children c)

/-- Steps that suffice for a search from a class or from its direct relatives: each link is followed at
most once. -/
def searchBound (p : Program) : Nat := 2 * p.links.size + p.classes.size + 1

/-- A class and all its parents, in the order of identifiers. -/
def allParents (p : Program) (c : ClassId) : List ClassId :=
  p.classSet (reach p.parents p.searchBound p.classIds [c])

/-- A class and all its subtypes, in the order of identifiers. -/
def allSubtypes (p : Program) (c : ClassId) : List ClassId :=
  p.classSet (reach p.children p.searchBound p.classIds [c])

/-- A class is a subtype of itself and of all its parents. -/
def isSubtype (p : Program) (c d : ClassId) : Bool :=
  c = d || d ∈ p.allParents c

/-- Some path of links leads from the class back to itself. -/
def isOnCycle (p : Program) (c : ClassId) : Bool :=
  c ∈ reach p.parents p.searchBound p.classIds (p.parents c)

/-- Some class is its own proper ancestor. -/
def isCyclic (p : Program) : Bool := p.classIds.any p.isOnCycle

/-- A class, its superclass, the superclass of that one, and so on, `fuel` classes at most. -/
def superclassesFrom (p : Program) : (fuel : Nat) → Option ClassId → List ClassId
  | 0, _ => []
  | _, none => []
  | fuel + 1, some c => c :: p.superclassesFrom fuel (p.superclass? c)

/-- A class and its superclasses, from the class up. An acyclic hierarchy has no longer chain than it
has classes. -/
def superclassChain (p : Program) (c : ClassId) : List ClassId :=
  p.superclassesFrom p.classes.size (some c)

end Program

end PointsTo
