import PointsTo.Collection.BitRow
import PointsTo.Context.Element

/-!
# Sets of objects in rows of bits

A set of context-sensitive objects is stored in a row of bits, where the bit at a position says
whether the object of that number is in the set. Rows are made longer only where a bit beyond their end
has to be set, so the same objects may be stored in rows of different lengths. Operations that set bits
have no result if the row turns out too short.
-/

namespace PointsTo

/-- A finite set of context-sensitive objects, in a row of bits. -/
structure StoredSet (R : Type) where
  row : R

namespace StoredSet

variable {R : Type} [BitRow R]

def empty : StoredSet R := ⟨BitRow.empty⟩

def contains (s : StoredSet R) (o : CsObjectId) : Bool := BitRow.test s.row o.idx

/-- Adds an object, and says whether it is new. The row gets a place for the object if it has none. -/
def insert? (s : StoredSet R) (o : CsObjectId) : Option (Bool × StoredSet R) :=
  (BitRow.put? (BitRow.atLeast s.row (o.idx + 1)) o.idx).map fun (was, row) => (!was, ⟨row⟩)

def singleton? (o : CsObjectId) : Option (StoredSet R) := (empty.insert? o).map (·.2)

def ofList? (os : List CsObjectId) : Option (StoredSet R) :=
  os.foldlM (fun s o => (s.insert? o).map (·.2)) empty

def isEmpty (s : StoredSet R) : Bool := (BitRow.ones s.row).isEmpty

def size (s : StoredSet R) : Nat := BitRow.count s.row

/-- The objects of the set, in increasing order. -/
def toList (s : StoredSet R) : List CsObjectId := (BitRow.ones s.row).map CsObjectId.mk

/-- Objects of the first set that are not in the second. The row is as long as that of the first set. -/
def difference? (s t : StoredSet R) : Option (StoredSet R) :=
  ((BitRow.difference s.row t.row).foldlM BitRow.set? (BitRow.zeros (BitRow.length s.row))).map mk

/-- Objects of either set. The row is as long as the longer one. -/
def union (s t : StoredSet R) : StoredSet R :=
  ⟨BitRow.union (BitRow.atLeast s.row (BitRow.length t.row)) t.row⟩

def isSubset (s t : StoredSet R) : Bool := BitRow.isSubset s.row t.row

/-- Sets are the same if each is a part of the other one. -/
instance : BEq (StoredSet R) := ⟨fun s t => s.isSubset t && t.isSubset s⟩

end StoredSet

end PointsTo
