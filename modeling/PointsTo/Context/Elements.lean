import PointsTo.Collection.Table
import PointsTo.ObjectSet

/-!
# Elements of an analysis

The tables of the context-sensitive elements that an analysis has met, with the objects of each
pointer. Structurally equal elements have the same identifier.
-/

namespace PointsTo

/-- Key of a pointer: the variable, field or object that it belongs to, and its kind. -/
def Pointer.key : Pointer → Nat
  | var _ v => 4 * v.idx
  | staticField f => 4 * f.idx + 1
  | instanceField base _ => 4 * base.idx + 2
  | arrayIndex base => 4 * base.idx + 3

def CsObject.key (o : CsObject) : Nat := o.object.idx

def CsCallSite.key (s : CsCallSite) : Nat := s.stmt.idx

def CsMethod.key (m : CsMethod) : Nat := m.method.idx

/-- The elements that an analysis has met. -/
structure Elements where
  pointers : Table Pointer Pointer.key
  /-- The objects of each pointer: one set for each pointer in the table. -/
  sets : Family ObjectSet
  objects : Table CsObject CsObject.key
  callSites : Table CsCallSite CsCallSite.key
  methods : Table CsMethod CsMethod.key

namespace Elements

def empty : Elements := ⟨.empty, .empty, .empty, .empty, .empty⟩

instance : Inhabited Elements := ⟨empty⟩

def pointer (e : Elements) (p : PointerId) : Pointer := e.pointers.get p.idx

def object (e : Elements) (o : CsObjectId) : CsObject := e.objects.get o.idx

def callSite (e : Elements) (s : CsCallSiteId) : CsCallSite := e.callSites.get s.idx

def method (e : Elements) (m : CsMethodId) : CsMethod := e.methods.get m.idx

/-- The objects that a pointer points to. -/
def pointsTo (e : Elements) (p : PointerId) : ObjectSet := e.sets.get p.idx

def addObjects (e : Elements) (p : PointerId) (s : ObjectSet) : Elements :=
  { e with sets := e.sets.update p.idx (·.union s) }

/-- The identifier of a pointer. A new pointer has no objects. -/
def internPointer (e : Elements) (p : Pointer) : PointerId × Elements :=
  let (i, pointers) := e.pointers.intern p
  (⟨i⟩, { e with pointers, sets := e.sets.grow pointers.size })

def internObject (e : Elements) (o : CsObject) : CsObjectId × Elements :=
  let (i, objects) := e.objects.intern o
  (⟨i⟩, { e with objects })

def internCallSite (e : Elements) (s : CsCallSite) : CsCallSiteId × Elements :=
  let (i, callSites) := e.callSites.intern s
  (⟨i⟩, { e with callSites })

def internMethod (e : Elements) (m : CsMethod) : CsMethodId × Elements :=
  let (i, methods) := e.methods.intern m
  (⟨i⟩, { e with methods })

/-- The identifier of a pointer that was met before. -/
def findPointer? (e : Elements) (p : Pointer) : Option PointerId :=
  (e.pointers.find? p).map PointerId.mk

def findObject? (e : Elements) (o : CsObject) : Option CsObjectId :=
  (e.objects.find? o).map CsObjectId.mk

def findCallSite? (e : Elements) (s : CsCallSite) : Option CsCallSiteId :=
  (e.callSites.find? s).map CsCallSiteId.mk

def findMethod? (e : Elements) (m : CsMethod) : Option CsMethodId :=
  (e.methods.find? m).map CsMethodId.mk

/-- The pointers of a variable, one for each context in which it was met. -/
def pointersOf (e : Elements) (v : VarId) : List PointerId :=
  (e.pointers.withKey (Pointer.var [] v).key).map PointerId.mk

/-- Identifiers of all pointers, in order. -/
def pointerIds (e : Elements) : List PointerId := (List.range e.pointers.size).map PointerId.mk

def objectIds (e : Elements) : List CsObjectId := (List.range e.objects.size).map CsObjectId.mk

@[simp] theorem pointsTo_internPointer (e : Elements) (p : Pointer) :
    (e.internPointer p).2.pointsTo = e.pointsTo :=
  funext fun _ => Family.get_grow _ _ _

/-- The objects of a pointer, which has none if it was never met. -/
def objectsOf (e : Elements) (p : Pointer) : ObjectSet :=
  (e.findPointer? p).elim .empty e.pointsTo

end Elements

end PointsTo
