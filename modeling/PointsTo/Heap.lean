import PointsTo.Context.Basic
import PointsTo.Program.Basic
import PointsTo.Solver.Error

/-!
# Abstract objects

The heap of an analysis holds the abstract objects in the order in which they were made. An object is
known by its origin, so the same origin always gives the same object.
-/

namespace PointsTo

/-- Where an abstract object comes from. -/
inductive Origin where
  /-- The objects that a statement allocates. -/
  | site (s : StmtId)
  /-- Objects that do not come from the program, by a description. -/
  | mock (description : String)
  deriving DecidableEq, Repr

/-- An abstract object. -/
structure Object where
  origin : Origin
  type : Ty
  /-- The method that allocates the object. -/
  method? : Option MethodId
  /-- The class of that method. -/
  container : ClassId
  deriving DecidableEq, Repr

instance : Inhabited Object := ⟨⟨.mock "", .void, none, ⟨0⟩⟩⟩

namespace Object

/-- The object does not come from the program. -/
def isMock (o : Object) : Bool :=
  match o.origin with
  | .site _ => false
  | .mock _ => true

def text (p : Program) (o : Object) : String :=
  match o.origin with
  | .site s => "new " ++ o.type.descriptor ++ " @ " ++ p.stmtText s
  | .mock description => "mock " ++ o.type.descriptor ++ " <" ++ description ++ ">"

end Object

/-- How allocations are told apart. -/
inductive HeapModel where
  /-- One object for each statement that allocates. -/
  | allocationSite
  /-- One object for each allocated type. -/
  | allocatedType
  deriving DecidableEq, Repr

/-- The abstract objects, in the order in which they were made. -/
structure Heap where
  objects : Array Object
  deriving DecidableEq, Repr

namespace Heap

def empty : Heap := ⟨#[]⟩

instance : Inhabited Heap := ⟨empty⟩

def get (h : Heap) (o : ObjectId) : Object := h.objects.getD o.idx default

/-- Identifiers of all objects, in order. -/
def ids (h : Heap) : List ObjectId := (List.range h.objects.size).map ObjectId.mk

/-- The object of an origin. -/
def find? (h : Heap) (origin : Origin) : Option ObjectId :=
  (h.objects.findIdx? (·.origin = origin)).map ObjectId.mk

/-- The object of an origin, which is made as given if there is none. -/
def intern (h : Heap) (o : Object) : ObjectId × Heap :=
  match h.find? o.origin with
  | some id => (id, h)
  | none => (⟨h.objects.size⟩, ⟨h.objects.push o⟩)

/-- The mock object of a description, which is made with the given type and container if there is
none. -/
def mock (h : Heap) (description : String) (type : Ty) (container : ClassId) : ObjectId × Heap :=
  h.intern ⟨.mock description, type, none, container⟩

/-- The object that stands for the allocations of a type by a statement. -/
def allocate (h : Heap) (model : HeapModel) (p : Program) (s : StmtId) (type : Ty) :
    ObjectId × Heap :=
  let method := (p.stmtAt s).method
  let container := (p.methodAt method).owner
  match model with
  | .allocationSite => h.intern ⟨.site s, type, some method, container⟩
  | .allocatedType => h.mock ("all " ++ type.descriptor) type container

/-- The object of a statement, which has to allocate. -/
def objectOf (h : Heap) (model : HeapModel) (p : Program) (s : StmtId) :
    Except AnalysisError (ObjectId × Heap) :=
  match (p.stmtAt s).kind with
  | .new _ type => .ok (h.allocate model p s type)
  | _ => .error (.notAnAllocation (p.stmtText s))

end Heap

end PointsTo
