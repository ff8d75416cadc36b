import PointsTo.Context.Basic

/-!
# Context-sensitive elements

Variables, objects, call sites and methods of a program, each qualified by a context, and the pointers,
which are the places that hold objects. Identifiers are positions in the tables of the analysis and are
shown counted from zero.
-/

namespace PointsTo

/-- A pointer, by its position in the table of pointers. -/
structure PointerId where
  idx : Nat
  deriving DecidableEq, Repr, Inhabited

/-- A context-sensitive object, by its position in the table of objects. -/
structure CsObjectId where
  idx : Nat
  deriving DecidableEq, Repr, Inhabited

/-- No object is listed twice in the order of identifiers. -/
theorem CsObjectId.nodup_of_sorted {os : List CsObjectId} (h : os.Pairwise (·.idx < ·.idx)) :
    os.Nodup :=
  h.imp fun hlt heq => Nat.ne_of_lt hlt (congrArg idx heq)

/-- A context-sensitive call site, by its position in the table of call sites. -/
structure CsCallSiteId where
  idx : Nat
  deriving DecidableEq, Repr, Inhabited

/-- A context-sensitive method, by its position in the table of methods. -/
structure CsMethodId where
  idx : Nat
  deriving DecidableEq, Repr, Inhabited

/-- The identifier as it is shown: `p0` for the first pointer. -/
def PointerId.text (p : PointerId) : String := "p" ++ toString p.idx

def CsObjectId.text (o : CsObjectId) : String := "cso" ++ toString o.idx

def CsCallSiteId.text (s : CsCallSiteId) : String := "cscs" ++ toString s.idx

def CsMethodId.text (m : CsMethodId) : String := "csm" ++ toString m.idx

/-- An abstract object in a heap context. -/
structure CsObject where
  context : Context
  object : ObjectId
  /-- The class of the method that allocates the object. -/
  container : ClassId
  deriving DecidableEq, Repr, Inhabited

/-- A call site in a context of its method. -/
structure CsCallSite where
  context : Context
  stmt : StmtId
  deriving DecidableEq, Repr, Inhabited

/-- A method in a context. -/
structure CsMethod where
  context : Context
  method : MethodId
  deriving DecidableEq, Repr, Inhabited

/-- A place that holds objects. -/
inductive Pointer where
  /-- A variable in a context of its method. -/
  | var (context : Context) (v : VarId)
  /-- A static field, which has no context. -/
  | staticField (f : FieldId)
  | instanceField (base : CsObjectId) (f : FieldId)
  /-- The elements of an array, taken together. -/
  | arrayIndex (base : CsObjectId)
  deriving DecidableEq, Repr

instance : Inhabited Pointer := ⟨.staticField default⟩

end PointsTo
