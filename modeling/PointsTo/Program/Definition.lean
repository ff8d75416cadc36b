/-!
# Program definitions

A program as it is described in a document: names and descriptors are still texts, and nothing has
been resolved.
-/

namespace PointsTo

/-- How the target of a call is bound, in the order in which kinds are listed. -/
inductive CallKind where
  | static
  | special
  | virtual
  | interface
  deriving DecidableEq, Repr

namespace CallKind

def text : CallKind → String
  | static => "static"
  | special => "special"
  | virtual => "virtual"
  | interface => "interface"

def ofText? : String → Option CallKind
  | "static" => some static
  | "special" => some special
  | "virtual" => some virtual
  | "interface" => some interface
  | _ => none

def rank : CallKind → Nat
  | static => 0
  | special => 1
  | virtual => 2
  | interface => 3

/-- The call is bound without looking at the receiver. -/
def isStaticallyBound : CallKind → Bool
  | static => true
  | special => true
  | _ => false

end CallKind

/-- A parameter or a local variable: a name and a type descriptor. -/
structure VarDef where
  name : String
  type : String
  deriving DecidableEq, Repr

structure FieldDef where
  name : String
  type : String
  isStatic : Bool
  deriving DecidableEq, Repr

/-- A statement. A field access without a base is an access to a static field. -/
inductive StmtDef where
  | new (lhs type : String)
  | copy (lhs rhs : String)
  | storeField (base : Option String) (field rhs : String)
  | loadField (lhs : String) (base : Option String) (field : String)
  | storeArray (base rhs : String)
  | loadArray (lhs base : String)
  | invoke (kind : CallKind) (base : Option String) (method : String) (args : List String)
      (result : Option String)
  | ret (value : Option String)
  deriving DecidableEq, Repr

structure MethodDef where
  name : String
  params : List VarDef
  result : String
  isStatic : Bool
  isAbstract : Bool
  isNative : Bool
  locals : List VarDef
  body : List StmtDef
  deriving DecidableEq, Repr

/-- A class or an interface. -/
structure ClassDef where
  name : String
  superclass : Option String
  interfaces : List String
  isInterface : Bool
  isAbstract : Bool
  fields : List FieldDef
  methods : List MethodDef
  deriving DecidableEq, Repr

structure ProgramDef where
  entry : Option String
  classes : List ClassDef
  deriving DecidableEq, Repr

end PointsTo
