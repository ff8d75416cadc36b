/-!
# Identifiers of the parts of a program

Each part of a program has an identifier of its own type, which is its position in the table of its
kind. Identifiers are shown counted from one.
-/

namespace PointsTo

/-- A class, interface or phantom class. -/
structure ClassId where
  idx : Nat
  deriving DecidableEq, Repr, Inhabited

/-- A declared field. -/
structure FieldId where
  idx : Nat
  deriving DecidableEq, Repr, Inhabited

/-- A declared method. -/
structure MethodId where
  idx : Nat
  deriving DecidableEq, Repr, Inhabited

/-- A variable of a method. -/
structure VarId where
  idx : Nat
  deriving DecidableEq, Repr, Inhabited

/-- A statement of a method. -/
structure StmtId where
  idx : Nat
  deriving DecidableEq, Repr, Inhabited

/-- The identifier as it is shown: `c1` for the first class. -/
def ClassId.text (c : ClassId) : String := "c" ++ toString (c.idx + 1)

def FieldId.text (f : FieldId) : String := "f" ++ toString (f.idx + 1)

def MethodId.text (m : MethodId) : String := "m" ++ toString (m.idx + 1)

def VarId.text (v : VarId) : String := "v" ++ toString (v.idx + 1)

def StmtId.text (s : StmtId) : String := "s" ++ toString (s.idx + 1)

end PointsTo
