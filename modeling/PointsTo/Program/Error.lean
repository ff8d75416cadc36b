import PointsTo.Descriptor.Error
import PointsTo.Program.Ids

/-!
# Errors of the loader

Why a document is no program.
-/

namespace PointsTo

/-- Why a change of the class hierarchy is refused. Definitions are built without such a change. -/
inductive HierarchyError where
  /-- The class is a node already. -/
  | duplicateNode
  | secondSuperclass (c : ClassId)
  /-- The class is no node. -/
  | classNotFound (c : ClassId)
  deriving DecidableEq, Repr

namespace HierarchyError

def message : HierarchyError → String
  | duplicateNode => "internal error: duplicate object in hierarchy graph"
  | secondSuperclass c => "internal error: class " ++ c.text ++ " already has a superclass"
  | classNotFound c => "class not found: " ++ c.text

end HierarchyError

/-- Why a program is refused. Methods and fields are given as texts. -/
inductive LoadError where
  /-- The text is no program document. -/
  | notADocument
  | descriptor (e : DescriptorError)
  | duplicateClass (name : String)
  | duplicateMethod (method : String)
  | duplicateField (field : String)
  | fieldNotFound (field : String)
  | methodNotFound (method : String)
  | duplicateVar (method var : String)
  | unknownVar (method var : String)
  | malformedStmt (method : String) (index : Nat) (reason : String)
  | hierarchy (e : HierarchyError)
  /-- Some class is its own ancestor. -/
  | cyclicHierarchy
  deriving DecidableEq, Repr

namespace LoadError

def message : LoadError → String
  | notADocument => "json error"
  | descriptor e => e.message
  | duplicateClass name => "class '" ++ name ++ "' is defined twice"
  | duplicateMethod method => "method '" ++ method ++ "' is declared twice"
  | duplicateField field => "field '" ++ field ++ "' is declared twice"
  | fieldNotFound field => "field not found: " ++ field
  | methodNotFound method => "method not found: " ++ method
  | duplicateVar method var => "variable '" ++ var ++ "' is declared twice in " ++ method
  | unknownVar method var => "unknown variable '" ++ var ++ "' in " ++ method
  | malformedStmt method index reason =>
    "malformed statement #" ++ toString index ++ " in " ++ method ++ ": " ++ reason
  | hierarchy e => e.message
  | cyclicHierarchy => "internal error: cyclic class hierarchy"

end LoadError

end PointsTo
