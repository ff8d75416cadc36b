import PointsTo.Descriptor.Member
import PointsTo.Program.Definition
import PointsTo.Program.Ids

/-!
# Programs

A loaded program is a set of tables, one for each kind of part. References between parts are
identifiers, that is positions in the tables. Variables index the statements that use them as a base,
because those are the statements whose effect depends on the objects that the variable points to.
-/

namespace PointsTo

/-- How a class inherits from a parent. -/
inductive LinkKind where
  | extends
  | implements
  deriving DecidableEq, Repr

/-- A direct inheritance link, from a class to a parent. -/
structure Link where
  child : ClassId
  parent : ClassId
  kind : LinkKind
  deriving DecidableEq, Repr

/-- A class, an interface, or a phantom class, which is referenced but not defined. -/
structure Class where
  name : String
  isDefined : Bool
  isInterface : Bool
  isAbstract : Bool
  /-- Declared methods, in the order of their subsignatures. -/
  methods : List (Subsignature × MethodId)
  /-- Declared fields, in the order of their names. -/
  fields : List (String × FieldId)
  deriving DecidableEq, Repr, Inhabited

/-- A declared field. -/
structure Field where
  owner : ClassId
  className : String
  name : String
  type : Ty
  isStatic : Bool
  deriving DecidableEq, Repr, Inhabited

/-- A field as text: `LA;->f:I`. -/
def Field.text (f : Field) : String :=
  FieldRef.text ⟨f.className, f.name⟩ ++ ":" ++ f.type.descriptor

/-- Variables and statements of a method with an implementation. -/
structure Body where
  /-- The receiver of an instance method. -/
  this? : Option VarId
  params : List VarId
  /-- Variables whose values may be returned, each once. -/
  returns : List VarId
  /-- All variables: the receiver, the parameters and the locals. -/
  vars : List VarId
  stmts : List StmtId
  deriving DecidableEq, Repr, Inhabited

/-- A declared method. -/
structure Method where
  owner : ClassId
  ref : MethodRef
  isStatic : Bool
  isAbstract : Bool
  isNative : Bool
  /-- The implementation, absent for abstract and native methods. -/
  body? : Option Body
  deriving DecidableEq, Repr, Inhabited

/-- A variable of a method. -/
structure Var where
  method : MethodId
  name : String
  type : Ty
  /-- Stores to a field of the objects of the variable. -/
  storeFields : List StmtId
  /-- Loads of a field of the objects of the variable. -/
  loadFields : List StmtId
  /-- Stores to the elements of the arrays of the variable. -/
  storeArrays : List StmtId
  /-- Loads of the elements of the arrays of the variable. -/
  loadArrays : List StmtId
  /-- Calls whose receiver is the variable. -/
  invokes : List StmtId
  deriving DecidableEq, Repr, Inhabited

/-- How a call is bound: a static call has no receiver, every other call has one. -/
inductive Binding where
  | static
  | special (base : VarId)
  | virtual (base : VarId)
  | interface (base : VarId)
  deriving DecidableEq, Repr

namespace Binding

def kind : Binding → CallKind
  | static => .static
  | special _ => .special
  | virtual _ => .virtual
  | interface _ => .interface

/-- The receiver of the call. -/
def base? : Binding → Option VarId
  | static => none
  | special base => some base
  | virtual base => some base
  | interface base => some base

end Binding

/-- A call. -/
structure Invoke where
  binding : Binding
  target : MethodRef
  args : List VarId
  /-- The variable that receives the returned value. -/
  result? : Option VarId
  deriving DecidableEq, Repr

/-- What a statement does. -/
inductive StmtKind where
  /-- `lhs = new type` -/
  | new (lhs : VarId) (type : Ty)
  /-- `lhs = rhs` -/
  | copy (lhs rhs : VarId)
  /-- `base.field = rhs` -/
  | instanceStore (base : VarId) (field : FieldId) (rhs : VarId)
  /-- `lhs = base.field` -/
  | instanceLoad (lhs base : VarId) (field : FieldId)
  /-- `field = rhs`, for a static field -/
  | staticStore (field : FieldId) (rhs : VarId)
  /-- `lhs = field`, for a static field -/
  | staticLoad (lhs : VarId) (field : FieldId)
  /-- `base[*] = rhs` -/
  | arrayStore (base rhs : VarId)
  /-- `lhs = base[*]` -/
  | arrayLoad (lhs base : VarId)
  | invoke (call : Invoke)
  | ret (value : Option VarId)
  deriving DecidableEq, Repr

instance : Inhabited StmtKind := ⟨.ret none⟩

/-- A statement. -/
structure Stmt where
  method : MethodId
  /-- Position in the body of the method. -/
  index : Nat
  kind : StmtKind
  deriving DecidableEq, Repr, Inhabited

/-- The call that the statement makes. -/
def Stmt.invoke? (s : Stmt) : Option Invoke :=
  match s.kind with
  | .invoke call => some call
  | _ => none

/-- A loaded program. -/
structure Program where
  classes : Array Class
  fields : Array Field
  methods : Array Method
  vars : Array Var
  stmts : Array Stmt
  /-- Direct inheritance links, in the order in which they were made. -/
  links : Array Link
  entry? : Option MethodId
  deriving DecidableEq, Repr, Inhabited

/-- The class at the root of the hierarchy. -/
def rootClassName : String := "java/lang/Object"

namespace Program

def empty : Program := ⟨#[], #[], #[], #[], #[], #[], none⟩

def classAt (p : Program) (c : ClassId) : Class := p.classes.getD c.idx default

def fieldAt (p : Program) (f : FieldId) : Field := p.fields.getD f.idx default

def methodAt (p : Program) (m : MethodId) : Method := p.methods.getD m.idx default

def varAt (p : Program) (v : VarId) : Var := p.vars.getD v.idx default

def stmtAt (p : Program) (s : StmtId) : Stmt := p.stmts.getD s.idx default

/-- Identifiers of all classes, in order. -/
def classIds (p : Program) : List ClassId := (List.range p.classes.size).map ClassId.mk

def fieldIds (p : Program) : List FieldId := (List.range p.fields.size).map FieldId.mk

def methodIds (p : Program) : List MethodId := (List.range p.methods.size).map MethodId.mk

def varIds (p : Program) : List VarId := (List.range p.vars.size).map VarId.mk

def stmtIds (p : Program) : List StmtId := (List.range p.stmts.size).map StmtId.mk

def findClass? (p : Program) (name : String) : Option ClassId :=
  (p.classes.findIdx? (·.name = name)).map ClassId.mk

/-- The method with a subsignature that this very class declares. -/
def declared? (p : Program) (c : ClassId) (s : Subsignature) : Option MethodId :=
  (p.classAt c).methods.lookup s

/-- The field of a name that this very class declares. -/
def declaredField? (p : Program) (c : ClassId) (name : String) : Option FieldId :=
  (p.classAt c).fields.lookup name

/-- The method that is declared in exactly the class that the reference names. -/
def findMethod? (p : Program) (r : MethodRef) : Option MethodId := do
  let c ← p.findClass? r.className
  p.declared? c r.subsignature

/-- Names of the phantom classes. -/
def missingClasses (p : Program) : List String :=
  (p.classes.toList.filter (!·.isDefined)).map (·.name)

def methodText (p : Program) (m : MethodId) : String := (p.methodAt m).ref.text

def fieldText (p : Program) (f : FieldId) : String := (p.fieldAt f).text

/-- A variable as text: its method, a slash and its name. -/
def varText (p : Program) (v : VarId) : String :=
  p.methodText (p.varAt v).method ++ "/" ++ (p.varAt v).name

/-- The position of a statement as text: its method, an at sign and its index. -/
def stmtText (p : Program) (s : StmtId) : String :=
  p.methodText (p.stmtAt s).method ++ "@" ++ toString (p.stmtAt s).index

end Program

end PointsTo
