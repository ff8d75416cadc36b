import PointsTo.Proofs.Program.Linking
import Mathlib.Logic.Relation

/-! # Valid definitions

What a definition has to satisfy to be a program, said of its names and texts alone: nothing here refers
to tables or to the order in which a program is built. A class without parents inherits from the root. A
field is looked for in a class and its superclasses, then in the interfaces above the class, in the order
in which they are defined.
-/

namespace PointsTo

open Relation (ReflTransGen TransGen)

/-- The text is a type descriptor. -/
def IsType (text : String) : Prop := ∃ t, Ty.parse text = .ok t

/-! ## Names -/

/-- The variables that a statement names. -/
def StmtDef.vars : StmtDef → List String
  | .new lhs _ => [lhs]
  | .copy lhs rhs => [lhs, rhs]
  | .storeField base _ rhs => base.toList ++ [rhs]
  | .loadField lhs base _ => lhs :: base.toList
  | .storeArray base rhs => [base, rhs]
  | .loadArray lhs base => [lhs, base]
  | .invoke _ base _ args result => base.toList ++ args ++ result.toList
  | .ret value => value.toList

namespace MethodDef

/-- The subsignature, if all its types can be read. -/
def subsignature? (m : MethodDef) : Option Subsignature := do
  let params ← m.params.mapM fun v => (Ty.parse v.type).toOption
  let result ← (Ty.parse m.result).toOption
  return ⟨m.name, params, result⟩

/-- The names of all variables: the receiver of an instance method, the parameters and the locals. -/
def scope (m : MethodDef) : List String :=
  (if m.isStatic then [] else ["this"]) ++ m.params.map (·.name) ++ m.locals.map (·.name)

/-- The method has no implementation, whatever its body is. -/
def isBodiless (m : MethodDef) : Bool := m.isAbstract || m.isNative

end MethodDef

namespace ClassDef

/-- The links to the parents that the class declares. -/
def links (c : ClassDef) : List (String × LinkKind) :=
  c.superclass.toList.map (·, .extends) ++ c.interfaces.map (·, .implements)

/-- The statements of all methods. -/
def stmts (c : ClassDef) : List StmtDef := c.methods.flatMap (·.body)

/-- The classes that the class refers to by declaring a parent or by allocating objects. -/
def mentions (c : ClassDef) : List String :=
  c.links.map (·.1) ++ c.stmts.filterMap Builder.mentioned?

end ClassDef

namespace ProgramDef

variable (d : ProgramDef)

/-! ## Inheritance -/

/-- The names of all classes: those that are defined, those that are referred to, and the root. -/
def names : List String :=
  d.classes.map (·.name) ++ d.classes.flatMap (·.mentions) ++ [rootClassName]

/-- The first class declares the second one as a parent. -/
def DeclaresParent (x y : String) : Prop :=
  ∃ c ∈ d.classes, c.name = x ∧ y ∈ c.links.map (·.1)

/-- The links that the class of a name declares. -/
def declaredLinks (x : String) : List (String × LinkKind) :=
  (d.classes.filter (·.name = x)).flatMap (·.links)

/-- The links that start at the class of a name: a class that declares no parent has a link to the
root. -/
def links (x : String) : List (String × LinkKind) :=
  if d.declaredLinks x = [] ∧ x ∈ d.names ∧ x ≠ rootClassName then [(rootClassName, .extends)]
  else d.declaredLinks x

/-- The second class is a parent of the first one. -/
def IsParent (x y : String) : Prop := y ∈ (d.links x).map (·.1)

/-- The second class is the first one or an ancestor of it. -/
def Inherits : String → String → Prop := ReflTransGen d.IsParent

/-- The direct superclass. -/
def superclass? (x : String) : Option String :=
  ((d.links x).find? (·.2 = .extends)).map (·.1)

/-! ## Members -/

/-- The field of a name that the class declares itself. -/
def declaredField? (x field : String) : Option FieldDef :=
  (d.classes.find? (·.name = x)).bind fun c => c.fields.find? (·.name = field)

/-- The field that the class declares itself, or that the nearest of its superclasses declares. -/
inductive FindsAbove (field : String) : String → FieldDef → Prop
  | here {x : String} {f : FieldDef} (found : d.declaredField? x field = some f) : FindsAbove field x f
  | above {x y : String} {f : FieldDef} (missing : d.declaredField? x field = none)
      (parent : d.superclass? x = some y) (found : FindsAbove field y f) : FindsAbove field x f

/-- An interface among the ancestors of a class declares the field. -/
def Inherited (field x : String) (c : ClassDef) (f : FieldDef) : Prop :=
  c.isInterface = true ∧ d.Inherits x c.name ∧ c.fields.find? (·.name = field) = some f

/-- The field that the first one of the interfaces above a class declares, in the order in which they
are defined. -/
def FindsInterface (field x : String) (f : FieldDef) : Prop :=
  ∃ (i : Nat) (c : ClassDef), d.classes[i]? = some c ∧ d.Inherited field x c f ∧
    ∀ (j : Nat) e, j < i → d.classes[j]? = some e → ∀ g, ¬d.Inherited field x e g

/-- The field that a reference names: that of the class or of a superclass, or else that of an
interface. -/
def ResolvesField (r : FieldRef) (f : FieldDef) : Prop :=
  r.className ∈ d.names ∧ (d.FindsAbove r.name r.className f ∨
    (∀ g, ¬d.FindsAbove r.name r.className g) ∧ d.FindsInterface r.name r.className f)

/-- The text refers to a field that is static or not, as it is said. -/
def AccessesField (ref : String) (isStatic : Bool) : Prop :=
  ∃ r f, FieldRef.parse ref = .ok r ∧ d.ResolvesField r f ∧ f.isStatic = isStatic

/-- Exactly the class that the reference names declares the method. -/
def DeclaresMethod (r : MethodRef) : Prop :=
  ∃ c ∈ d.classes, c.name = r.className ∧ some r.subsignature ∈ c.methods.map (·.subsignature?)

/-! ## Validity -/

/-- The references of a statement are right: objects are allocated of classes and arrays, fields are
accessed as they are declared, and a call has a receiver unless it is static. -/
def RightReferences : StmtDef → Prop
  | .new _ type => ∃ t, Ty.parse type = .ok t ∧ t.isReference = true
  | .storeField base field _ => d.AccessesField field base.isNone
  | .loadField _ base field => d.AccessesField field base.isNone
  | .invoke kind base method _ _ =>
    (∃ r, MethodRef.parse method = .ok r) ∧ (base.isSome = true ↔ kind ≠ .static)
  | _ => True

/-- The implementation of a method is right: its variables have different names and can be typed, and
its statements name no other variables. -/
structure RightBody (m : MethodDef) : Prop where
  names : m.scope.Nodup
  types : ∀ v ∈ m.locals, IsType v.type
  vars : ∀ s ∈ m.body, ∀ x ∈ s.vars, x ∈ m.scope
  references : ∀ s ∈ m.body, d.RightReferences s

end ProgramDef

/-- The members of a class can be typed, and they are told apart by their names and subsignatures. -/
structure ClassDef.RightMembers (c : ClassDef) : Prop where
  fieldTypes : ∀ f ∈ c.fields, IsType f.type
  fieldNames : (c.fields.map (·.name)).Nodup
  paramTypes : ∀ m ∈ c.methods, ∀ v ∈ m.params, IsType v.type
  resultTypes : ∀ m ∈ c.methods, IsType m.result
  subsignatures : (c.methods.map (·.subsignature?)).Nodup

/-- The definition is one of a program. -/
structure ProgramDef.Valid (d : ProgramDef) : Prop where
  classNames : (d.classes.map (·.name)).Nodup
  /-- No class is its own ancestor. -/
  acyclic : ∀ x, ¬TransGen d.DeclaresParent x x
  /-- The root has no parent. -/
  root : ∀ x, ¬d.DeclaresParent rootClassName x
  /-- The types of all objects can be read, also in bodies that are ignored. -/
  allocated : ∀ c ∈ d.classes, ∀ lhs type, StmtDef.new lhs type ∈ c.stmts → IsType type
  members : ∀ c ∈ d.classes, c.RightMembers
  bodies : ∀ c ∈ d.classes, ∀ m ∈ c.methods, m.isBodiless = false → d.RightBody m
  entry : ∀ e, d.entry = some e → ∃ r, MethodRef.parse e = .ok r ∧ d.DeclaresMethod r

end PointsTo
