import PointsTo.Descriptor.Ty

/-!
# Member references

Methods and fields are named by texts such as `LA;->m(I)V` and `LA;->f`. A method reference names a
class and a subsignature, and the printed form of a reference reads back as the same reference
whenever its parts keep clear of the separators.
-/

namespace PointsTo

/-- Name, parameter types and return type of a method: what a call looks up in a class. -/
structure Subsignature where
  name : String
  params : List Ty
  result : Ty
  deriving DecidableEq, Repr, Inhabited

namespace Subsignature

/-- A subsignature as text: `m(I)V`. -/
def text (s : Subsignature) : String :=
  s.name ++ "(" ++ String.join (s.params.map (·.descriptor)) ++ ")" ++ s.result.descriptor

/-- Order of lists of types: lexicographic, a proper beginning first. -/
def compareParams : List Ty → List Ty → Ordering
  | [], [] => .eq
  | [], _ :: _ => .lt
  | _ :: _, [] => .gt
  | t :: ts, u :: us => (compare t u).then (compareParams ts us)

/-- Order of subsignatures: by name, then by parameter types, then by return type. -/
def compare (s t : Subsignature) : Ordering :=
  (Ord.compare s.name t.name).then
    ((compareParams s.params t.params).then (Ord.compare s.result t.result))

instance : Ord Subsignature := ⟨Subsignature.compare⟩

end Subsignature

/-- A method named by a class and a subsignature. The method may be declared by a parent of the
class. -/
structure MethodRef where
  className : String
  subsignature : Subsignature
  deriving DecidableEq, Repr, Inhabited

namespace MethodRef

/-- A method reference as text: `LA;->m(I)V`. -/
def text (r : MethodRef) : String :=
  "L" ++ r.className ++ ";->" ++ r.subsignature.text

/-- The parts of a method reference before they are read: class, name, parameters, result. -/
structure Parts where
  className : List Char
  name : List Char
  params : List Char
  result : List Char
  deriving DecidableEq, Repr

/-- Takes a class name, which is not empty, up to `;->`. -/
def splitClass? : List Char → Option (List Char × List Char)
  | 'L' :: cs =>
    match cs.takeWhile (· != ';'), cs.dropWhile (· != ';') with
    | [], _ => none
    | owner, ';' :: '-' :: '>' :: rest => some (owner, rest)
    | _, _ => none
  | _ => none

/-- Cuts a method reference at its separators. The class, the name and the result are not empty, and
the result has no line break. -/
def split? (cs : List Char) : Option Parts := do
  let (owner, cs) ← splitClass? cs
  let name := cs.takeWhile (· != '(')
  if name = [] then none
  match cs.dropWhile (· != '(') with
  | _ :: cs =>
    match cs.dropWhile (· != ')') with
    | _ :: result =>
      if result = [] ∨ '\n' ∈ result then none
      else some ⟨owner, name, cs.takeWhile (· != ')'), result⟩
    | [] => none
  | [] => none

def parse (s : String) : Except DescriptorError MethodRef :=
  match split? s.toList with
  | none => .error (.badMethodRef s)
  | some parts => do
    let params ← Ty.parseList (String.ofList parts.params)
    let result ← Ty.parse (String.ofList parts.result)
    return ⟨String.ofList parts.className, ⟨String.ofList parts.name, params, result⟩⟩

/-- Order of method references: by class, then by subsignature. -/
def compare (r s : MethodRef) : Ordering :=
  (Ord.compare r.className s.className).then (Ord.compare r.subsignature s.subsignature)

instance : Ord MethodRef := ⟨MethodRef.compare⟩

end MethodRef

/-- A field named by a class and a name. The field may be declared by a parent of the class. -/
structure FieldRef where
  className : String
  name : String
  deriving DecidableEq, Repr

namespace FieldRef

/-- A field reference as text: `LA;->f`. -/
def text (r : FieldRef) : String :=
  "L" ++ r.className ++ ";->" ++ r.name

/-- What may follow the name of a field: nothing, or a colon and a text that is not empty and has no
line break. -/
def isSuffix : List Char → Bool
  | [] => true
  | _ :: type => !type.isEmpty && !type.contains '\n'

/-- Reads a field reference. A type may follow the name after a colon; it is not looked at. -/
def parse (s : String) : Except DescriptorError FieldRef :=
  match MethodRef.splitClass? s.toList with
  | none => .error (.badFieldRef s)
  | some (owner, cs) =>
    let name := cs.takeWhile (· != ':')
    if !name.isEmpty && isSuffix (cs.dropWhile (· != ':')) then
      .ok ⟨String.ofList owner, String.ofList name⟩
    else .error (.badFieldRef s)

end FieldRef

end PointsTo
