import PointsTo.Json.Decode
import PointsTo.Json.Number
import PointsTo.Json.Reader
import PointsTo.Program.Definition

/-!
# Program documents

Reads the definition of a program from a JSON document. Members that name no field are passed over,
whatever they hold. A statement is tagged by its `op` and is held in memory before its fields are
looked at, so everything in it, also what is passed over, has to be representable: texts without
lone surrogates, numbers in the range of double precision, and nesting within the limit.
-/

namespace PointsTo

open Json

mutual

/-- The document can be held in memory: its strings are texts and its numbers are in range. -/
def Json.isRepresentable : Json → Bool
  | .number spelling => inDoubleRange spelling
  | .text t => t.isSome
  | .array items => Json.itemsRepresentable items
  | .object members => Json.membersRepresentable members
  | _ => true

/-- All items of an array can be held in memory. -/
def Json.itemsRepresentable : List Json → Bool
  | [] => true
  | j :: js => j.isRepresentable && Json.itemsRepresentable js

/-- All members of an object can be held in memory. -/
def Json.membersRepresentable : List (JsonText × Json) → Bool
  | [] => true
  | (k, j) :: ms => k.isSome && j.isRepresentable && Json.membersRepresentable ms

end

/-- Greatest number of nested containers of a document where values are held in memory. -/
def nestingLimit : Nat := 127

/-- Number of containers around a statement: the program, its classes, a class, its methods, a method
and its body. -/
def statementNesting : Nat := 6

def VarDef.ofJson? (j : Json) : Option VarDef := do
  match ← Record.ofJson? ["name", "type"] false j with
  | [name, type] => return ⟨← required? text? name, ← required? text? type⟩
  | _ => none

def FieldDef.ofJson? (j : Json) : Option FieldDef := do
  match ← Record.ofJson? ["name", "type", "static"] false j with
  | [name, type, static] =>
    return ⟨← required? text? name, ← required? text? type, ← optional? false bool? static⟩
  | _ => none

/-- The kind of a call: its name, or an object with its name as the only key and nothing in it. -/
def CallKind.ofJson? : Json → Option CallKind
  | .text t => t.bind CallKind.ofText?
  | .object [(k, .null)] => k.bind CallKind.ofText?
  | .object [(k, .object [])] => k.bind CallKind.ofText?
  | _ => none

/-- A field of a statement that may be missing or `null`. -/
def optionalText? : Option Json → Option (Option String) :=
  optional? none (nullable? text?)

/-- The fields of the statements of an `op`, in order. -/
def StmtDef.fieldsOf? : String → Option (List String)
  | "new" => some ["lhs", "type"]
  | "copy" => some ["lhs", "rhs"]
  | "store_field" => some ["base", "field", "rhs"]
  | "load_field" => some ["lhs", "base", "field"]
  | "store_array" => some ["base", "rhs"]
  | "load_array" => some ["lhs", "base"]
  | "invoke" => some ["kind", "base", "method", "args", "result"]
  | "return" => some ["value"]
  | _ => none

/-- The statement of an `op` with the given fields. -/
def StmtDef.ofRecord? : String → Record → Option StmtDef
  | "new", [lhs, type] => return .new (← required? text? lhs) (← required? text? type)
  | "copy", [lhs, rhs] => return .copy (← required? text? lhs) (← required? text? rhs)
  | "store_field", [base, field, rhs] =>
    return .storeField (← optionalText? base) (← required? text? field) (← required? text? rhs)
  | "load_field", [lhs, base, field] =>
    return .loadField (← required? text? lhs) (← optionalText? base) (← required? text? field)
  | "store_array", [base, rhs] =>
    return .storeArray (← required? text? base) (← required? text? rhs)
  | "load_array", [lhs, base] =>
    return .loadArray (← required? text? lhs) (← required? text? base)
  | "invoke", [kind, base, method, args, result] =>
    return .invoke (← required? CallKind.ofJson? kind) (← optionalText? base)
      (← required? text? method) (← optional? [] (list? text?) args) (← optionalText? result)
  | "return", [value] => return .ret (← optionalText? value)
  | _, _ => none

/-- The `op` of a statement and the document of its fields. In an object the `op` may stand anywhere,
but only once; an array starts with it. -/
def StmtDef.untag? : Json → Option (String × Json)
  | .object members =>
    match members.partition (fun m => m.1 == some "op") with
    | ([(_, .text (some op))], others) => some (op, .object others)
    | _ => none
  | .array (.text (some op) :: values) => some (op, .array values)
  | _ => none

def StmtDef.ofJson? (j : Json) : Option StmtDef := do
  if !j.isRepresentable || nestingLimit < statementNesting + j.depth then none
  let (op, fields) ← untag? j
  let names ← fieldsOf? op
  let record ← Record.ofJson? names false fields
  ofRecord? op record

def MethodDef.ofJson? (j : Json) : Option MethodDef := do
  let names := ["name", "params", "return", "static", "abstract", "native", "locals", "body"]
  match ← Record.ofJson? names false j with
  | [name, params, result, static, abstr, native, locals, body] =>
    return {
      name := ← required? text? name
      params := ← optional? [] (list? VarDef.ofJson?) params
      result := ← optional? "V" text? result
      isStatic := ← optional? false bool? static
      isAbstract := ← optional? false bool? abstr
      isNative := ← optional? false bool? native
      locals := ← optional? [] (list? VarDef.ofJson?) locals
      body := ← optional? [] (list? StmtDef.ofJson?) body }
  | _ => none

def ClassDef.ofJson? (j : Json) : Option ClassDef := do
  let names := ["name", "super", "interfaces", "interface", "abstract", "fields", "methods"]
  match ← Record.ofJson? names false j with
  | [name, super, interfaces, interface, abstr, fields, methods] =>
    return {
      name := ← required? text? name
      superclass := ← optionalText? super
      interfaces := ← optional? [] (list? text?) interfaces
      isInterface := ← optional? false bool? interface
      isAbstract := ← optional? false bool? abstr
      fields := ← optional? [] (list? FieldDef.ofJson?) fields
      methods := ← optional? [] (list? MethodDef.ofJson?) methods }
  | _ => none

def ProgramDef.ofJson? (j : Json) : Option ProgramDef := do
  match ← Record.ofJson? ["entry", "classes"] false j with
  | [entry, classes] =>
    return ⟨← optionalText? entry, ← optional? [] (list? ClassDef.ofJson?) classes⟩
  | _ => none

/-- Reads the definition of a program. -/
def ProgramDef.parse? (s : String) : Option ProgramDef :=
  Json.parse? s >>= ProgramDef.ofJson?

end PointsTo
