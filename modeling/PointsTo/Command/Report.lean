import PointsTo.Json.Printer
import PointsTo.Result.Query

/-!
# Reports of points-to sets

The objects of the variables of chosen methods, merged over the contexts of the method or one entry for
each context. A report is written as coloured text or as a JSON document.
-/

namespace PointsTo.Command

/-- The objects of a variable, possibly in one context. -/
structure VarEntry where
  name : String
  context : Option String
  objects : List String
  deriving DecidableEq, Repr

/-- The variables of a method. -/
structure MethodEntry where
  method : MethodId
  vars : List VarEntry
  deriving DecidableEq, Repr

/-- A variable in each of its contexts. -/
def csVarEntries (r : Solution) (v : VarId) : List VarEntry :=
  (r.state.elements.pointersOf v).filterMap fun id =>
    match r.state.elements.pointer id with
    | .var c _ => some ⟨(r.program.varAt v).name, some (r.contextText c),
      (r.state.elements.pointsTo id).toList.map r.csObjectText⟩
    | _ => none

/-- A variable with all its objects. -/
def varEntry (r : Solution) (v : VarId) : VarEntry :=
  ⟨(r.program.varAt v).name, none, (r.pointsToVar v).map r.objectText⟩

/-- The variables of a method that hold references. -/
def methodEntry (r : Solution) (perContext : Bool) (m : MethodId) : MethodEntry :=
  let vars := ((r.program.methodAt m).body?.map (·.vars)).getD []
  let vars := vars.filter fun v => (r.program.varAt v).type.isReference
  ⟨m, if perContext then vars.flatMap (csVarEntries r) else vars.map (varEntry r)⟩

/-! ## Text -/

/-- Text between the escape sequences of a terminal style. -/
def paint (style text : String) : String := "\x1b[" ++ style ++ "m" ++ text ++ "\x1b[0m"

def methodStyle : String := "1;34"

def contextStyle : String := "33"

def emptyStyle : String := "90"

def objectStyle : String := "32"

def VarEntry.line (e : VarEntry) : String :=
  let name := match e.context with
    | some c => paint contextStyle c ++ " " ++ e.name
    | none => e.name
  let objects := if e.objects.isEmpty then paint emptyStyle "\x7b\x7d"
    else "\x7b" ++ paint objectStyle (String.intercalate ", " e.objects) ++ "\x7d"
  "  " ++ name ++ " -> " ++ objects ++ "\n"

def MethodEntry.lines (p : Program) (e : MethodEntry) : String :=
  paint methodStyle (p.methodText e.method) ++ "\n" ++ String.join (e.vars.map (·.line))

/-! ## Documents -/

def textsJson (ss : List String) : Json := .array (ss.map Json.str)

def VarEntry.toJson (e : VarEntry) : Json :=
  Json.record [
    ("name", Json.str e.name),
    ("context", e.context.elim Json.null Json.str),
    ("points-to", textsJson e.objects)]

def MethodEntry.toJson (r : Solution) (e : MethodEntry) : Json :=
  Json.record [
    ("method", Json.str (r.program.methodText e.method)),
    ("contexts", textsJson ((r.contextsOf e.method).map r.contextText)),
    ("vars", .array (e.vars.map (·.toJson)))]

def statisticsJson (t : Statistics) : Json :=
  Json.record [
    ("reachable-methods", Json.nat t.reachableMethods),
    ("reachable-cs-methods", Json.nat t.reachableCsMethods),
    ("call-edges", Json.nat t.callEdges),
    ("pointers", Json.nat t.pointers),
    ("objs", Json.nat t.objects),
    ("cs-objs", Json.nat t.csObjects)]

def reportJson (r : Solution) (selector : Selector) (methods : List MethodEntry) : Json :=
  Json.record [
    ("cs", Json.str selector.text),
    ("stats", statisticsJson r.statistics),
    ("methods", .array (methods.map (·.toJson r)))]

end PointsTo.Command
