import PointsTo.Solver.Run

/-!
# Queries of a solution

What can be asked of a finished run. Sets of methods and objects are listed in the order of their
identifiers.
-/

namespace PointsTo.Solution

/-- Reachable methods with their contexts, in the order in which they were discovered. -/
def reachableCsMethods (r : Solution) : List CsMethodId := r.state.calls.reachable.toList

/-- Reachable methods, whatever their contexts. -/
def reachableMethods (r : Solution) : List MethodId :=
  r.program.methodSet (r.reachableCsMethods.map fun m => (r.state.elements.method m).method)

/-- The contexts in which a method is reachable. -/
def contextsOf (r : Solution) (m : MethodId) : List Context :=
  ((r.reachableCsMethods.map r.state.elements.method).filter (·.method = m)).map (·.context)

/-- Methods that a call site calls, in any context. -/
def calleesOf (r : Solution) (s : StmtId) : List MethodId :=
  let edges := r.state.calls.edges.toList.filter fun e =>
    (r.state.elements.callSite e.callSite).stmt = s
  r.program.methodSet (edges.map fun e => (r.state.elements.method e.callee).method)

def objectSet (r : Solution) (os : List ObjectId) : List ObjectId :=
  r.state.heap.ids.filter (· ∈ os)

def objectsOf (r : Solution) (s : ObjectSet) : List ObjectId :=
  r.objectSet (s.toList.map fun o => (r.state.elements.object o).object)

/-- Objects that a variable may point to in a context. -/
def pointsToCsVar (r : Solution) (c : Context) (v : VarId) : ObjectSet :=
  r.state.elements.objectsOf (.var c v)

/-- Abstract objects that a variable may point to, in any context. -/
def pointsToVar (r : Solution) (v : VarId) : List ObjectId :=
  r.objectsOf (((r.state.elements.pointersOf v).map r.state.elements.pointsTo).foldl
    ObjectSet.union .empty)

/-- Objects that a field of an object may point to. -/
def pointsToInstanceField (r : Solution) (base : CsObjectId) (f : FieldId) : ObjectSet :=
  r.state.elements.objectsOf (.instanceField base f)

/-- Objects that the elements of an array may point to. -/
def pointsToArrayIndex (r : Solution) (base : CsObjectId) : ObjectSet :=
  r.state.elements.objectsOf (.arrayIndex base)

/-- Abstract objects that a static field may point to. -/
def pointsToStaticField (r : Solution) (f : FieldId) : List ObjectId :=
  r.objectsOf (r.state.elements.objectsOf (.staticField f))

def csObjectsOf (r : Solution) (o : ObjectId) : List CsObjectId :=
  r.state.elements.objectIds.filter fun c => (r.state.elements.object c).object = o

def statistics (r : Solution) : Statistics := .ofState r.state

def objectText (r : Solution) (o : ObjectId) : String := (r.state.heap.get o).text r.program

/-- A token as text that names its call site, object or class. -/
def tokenText (r : Solution) : Token → String
  | .callSite s => r.program.stmtText s
  | .object o => r.objectText o
  | .type c => (r.program.classAt c).name

/-- A context as text that names its call sites, objects and classes. -/
def contextText (r : Solution) (c : Context) : String :=
  "[" ++ String.intercalate ", " (c.map r.tokenText) ++ "]"

/-- An object with its heap context as text. -/
def csObjectText (r : Solution) (o : CsObjectId) : String :=
  r.contextText (r.state.elements.object o).context ++ ":"
    ++ r.objectText (r.state.elements.object o).object

end PointsTo.Solution
