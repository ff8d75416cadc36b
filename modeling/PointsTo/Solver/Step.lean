import PointsTo.Program.Lookup
import PointsTo.Solver.Options
import PointsTo.Solver.Script

/-!
# Steps of the solver

A step either visits the statements of a reachable method that was not visited yet, or takes a fact from
the work list. A fact that brings new objects to a pointer is passed on along the flow edges; if the
pointer is a variable, each new object also links the field and array accesses on that variable to the
slots of the object, and resolves the calls on that variable.
-/

namespace PointsTo

/-- What a run is about. -/
structure Analysis where
  program : Program
  options : Options
  /-- The policy of context sensitivity, which need not be the one of the options. -/
  selector : Selector
  heapModel : HeapModel

/-- A solver with its extensions. -/
structure Machine (π : Type) where
  state : State
  extensions : List π

namespace Machine

variable {π : Type}

def modify (m : Machine π) (f : State → State) : Machine π :=
  { m with state := f m.state }

def round (react : Reaction π) (n : Notice) :
    List π → State → List π → List π × State × List π
  | [], s, arrivals => ([], s, arrivals)
  | e :: es, s, arrivals =>
    let (e, s, arrivals) := (react n e).run s arrivals
    let (es, s, arrivals) := round react n es s arrivals
    (e :: es, s, arrivals)

/-- Tells all extensions. Those that are registered meanwhile follow the others. -/
def notify (react : Reaction π) (n : Notice) (m : Machine π) : Machine π :=
  let (extensions, state, arrivals) := round react n m.extensions m.state []
  ⟨state, extensions ++ arrivals⟩

end Machine

namespace Analysis

variable {π : Type} (a : Analysis) (react : Reaction π)

/-! ## Calls -/

/-- Links the arguments of a call to the parameters of a method, as far as both go, and the variables
that the method returns to the result. -/
def linkCall (call : Invoke) (caller callee : Context) (body : Body) (s : State) : State :=
  let s := (call.args.zip body.params).foldl
    (fun s (arg, param) => s.connect (.var caller arg) (.var callee param)) s
  match call.result? with
  | none => s
  | some result =>
    let (_, s) := s.internPointer (.var caller result)
    body.returns.foldl (fun s r => s.connectInto (.var caller result) (.var callee r)) s

/-- Warns if a call does not give as many arguments as the method expects. -/
def checkArity (stmt : StmtId) (call : Invoke) (method : MethodId) (body : Body) (s : State) :
    State :=
  if call.args.length = body.params.length then s
  else s.report .warn (a.program.stmtText stmt ++ ": " ++ toString call.args.length
    ++ " arguments given to " ++ a.program.methodText method ++ " which expects "
    ++ toString body.params.length)

/-- Makes the callee of a new edge reachable, and links arguments and results if it has a body. -/
def enterCallee (call : Invoke) (site : CsCallSite) (callee : CsMethod) (id : CsMethodId)
    (s : State) : State :=
  let s := s.report .trace ("new " ++ call.binding.kind.text ++ " call edge "
    ++ a.program.stmtText site.stmt ++ " -> " ++ a.program.methodText callee.method)
  let s := s.reachMethod id
  match (a.program.methodAt callee.method).body? with
  | none => s
  | some body =>
    linkCall call site.context callee.context body (a.checkArity site.stmt call callee.method body s)

/-- Adds a call edge. Nothing happens if the call site calls the method already. -/
def addCall (call : Invoke) (site : CsCallSite) (callee : CsMethod) (m : Machine π) : Machine π :=
  -- Both ends are numbered even if the edge is there already.
  let (siteId, s) := m.state.internCallSite site
  let (calleeId, s) := s.internMethod callee
  let edge : CallEdge := ⟨call.binding.kind, siteId, calleeId⟩
  if s.calls.hasEdge edge then { m with state := s }
  else
    let s := { s with calls := s.calls.addEdge edge }
    -- The callee is reachable and linked by the time the extensions are told.
    Machine.notify react (.callAdded edge)
      { m with state := a.enterCallee call site callee calleeId s }

/-! ## Methods -/

/-- Makes the objects of an allocation, and assigns them to a variable. -/
def visitNew (method : CsMethod) (stmt : StmtId) (lhs : VarId) (type : Ty) (s : State) : State :=
  let (o, s) := s.allocate a.heapModel a.program stmt type
  let (o, s) := s.internObject (a.selector.heapContext method) o
  s.assign (.var method.context lhs) o

/-- Records a call site, and adds the edge of a static call. -/
def visitInvoke (id : CsMethodId) (site : CsCallSite) (call : Invoke) (m : Machine π) : Machine π :=
  let (siteId, s) := m.state.internCallSite site
  let m := { m with state := { s with calls := s.calls.addCallSite id siteId } }
  match call.binding with
  | .static =>
    match a.program.staticTarget? call.target with
    | some callee => a.addCall react call site ⟨a.selector.calleeContext site, callee⟩ m
    | none => m
  | _ => m

/-- Visits a statement of a method. Field and array accesses and calls with a receiver have no effect
by themselves: they wait for the objects of their base variable. -/
def visitStmt (id : CsMethodId) (method : CsMethod) (m : Machine π) (stmt : StmtId) : Machine π :=
  let c := method.context
  match (a.program.stmtAt stmt).kind with
  | .new lhs type => m.modify (a.visitNew method stmt lhs type)
  | .copy lhs rhs => m.modify (·.connect (.var c rhs) (.var c lhs))
  | .staticStore f rhs => m.modify (·.connect (.var c rhs) (.staticField f))
  | .staticLoad lhs f => m.modify (·.connect (.staticField f) (.var c lhs))
  | .invoke call => a.visitInvoke react id ⟨c, stmt⟩ call m
  | _ => m

def visitMethod (id : CsMethodId) (m : Machine π) : Machine π :=
  let method := m.state.elements.method id
  let m := m.modify (·.report .trace ("new reachable method "
    ++ a.program.methodText method.method ++ " in context " ++ method.context.text))
  let stmts := ((a.program.methodAt method.method).body?.map (·.stmts)).getD []
  (stmts.foldl (a.visitStmt react id method) m).notify react (.methodReached id)

/-! ## Objects -/

/-- Links a field or array access on a variable to the slot of an object. -/
def linkAccess (c : Context) (o : CsObjectId) (s : State) (stmt : StmtId) : State :=
  match (a.program.stmtAt stmt).kind with
  | .instanceStore _ f rhs => s.connectInto (.instanceField o f) (.var c rhs)
  | .instanceLoad lhs _ f => s.connect (.instanceField o f) (.var c lhs)
  | .arrayStore _ rhs => s.connectInto (.arrayIndex o) (.var c rhs)
  | .arrayLoad lhs _ => s.connect (.arrayIndex o) (.var c lhs)
  | _ => s

/-- Links all accesses on a variable to the slots of an object: field stores, field loads, array stores
and array loads, in this order. -/
def linkAccesses (c : Context) (v : VarId) (o : CsObjectId) (s : State) : State :=
  let var := a.program.varAt v
  (var.storeFields ++ var.loadFields ++ var.storeArrays ++ var.loadArrays).foldl
    (a.linkAccess c o) s

/-- Assigns the receiver of a call to the variable of the callee that holds it. -/
def bindThis (callee : CsMethod) (o : CsObjectId) (s : State) : State :=
  match (a.program.methodAt callee.method).body?.bind (·.this?) with
  | some this => s.assign (.var callee.context this) o
  | none => s

/-- Resolves a call on a variable for an object. -/
def dispatchCall (c : Context) (o : CsObjectId) (m : Machine π) (stmt : StmtId) : Machine π :=
  match (a.program.stmtAt stmt).invoke? with
  | none => m
  | some call =>
    let receiver := m.state.elements.object o
    let object := m.state.heap.get receiver.object
    match a.program.resolveCallee? (some object.type) call with
    | none => m.modify fun s =>
      (s.report .trace ("no target for " ++ a.program.stmtText stmt ++ " on "
        ++ object.text a.program)).markUnresolved stmt
    | some method =>
      -- The receiver arrives whether or not the edge is new, since other objects may have made it.
      let callee : CsMethod := ⟨a.selector.receiverContext ⟨c, stmt⟩ receiver, method⟩
      a.addCall react call ⟨c, stmt⟩ callee (m.modify (a.bindThis callee o))

def processObject (c : Context) (v : VarId) (m : Machine π) (o : CsObjectId) : Machine π :=
  (a.program.varAt v).invokes.foldl (a.dispatchCall react c o) (m.modify (a.linkAccesses c v o))

def processObjects (p : PointerId) (objects : ObjectSet) (m : Machine π) : Machine π :=
  match m.state.elements.pointer p with
  | .var c v =>
    (objects.toList.foldl (a.processObject react c v) m).notify react (.objectsAdded p objects)
  | _ => m

/-- Takes account of a fact from the work list: the objects that the pointer does not have yet are
added, passed on and processed. -/
def processFact (p : PointerId) (objects : ObjectSet) (m : Machine π) : Machine π :=
  let m := m.modify fun s => { s with processed := s.processed + 1 }
  let new := objects.difference (m.state.elements.pointsTo p)
  if new.isEmpty then m
  else a.processObjects react p new (m.modify (·.propagate p new))

/-! ## Steps -/

/-- One step: a pending method is visited, or else a fact is taken from the work list. -/
def step (m : Machine π) : Machine π :=
  -- Facts have to wait until all reachable methods are visited.
  match m.state.pending.pop? with
  | some (id, pending) => a.visitMethod react id (m.modify fun s => { s with pending })
  | none =>
    match m.state.work.pop? with
    | some ((p, objects), work) => a.processFact react p objects (m.modify fun s => { s with work })
    | none => m

end Analysis

end PointsTo
