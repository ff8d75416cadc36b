import PointsTo.Program.Memo
import PointsTo.Solver.Run

/-!
# Checked runs

The steps of a run rely on what was found out before the first of them: that every call that is bound
without looking at a receiver has a method. They also rely on each other: objects are made for
allocations, and call edges start at calls. A checked run keeps the methods of statically bound calls in
a table, looks everything up again where it is needed, and fails where something does not hold that it
relies on. The other calls are resolved by the program, which remembers its answers.
-/

namespace PointsTo

/-- Why a checked run has no result. Statements are given as texts. -/
inductive Failure where
  /-- The run is refused for a reason that any run has. -/
  | refused (e : AnalysisError)
  /-- The table has no method for a statically bound call. -/
  | noTarget (stmt : String)
  /-- A call edge starts at a statement that is no call. -/
  | notACall (stmt : String)
  deriving DecidableEq, Repr

namespace Failure

/-- The failure is that of the solver, not of what it is given. -/
def isInternal : Failure → Bool
  | refused (.notAnAllocation _) | refused .budgetExhausted => true
  | refused _ => false
  | noTarget _ | notACall _ => true

/-- The failure as it is reported. -/
def message : Failure → String
  | refused e => e.message
  | noTarget stmt => "internal error: no target recorded for " ++ stmt
  | notACall stmt => "internal error: " ++ stmt ++ " is not a call site"

end Failure

/-- A computation that may fail, on a program that remembers its answers. -/
abbrev Checked := ExceptT Failure (StateM Memo)

/-- The methods of statically bound calls. -/
abbrev Targets := List (StmtId × MethodId)

/-- The method of a statically bound call. -/
def Targets.target (targets : Targets) (p : Program) (s : StmtId) : Checked MethodId :=
  match targets.lookup s with
  | some m => pure m
  | none => throw (.noTarget (p.stmtText s))

namespace Checked

/-- What is refused fails for that reason. -/
def ofResult {α : Type} : Except AnalysisError α → Checked α
  | .ok a => pure a
  | .error e => throw (.refused e)

def resolveCallee (p : Program) (receiver : Option Ty) (call : Invoke) : Checked (Option MethodId) :=
  ExceptT.lift (Memo.resolveCallee p receiver call)

/-- Resolves a statically bound call and enters its method in the table. -/
def bindStatically (p : Program) (targets : Targets) (s : StmtId) : Checked Targets :=
  match (p.stmtAt s).invoke? with
  | none => pure targets
  | some call =>
    if call.binding.kind.isStaticallyBound then do
      match ← resolveCallee p none call with
      | some m => return (s, m) :: targets
      | none => throw (.refused (.unresolvedStaticCallee (p.stmtText s) call.target.text))
    else pure targets

/-- The table of the methods of all statically bound calls. -/
def staticTargets (p : Program) : Checked Targets := p.stmtIds.foldlM (bindStatically p) []

/-! ## Loops -/

section Loops

variable {σ : Type} (isDone : σ → Bool) (step : σ → Checked σ)

/-- At most `n` steps, fewer if the work is done earlier or a step fails. -/
def steps : (n : Nat) → σ → Checked σ
  | 0, s => pure s
  | n + 1, s => if isDone s then pure s else do steps n (← step s)

/-- Rounds of `n`, `2 * n`, `4 * n` and so on steps, fewer if the work is done earlier or a step
fails. -/
def rounds : (levels n : Nat) → σ → Checked σ
  | 0, _, s => pure s
  | levels + 1, n, s => if isDone s then pure s else do rounds levels (2 * n) (← steps isDone step n s)

end Loops

variable {π : Type} (a : Analysis) (react : Reaction π) (targets : Targets)

/-! ## Calls -/

/-- Adds a call edge. What the edge stands for is looked up again. -/
def addCall (kind : CallKind) (site : CsCallSite) (callee : CsMethod) (m : Machine π) :
    Checked (Machine π) :=
  let (siteId, s) := m.state.internCallSite site
  let (calleeId, s) := s.internMethod callee
  let edge : CallEdge := ⟨kind, siteId, calleeId⟩
  if s.calls.hasEdge edge then pure { m with state := s }
  else
    let s := { s with calls := s.calls.addEdge edge }
    -- Both ends are read back from their tables, as they were numbered.
    let site := s.elements.callSite edge.callSite
    let callee := s.elements.method edge.callee
    match (a.program.stmtAt site.stmt).invoke? with
    | none => throw (.notACall (a.program.stmtText site.stmt))
    | some call => pure <| Machine.notify react (.callAdded edge)
        { m with state := a.enterCallee call site callee edge.callee s }

/-! ## Methods -/

/-- Makes the objects of a statement, which has to allocate, and assigns them to a variable. -/
def visitNew (method : CsMethod) (stmt : StmtId) (lhs : VarId) (s : State) : Checked State := do
  -- The heap looks for the type in the statement, and fails if that does not allocate.
  let (o, heap) ← ofResult (s.heap.objectOf a.heapModel a.program stmt)
  let (o, s) := { s with heap }.internObject (a.selector.heapContext method) o
  return s.assign (.var method.context lhs) o

/-- Records a call site, and adds the edge of a static call to the method in the table. -/
def visitInvoke (id : CsMethodId) (site : CsCallSite) (call : Invoke) (m : Machine π) :
    Checked (Machine π) :=
  let (siteId, s) := m.state.internCallSite site
  let m := { m with state := { s with calls := s.calls.addCallSite id siteId } }
  match call.binding with
  | .static => do
    let callee ← targets.target a.program site.stmt
    addCall a react .static site ⟨a.selector.calleeContext site, callee⟩ m
  | _ => pure m

def visitStmt (id : CsMethodId) (method : CsMethod) (m : Machine π) (stmt : StmtId) :
    Checked (Machine π) :=
  let c := method.context
  match (a.program.stmtAt stmt).kind with
  | .new lhs _ => do return { m with state := ← visitNew a method stmt lhs m.state }
  | .copy lhs rhs => pure (m.modify (·.connect (.var c rhs) (.var c lhs)))
  | .staticStore f rhs => pure (m.modify (·.connect (.var c rhs) (.staticField f)))
  | .staticLoad lhs f => pure (m.modify (·.connect (.staticField f) (.var c lhs)))
  | .invoke call => visitInvoke a react targets id ⟨c, stmt⟩ call m
  | _ => pure m

def visitMethod (id : CsMethodId) (m : Machine π) : Checked (Machine π) := do
  let method := m.state.elements.method id
  let m := m.modify (·.report .trace ("new reachable method "
    ++ a.program.methodText method.method ++ " in context " ++ method.context.text))
  let stmts := ((a.program.methodAt method.method).body?.map (·.stmts)).getD []
  let m ← stmts.foldlM (visitStmt a react targets id method) m
  return m.notify react (.methodReached id)

/-! ## Objects -/

/-- The method of a call for an object of a type. Special calls do not look at the type. -/
def callee? (stmt : StmtId) (call : Invoke) (type : Ty) : Checked (Option MethodId) :=
  if call.binding.kind = .special then do return some (← targets.target a.program stmt)
  else resolveCallee a.program (some type) call

def dispatchCall (c : Context) (o : CsObjectId) (m : Machine π) (stmt : StmtId) :
    Checked (Machine π) :=
  match (a.program.stmtAt stmt).invoke? with
  | none => pure m
  | some call => do
    let receiver := m.state.elements.object o
    let object := m.state.heap.get receiver.object
    match ← callee? a targets stmt call object.type with
    | none => return m.modify fun s =>
      (s.report .trace ("no target for " ++ a.program.stmtText stmt ++ " on "
        ++ object.text a.program)).markUnresolved stmt
    | some method =>
      let callee : CsMethod := ⟨a.selector.receiverContext ⟨c, stmt⟩ receiver, method⟩
      addCall a react call.binding.kind ⟨c, stmt⟩ callee (m.modify (a.bindThis callee o))

def processObject (c : Context) (v : VarId) (m : Machine π) (o : CsObjectId) : Checked (Machine π) :=
  (a.program.varAt v).invokes.foldlM (dispatchCall a react targets c o)
    (m.modify (a.linkAccesses c v o))

def processObjects (p : PointerId) (objects : ObjectSet) (m : Machine π) : Checked (Machine π) :=
  match m.state.elements.pointer p with
  | .var c v => do
    let m ← objects.toList.foldlM (processObject a react targets c v) m
    return m.notify react (.objectsAdded p objects)
  | _ => pure m

def processFact (p : PointerId) (objects : ObjectSet) (m : Machine π) : Checked (Machine π) :=
  let m := m.modify fun s => { s with processed := s.processed + 1 }
  let new := objects.difference (m.state.elements.pointsTo p)
  if new.isEmpty then pure m
  else processObjects a react targets p new (m.modify (·.propagate p new))

/-! ## Runs -/

def step (m : Machine π) : Checked (Machine π) :=
  match m.state.pending.pop? with
  | some (id, pending) => visitMethod a react targets id (m.modify fun s => { s with pending })
  | none =>
    match m.state.work.pop? with
    | some ((p, objects), work) =>
      processFact a react targets p objects (m.modify fun s => { s with work })
    | none => pure m

/-- Makes steps until the work is done, the budget is used up or a step fails. -/
def advance (isDone : Machine π → Bool) (m : Machine π) : Checked (Machine π) :=
  rounds isDone (step a react targets) a.budget 1 m

def solveFrom (entry : MethodId) (extensions : List π) (s : State) : Checked Solution := do
  let m ← advance a react targets Analysis.isVisited ⟨Analysis.start entry s, extensions⟩
  if !Analysis.isVisited m then throw (.refused .budgetExhausted)
  else
    let m ← advance a react targets Analysis.isDone (m.notify react .started)
    if !Analysis.isDone m then throw (.refused .budgetExhausted)
    else ofResult (a.finish react m).result

def solve (extensions : List π) : Checked Solution := do
  let s := State.initial.report .debug
    ("starting " ++ a.options.selector.text ++ " points-to analysis")
  let entry ← ofResult a.entryMethod
  let targets ← staticTargets a.program
  solveFrom a react targets entry extensions (s.report .debug
    (toString targets.length ++ " statically bound call sites resolved"))

end Checked

end PointsTo
