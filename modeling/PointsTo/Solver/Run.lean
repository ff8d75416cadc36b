import PointsTo.Solver.Error
import PointsTo.Solver.Statistics
import PointsTo.Solver.Step

/-!
# Runs of the solver

A run looks for the entry method, checks that every call that is bound without a receiver has a method,
and then makes steps until nothing is left to be done.

Steps are counted against a budget, which doubles from one level to the next. A run without extensions
is always done before its budget is used up, because only finitely many contexts, edges and facts can
arise; extensions can go on for ever, and are stopped.
-/

namespace PointsTo

/-- At most `n` steps, fewer if the work is done earlier. -/
def steps {σ : Type} (isDone : σ → Bool) (step : σ → σ) : (n : Nat) → σ → σ
  | 0, s => s
  | n + 1, s => if isDone s then s else steps isDone step n (step s)

/-- Rounds of `n`, `2 * n`, `4 * n` and so on steps, fewer if the work is done earlier. -/
def rounds {σ : Type} (isDone : σ → Bool) (step : σ → σ) : (levels n : Nat) → σ → σ
  | 0, _, s => s
  | levels + 1, n, s =>
    if isDone s then s else rounds isDone step levels (2 * n) (steps isDone step n s)

/-- Number of tokens that a policy keeps. -/
def Selector.bound : Selector → Nat
  | insensitive => 0
  | callSite k => k
  | object k => k
  | type k => k

/-- Number of parts of a program. -/
def Program.size (p : Program) : Nat :=
  p.classes.size + p.fields.size + p.methods.size + p.vars.size + p.stmts.size

/-- What a run has found. -/
structure Solution where
  program : Program
  state : State

/-- The outcome of a run: its result, and what was reported. -/
structure Outcome where
  result : Except AnalysisError Solution
  log : Log

namespace Analysis

variable {π : Type} (a : Analysis) (react : Reaction π)

/-- The method that a run starts from. -/
def entryMethod : Except AnalysisError MethodId :=
  match a.options.entry with
  | some entry =>
    match MethodRef.parse entry with
    | .error e => .error (.program (.descriptor e))
    | .ok r =>
      match a.program.findMethod? r with
      | some m => .ok m
      | none => .error (.missingEntryPoint ("method " ++ entry ++ " not found"))
  | none =>
    match a.program.entry? with
    | some m => .ok m
    | none => .error (.missingEntryPoint "program has no entry method")

/-- Calls that are bound without looking at a receiver, in order. -/
def staticCalls (p : Program) : List (StmtId × Invoke) :=
  p.stmtIds.filterMap fun s =>
    match (p.stmtAt s).invoke? with
    | some call => if call.binding.kind.isStaticallyBound then some (s, call) else none
    | none => none

/-- Refuses a program in which a static or special call has no method. -/
def checkStaticCalls : Except AnalysisError Unit :=
  match (staticCalls a.program).find? fun c => (a.program.resolveCallee? none c.2).isNone with
  | some (s, call) =>
    .error (.unresolvedStaticCallee (a.program.stmtText s) call.target.text)
  | none => .ok ()

/-- Levels of the budget of steps. -/
def budget : Nat := 64 * (a.selector.bound + 2) * (a.program.size + 2)

def isVisited (m : Machine π) : Bool := m.state.pending.isEmpty

def isDone (m : Machine π) : Bool := m.state.pending.isEmpty && m.state.work.isEmpty

/-- Makes steps until the work is done or the budget is used up. -/
def advance (isDone : Machine π → Bool) (m : Machine π) : Machine π :=
  rounds isDone (a.step react) a.budget 1 m

/-- The state in which only the entry method is reachable. -/
def start (entry : MethodId) (s : State) : State :=
  let (id, s) := s.internMethod ⟨[], entry⟩
  { s with calls := s.calls.addEntry id }.reachMethod id

/-- The end of a run, in which the extensions are told that it is over. -/
def finish (m : Machine π) : Outcome :=
  let m := m.modify fun s => s.report .debug
    ("fixpoint reached after " ++ toString s.processed ++ " work-list entries")
  let m := m.notify react .finished
  let s := m.state
  -- What the extensions add at the end is not processed any more.
  let s := if s.work.isEmpty then s
    else s.report .warn (toString s.work.size ++ " facts injected after the fixpoint are ignored")
  let s := s.report .info ("points-to analysis done:\n" ++ (Statistics.ofState s).text)
  ⟨.ok ⟨a.program, s⟩, s.log⟩

/-- The main part of a run. -/
def solveFrom (entry : MethodId) (extensions : List π) (s : State) : Outcome :=
  -- The extensions start only when static calls alone reach no further method.
  let m := a.advance react isVisited ⟨start entry s, extensions⟩
  if !isVisited m then ⟨.error .budgetExhausted, m.state.log⟩
  else
    let m := a.advance react isDone (m.notify react .started)
    if !isDone m then ⟨.error .budgetExhausted, m.state.log⟩ else a.finish react m

def solve (extensions : List π) : Outcome :=
  let s := State.initial.report .debug
    ("starting " ++ a.options.selector.text ++ " points-to analysis")
  match a.entryMethod with
  | .error e => ⟨.error e, s.log⟩
  | .ok entry =>
    match a.checkStaticCalls with
    | .error e => ⟨.error e, s.log⟩
    | .ok () =>
      a.solveFrom react entry extensions (s.report .debug
        (toString (staticCalls a.program).length ++ " statically bound call sites resolved"))

end Analysis

end PointsTo
