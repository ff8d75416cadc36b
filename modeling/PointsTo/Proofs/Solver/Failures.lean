import PointsTo.Proofs.Program.Consistency
import PointsTo.Proofs.Program.Remembering
import PointsTo.Proofs.Solver.Termination
import PointsTo.Solver.Checked

/-! # When runs fail

A run fails only before its first step: its entry is not there, or some statically bound call of the
program has no method, whether the call is ever reached or not. Whatever the steps rely on after that
holds: the checked run, which looks for the methods of static and special calls in the table that was
made at the start, and fails where an object or an edge does not come from a statement of its kind,
never fails where the plain one does not. So nothing that a run is refused for depends on the selector.
-/

namespace PointsTo

namespace Checked

/-! ## Computations that do not fail -/

section Computations

variable {p : Program} {α β : Type}

/-- On every valid memo the computation ends as given, and keeps the memo valid. -/
def Gives (p : Program) (x : Checked α) (r : Except Failure α) : Prop := Memo.Answers p x.run r

theorem gives_pure (p : Program) (a : α) : Gives p (pure a) (.ok a) := Memo.answers_pure p _

theorem gives_throw (p : Program) (e : Failure) : Gives p (throw e : Checked α) (.error e) :=
  Memo.answers_pure p _

/-- If the first part gives a value, then the computation gives what the second part gives for it. -/
theorem Gives.bind {x : Checked α} {a : α} {f : α → Checked β} {r : Except Failure β}
    (hx : Gives p x (.ok a)) (hf : Gives p (f a) r) : Gives p (x >>= f) r := by
  rw [Gives, ExceptT.run_bind]
  exact Memo.Answers.bind hx hf

/-- If the first part fails, then so does the computation. -/
theorem Gives.bind_error {x : Checked α} {e : Failure} (hx : Gives p x (.error e))
    (f : α → Checked β) : Gives p (x >>= f) (.error e) := by
  rw [Gives, ExceptT.run_bind]
  exact Memo.Answers.bind hx (Memo.answers_pure p _)

/-- A result that depends on no memo is given as it is, with its error as a refusal. -/
theorem ofResult_gives (p : Program) (x : Except AnalysisError α) :
    Gives p (ofResult x) (x.mapError .refused) := by
  cases x with
  | ok a => exact gives_pure p a
  | error e => exact gives_throw p _

/-- On a valid memo, looking up a callee gives the one that is computed without it. -/
theorem resolveCallee_gives (p : Program) (receiver : Option Ty) (call : Invoke) :
    Gives p (resolveCallee p receiver call) (.ok (p.resolveCallee? receiver call)) :=
  (Memo.resolveCallee_answers p receiver call).map Except.ok

/-- A loop of steps that do not fail does not fail. -/
theorem foldlM_gives {f : β → α → Checked β} {g : β → α → β} (h : ∀ b a, Gives p (f b a) (.ok (g b a)))
    (l : List α) (b : β) : Gives p (l.foldlM f b) (.ok (l.foldl g b)) := by
  induction l generalizing b with
  | nil => exact gives_pure p b
  | cons a l ih =>
      rw [List.foldlM_cons]
      exact (h b a).bind (ih (g b a))

variable {isDone : α → Bool} {f : α → Checked α} {g : α → α} (h : ∀ a, Gives p (f a) (.ok (g a)))

include h

/-- Steps that do not fail give the steps without checks. -/
theorem steps_gives (n : Nat) (a : α) :
    Gives p (steps isDone f n a) (.ok (PointsTo.steps isDone g n a)) := by
  induction n generalizing a with
  | zero => exact gives_pure p a
  | succ n ih =>
      rw [steps, PointsTo.steps]
      split
      · exact gives_pure p a
      · exact (h a).bind (ih (g a))

/-- Rounds of steps that do not fail give the rounds without checks. -/
theorem rounds_gives (levels n : Nat) (a : α) :
    Gives p (rounds isDone f levels n a) (.ok (PointsTo.rounds isDone g levels n a)) := by
  induction levels generalizing n a with
  | zero => exact gives_pure p a
  | succ levels ih =>
      rw [rounds, PointsTo.rounds]
      split
      · exact gives_pure p a
      · exact (steps_gives h n a).bind (ih (2 * n) _)

end Computations

/-! ## The table of statically bound calls -/

section Table

variable {p : Program}

/-- The table has the methods of all statically bound calls. -/
def Complete (p : Program) (targets : Targets) : Prop :=
  ∀ s call, (p.stmtAt s).kind = .invoke call → call.binding.kind.isStaticallyBound = true →
    ∃ m, targets.lookup s = some m ∧ p.resolveCallee? none call = some m

/-- The statically bound call of a statement. -/
def staticCall? (p : Program) (s : StmtId) : Option (StmtId × Invoke) :=
  match (p.stmtAt s).invoke? with
  | some call => if call.binding.kind.isStaticallyBound then some (s, call) else none
  | none => none

/-- What the table says about a call. -/
def boundTo (p : Program) (c : StmtId × Invoke) : StmtId × MethodId :=
  (c.1, (p.resolveCallee? none c.2).getD default)

/-- Binding a statement fails if it is a static or special call without a method, and else enters its
method, if it is such a call. -/
theorem bindStatically_gives (p : Program) (targets : Targets) (s : StmtId) :
    Gives p (bindStatically p targets s) (match staticCall? p s with
      | none => .ok targets
      | some c =>
        if (p.resolveCallee? none c.2).isNone then
          .error (.refused (.unresolvedStaticCallee (p.stmtText c.1) c.2.target.text))
        else .ok (boundTo p c :: targets)) := by
  unfold bindStatically staticCall?
  cases (p.stmtAt s).invoke? with
  | none => exact gives_pure p targets
  | some call =>
      dsimp only
      split
      · refine (resolveCallee_gives p none call).bind ?_
        cases hm : p.resolveCallee? none call with
        | none =>
            simp only [hm, Option.isNone_none, if_true]
            exact gives_throw p _
        | some m =>
            simp only [hm, Option.isNone_some, Bool.false_eq_true, if_false, boundTo, Option.getD_some]
            exact gives_pure p _
      · exact gives_pure p targets

/-- Binding the calls of a list fails at the first one without a method, or enters all of them. -/
theorem foldlM_bindStatically_gives (p : Program) (ids : List StmtId) (targets : Targets) :
    Gives p (ids.foldlM (bindStatically p) targets)
      (match (ids.filterMap (staticCall? p)).find? fun c => (p.resolveCallee? none c.2).isNone with
      | some c => .error (.refused (.unresolvedStaticCallee (p.stmtText c.1) c.2.target.text))
      | none => .ok (((ids.filterMap (staticCall? p)).map (boundTo p)).reverse ++ targets)) := by
  -- by induction on the statements, for every table; a statement without such a call drops out of both
  -- sides
  induction ids generalizing targets with
  | nil => exact gives_pure p targets
  | cons s ids ih =>
      rw [List.foldlM_cons]
      have hbind := bindStatically_gives p targets s
      cases hcall : staticCall? p s with
      | none =>
          rw [hcall] at hbind
          rw [List.filterMap_cons_none hcall]
          exact hbind.bind (ih targets)
      | some c =>
          rw [hcall] at hbind
          rw [List.filterMap_cons_some hcall, List.find?_cons]
          cases hm : (p.resolveCallee? none c.2).isNone with
          | true =>
              simp only [hm, if_true] at hbind
              exact hbind.bind_error _
          | false =>
              rw [List.map_cons, List.reverse_cons, List.append_assoc]
              simp only [hm, Bool.false_eq_true, if_false] at hbind
              exact hbind.bind (ih _)

/-- A table that is made after the check has passed has all methods. -/
theorem complete_of_check {a : Analysis} (h : a.checkStaticCalls = .ok ()) :
    Complete a.program (((Analysis.staticCalls a.program).map (boundTo a.program)).reverse ++ []) := by
  intro s call hkind hbound
  obtain ⟨m, hm⟩ := Analysis.resolved_of_check h hkind hbound
  have hmem_iff {e : StmtId × MethodId} :
      e ∈ ((Analysis.staticCalls a.program).map (boundTo a.program)).reverse ++ [] ↔
        ∃ c ∈ Analysis.staticCalls a.program, boundTo a.program c = e := by
    rw [List.append_nil, List.mem_reverse, List.mem_map]
  have hentry : boundTo a.program (s, call) = (s, m) := by simp [boundTo, hm]
  have hmem := hmem_iff.2 ⟨_, Analysis.mem_staticCalls_iff.2 ⟨hkind, hbound⟩, hentry⟩
  obtain ⟨m', hm'⟩ := Option.isSome_iff_exists.1
    (List.lookup_isSome_iff.2 ⟨_, hmem, beq_self_eq_true s⟩)
  refine ⟨m, ?_, hm⟩
  -- a statement makes one call, so its entries are all the same
  obtain ⟨⟨s', call'⟩, hc, heq⟩ := hmem_iff.1 (Program.mem_of_lookup hm')
  obtain ⟨hkind', -⟩ := Analysis.mem_staticCalls_iff.1 hc
  obtain rfl : s' = s := congrArg Prod.fst heq
  obtain rfl : call' = call := StmtKind.invoke.inj (hkind'.symm.trans hkind)
  exact hm'.trans (congrArg (some ·.2) (heq.symm.trans hentry))

/-- Making the table fails exactly if the check does, for the same reason. A table that is made is
complete. -/
theorem staticTargets_gives (a : Analysis) :
    (∃ e, a.checkStaticCalls = .error e ∧
      Gives a.program (staticTargets a.program) (.error (.refused e))) ∨
    a.checkStaticCalls = .ok () ∧ ∃ targets, Gives a.program (staticTargets a.program) (.ok targets) ∧
      targets.length = (Analysis.staticCalls a.program).length ∧ Complete a.program targets := by
  have hgives := foldlM_bindStatically_gives a.program a.program.stmtIds []
  have hcalls : a.program.stmtIds.filterMap (staticCall? a.program) =
      Analysis.staticCalls a.program := rfl
  rw [hcalls] at hgives
  cases hfind : (Analysis.staticCalls a.program).find?
      fun c => (a.program.resolveCallee? none c.2).isNone with
  | some c =>
      rw [hfind] at hgives
      exact Or.inl ⟨_, by simp only [Analysis.checkStaticCalls, hfind], hgives⟩
  | none =>
      rw [hfind] at hgives
      have hcheck : a.checkStaticCalls = .ok () := by simp only [Analysis.checkStaticCalls, hfind]
      exact Or.inr ⟨hcheck, _, hgives, by simp, complete_of_check hcheck⟩

end Table

/-! ## Steps do not fail -/

section Steps

variable {π : Type} {a : Analysis} {react : Reaction π} {targets : Targets}

/-- The call of a statement is the one of its kind. -/
theorem kind_of_invoke? {s : Stmt} {call : Invoke} (h : s.invoke? = some call) :
    s.kind = .invoke call := by
  unfold Stmt.invoke? at h
  split at h
  · rename_i hkind
    rw [hkind, Option.some.inj h]
  · cases h

/-- An edge that starts at a call is added as in a run without checks. -/
theorem addCall_gives (site : CsCallSite) {call : Invoke}
    (hkind : (a.program.stmtAt site.stmt).kind = .invoke call) (callee : CsMethod) (m : Machine π) :
    Gives a.program (addCall a react call.binding.kind site callee m)
      (.ok (a.addCall react call site callee m)) := by
  have hsite := (m.state.internCallSite site).2.extends_internMethod callee
    |>.isCallSite (m.state.isCallSite_internCallSite site)
  have hcallee := (m.state.internCallSite site).2.isMethod_internMethod callee
  simp only [addCall, Analysis.addCall]
  split
  · exact gives_pure _ _
  · -- the identifiers of the edge lead back to what was interned
    simp only [hsite.callSite, hcallee.method, Stmt.invoke?, hkind]
    exact gives_pure _ _

/-- Visiting an allocation does not fail. -/
theorem visitNew_gives {stmt : StmtId} {lhs : VarId} {type : Ty}
    (hkind : (a.program.stmtAt stmt).kind = .new lhs type) (method : CsMethod) (s : State) :
    Gives a.program (visitNew a method stmt lhs s) (.ok (a.visitNew method stmt lhs type s)) := by
  simp only [visitNew, Heap.objectOf, hkind]
  exact gives_pure _ _

variable (ht : Complete a.program targets)

include ht

/-- A statically bound call is found in a complete table. -/
theorem target_gives {s : StmtId} {call : Invoke} (hkind : (a.program.stmtAt s).kind = .invoke call)
    (hbound : call.binding.kind.isStaticallyBound = true) :
    ∃ m, Gives a.program (targets.target a.program s) (.ok m) ∧
      a.program.resolveCallee? none call = some m := by
  obtain ⟨m, hlookup, hm⟩ := ht s call hkind hbound
  refine ⟨m, ?_, hm⟩
  rw [Targets.target, hlookup]
  exact gives_pure _ m

/-- Visiting a call does not fail. -/
theorem visitInvoke_gives (site : CsCallSite) {call : Invoke}
    (hkind : (a.program.stmtAt site.stmt).kind = .invoke call) (id : CsMethodId) (m : Machine π) :
    Gives a.program (visitInvoke a react targets id site call m)
      (.ok (a.visitInvoke react id site call m)) := by
  unfold visitInvoke Analysis.visitInvoke
  -- only a static call looks into the table when it is visited; special calls wait for their receivers
  cases hbinding : call.binding with
  | static =>
      have hstatic : call.binding.kind = .static := by rw [hbinding]; rfl
      obtain ⟨callee, htarget, hresolve⟩ := target_gives ht hkind (by rw [hstatic]; rfl)
      rw [Program.resolveCallee?, hbinding] at hresolve
      have hadd := @addCall_gives _ _ react site _ hkind ⟨a.selector.calleeContext site, callee⟩
        { m with state := { (m.state.internCallSite site).2 with
          calls := (m.state.internCallSite site).2.calls.addCallSite id
            (m.state.internCallSite site).1 } }
      rw [hstatic] at hadd
      simp only [show a.program.staticTarget? call.target = some callee from hresolve]
      exact htarget.bind hadd
  | special base => exact gives_pure _ _
  | virtual base => exact gives_pure _ _
  | interface base => exact gives_pure _ _

/-- Visiting a statement does not fail. -/
theorem visitStmt_gives (id : CsMethodId) (method : CsMethod) (m : Machine π) (stmt : StmtId) :
    Gives a.program (visitStmt a react targets id method m stmt)
      (.ok (a.visitStmt react id method m stmt)) := by
  unfold visitStmt Analysis.visitStmt
  cases hkind : (a.program.stmtAt stmt).kind with
  | new lhs type => exact (visitNew_gives hkind method m.state).bind (gives_pure _ _)
  | invoke call => exact visitInvoke_gives ht ⟨method.context, stmt⟩ hkind id m
  | _ => exact gives_pure _ _

/-- Visiting a method does not fail. -/
theorem visitMethod_gives (id : CsMethodId) (m : Machine π) :
    Gives a.program (visitMethod a react targets id m) (.ok (a.visitMethod react id m)) :=
  (foldlM_gives (visitStmt_gives ht id _) _ _).bind (gives_pure _ _)

/-- Looking up the callee for a receiver gives what is computed from its type, also for special calls.
-/
theorem callee?_gives {stmt : StmtId} {call : Invoke}
    (hkind : (a.program.stmtAt stmt).kind = .invoke call) (type : Ty) :
    Gives a.program (callee? a targets stmt call type)
      (.ok (a.program.resolveCallee? (some type) call)) := by
  unfold callee?
  split
  · rename_i hspecial
    obtain ⟨callee, htarget, hresolve⟩ := target_gives ht hkind (by rw [hspecial]; rfl)
    have hsame : a.program.resolveCallee? (some type) call = some callee := by
      rw [← hresolve]
      -- the type of the receiver is not looked at
      cases hbinding : call.binding with
      | special base => simp only [Program.resolveCallee?, hbinding]
      | _ =>
          rw [hbinding] at hspecial
          cases hspecial
    rw [hsame]
    exact htarget.bind (gives_pure _ _)
  · exact resolveCallee_gives _ _ _

/-- Resolving a call for a receiver does not fail. -/
theorem dispatchCall_gives (c : Context) (o : CsObjectId) (m : Machine π) (stmt : StmtId) :
    Gives a.program (dispatchCall a react targets c o m stmt)
      (.ok (a.dispatchCall react c o m stmt)) := by
  unfold dispatchCall Analysis.dispatchCall
  cases hcall : (a.program.stmtAt stmt).invoke? with
  | none => exact gives_pure _ m
  | some call =>
      have hkind := kind_of_invoke? hcall
      refine (callee?_gives ht hkind _).bind ?_
      dsimp only
      cases a.program.resolveCallee? (some (m.state.heap.get (m.state.elements.object o).object).type) call
      with
      | none => exact gives_pure _ _
      | some method => exact addCall_gives ⟨c, stmt⟩ hkind _ _

/-- Processing an object does not fail. -/
theorem processObject_gives (c : Context) (v : VarId) (m : Machine π) (o : CsObjectId) :
    Gives a.program (processObject a react targets c v m o) (.ok (a.processObject react c v m o)) :=
  foldlM_gives (dispatchCall_gives ht c o) _ _

/-- Processing objects does not fail. -/
theorem processObjects_gives (p : PointerId) (objects : ObjectSet) (m : Machine π) :
    Gives a.program (processObjects a react targets p objects m)
      (.ok (a.processObjects react p objects m)) := by
  unfold processObjects Analysis.processObjects
  cases m.state.elements.pointer p with
  | var c v => exact (foldlM_gives (processObject_gives ht c v) _ _).bind (gives_pure _ _)
  | _ => exact gives_pure _ m

/-- Processing an entry of the work list does not fail. -/
theorem processFact_gives (p : PointerId) (objects : ObjectSet) (m : Machine π) :
    Gives a.program (processFact a react targets p objects m)
      (.ok (a.processFact react p objects m)) := by
  unfold processFact Analysis.processFact
  dsimp only
  split
  · exact gives_pure _ _
  · exact processObjects_gives ht _ _ _

/-- No step fails, whatever the machine is. -/
theorem step_gives (m : Machine π) : Gives a.program (step a react targets m) (.ok (a.step react m)) := by
  unfold step Analysis.step
  cases m.state.pending.pop? with
  | some entry => exact visitMethod_gives ht _ _
  | none =>
      cases m.state.work.pop? with
      | some entry => exact processFact_gives ht _ _ _
      | none => exact gives_pure _ m

/-- With a complete table, a run from a method gives the result of the run without checks. -/
theorem solveFrom_gives (entry : MethodId) (extensions : List π) (s : State) :
    Gives a.program (solveFrom a react targets entry extensions s)
      ((a.solveFrom react entry extensions s).result.mapError .refused) := by
  have hadvance (isDone : Machine π → Bool) (m : Machine π) :
      Gives a.program (advance a react targets isDone m) (.ok (a.advance react isDone m)) :=
    rounds_gives (step_gives ht) _ _ _
  refine (hadvance _ _).bind ?_
  unfold Analysis.solveFrom
  dsimp only
  split
  · exact gives_throw _ _
  · refine (hadvance _ _).bind ?_
    split
    · exact gives_throw _ _
    · exact ofResult_gives _ _

end Steps

/-- A checked run has the result of a run without checks, whatever the program and the extensions are. -/
theorem solve_gives {π : Type} (a : Analysis) (react : Reaction π) (extensions : List π) :
    Gives a.program (solve a react extensions)
      ((a.solve react extensions).result.mapError .refused) := by
  have hentry := ofResult_gives a.program a.entryMethod
  unfold solve Analysis.solve
  cases hmethod : a.entryMethod with
  | error e =>
      rw [hmethod] at hentry
      exact hentry.bind_error _
  | ok entry =>
      rw [hmethod] at hentry
      refine hentry.bind ?_
      rcases staticTargets_gives a with ⟨e, hcheck, htargets⟩ | ⟨hcheck, targets, htargets, hlength, ht⟩
      · rw [hcheck]
        exact htargets.bind_error _
      · rw [hcheck, ← hlength]
        exact htargets.bind (solveFrom_gives ht _ _ _)

end Checked

/-! ## What a run is refused for -/

/-- The run starts from the method: it is the one that the option names, or the entry of the program if
there is no such option. -/
inductive Program.StartsFrom (p : Program) : Option String → MethodId → Prop where
  | named {text : String} {m : MethodId} (parsed : MethodRef.parse text = .ok (p.methodAt m).ref)
      (lt : m.idx < p.methods.size) : StartsFrom p (some text) m
  | entry {m : MethodId} (entry : p.entry? = some m) : StartsFrom p none m

/-- There is no method to start from, and the error says why. -/
inductive Program.LacksStart (p : Program) : Option String → AnalysisError → Prop where
  | descriptor {text : String} {e : DescriptorError} (parsed : MethodRef.parse text = .error e) :
      LacksStart p (some text) (.program (.descriptor e))
  | missing {text : String} {r : MethodRef} (parsed : MethodRef.parse text = .ok r)
      (other : ∀ m, m.idx < p.methods.size → (p.methodAt m).ref ≠ r) :
      LacksStart p (some text) (.missingEntryPoint ("method " ++ text ++ " not found"))
  | entry (missing : p.entry? = none) :
      LacksStart p none (.missingEntryPoint "program has no entry method")

/-- The statement is a static or special call without a method. -/
def Program.Unbound (p : Program) (s : StmtId) (call : Invoke) : Prop :=
  (p.stmtAt s).kind = .invoke call ∧ call.binding.kind.isStaticallyBound = true ∧
    p.resolveCallee? none call = none

/-- What a run with the given option for the entry method is refused for: that there is no method to
start from, or else the first static or special call without a method. -/
inductive Program.Refuses (p : Program) (entry : Option String) : AnalysisError → Prop where
  | start {e : AnalysisError} (lacks : p.LacksStart entry e) : Refuses p entry e
  | call {m : MethodId} {s : StmtId} {call : Invoke} (starts : p.StartsFrom entry m)
      (unbound : p.Unbound s call) (first : ∀ s' call', p.Unbound s' call' → s.idx ≤ s'.idx) :
      Refuses p entry (.unresolvedStaticCallee (p.stmtText s) call.target.text)

/-- No run is refused for a failure of the solver. -/
theorem Program.Refuses.isInternal {p : Program} {entry : Option String} {e : AnalysisError}
    (h : p.Refuses entry e) : (Failure.refused e).isInternal = false := by
  cases h with
  | start lacks => cases lacks <;> rfl
  | call => rfl

section Start

variable {d : ProgramDef} {p : Program} (h : p.Consistent d)

include h

/-- A reference leads to the method that has it, which is declared in exactly the class that it names. -/
theorem Program.Consistent.findMethod?_eq_some_iff {r : MethodRef} {m : MethodId} :
    p.findMethod? r = some m ↔ m.idx < p.methods.size ∧ (p.methodAt m).ref = r := by
  simp only [findMethod?, Option.bind_eq_bind, Option.bind_eq_some_iff, h.find, h.method]
  constructor
  · rintro ⟨c, ⟨-, hname⟩, hm, rfl, hsubsignature⟩
    refine ⟨hm, ?_⟩
    have hclass := (h.methodOwner m hm).2.trans hname
    cases r
    exact congrArg₂ MethodRef.mk hclass hsubsignature
  · rintro ⟨hm, rfl⟩
    obtain ⟨howner, hname⟩ := h.methodOwner m hm
    exact ⟨_, ⟨howner, hname.symm⟩, hm, rfl, rfl⟩

/-- There is a method to start from, or a reason why there is none. -/
theorem Program.Consistent.startsFrom_or_lacksStart (entry : Option String) :
    (∃ m, p.StartsFrom entry m) ∨ ∃ e, p.LacksStart entry e := by
  cases entry with
  | none =>
      cases hentry : p.entry? with
      | none => exact Or.inr ⟨_, .entry hentry⟩
      | some m => exact Or.inl ⟨m, .entry hentry⟩
  | some text =>
      cases hparse : MethodRef.parse text with
      | error e => exact Or.inr ⟨_, .descriptor hparse⟩
      | ok r =>
          cases hfind : p.findMethod? r with
          | none =>
              refine Or.inr ⟨_, .missing hparse fun m hm hr => ?_⟩
              rw [h.findMethod?_eq_some_iff.2 ⟨hm, hr⟩] at hfind
              cases hfind
          | some m =>
              obtain ⟨hm, rfl⟩ := h.findMethod?_eq_some_iff.1 hfind
              exact Or.inl ⟨m, .named hparse hm⟩

variable {o : Options} {sel : Selector} {model : HeapModel}

/-- A method to start from is the entry method of the analysis. -/
theorem Analysis.entryMethod_of_startsFrom {m : MethodId} (hm : p.StartsFrom o.entry m) :
    entryMethod ⟨p, o, sel, model⟩ = .ok m := by
  unfold entryMethod
  generalize o.entry = entry at hm
  cases hm with
  | named parsed lt => simp only [parsed, h.findMethod?_eq_some_iff.2 ⟨lt, rfl⟩]
  | entry entry => simp only [entry]

/-- A reason why there is no method to start from is the error of the analysis. -/
theorem Analysis.entryMethod_of_lacksStart {e : AnalysisError} (he : p.LacksStart o.entry e) :
    entryMethod ⟨p, o, sel, model⟩ = .error e := by
  unfold entryMethod
  generalize o.entry = entry at he
  cases he with
  | descriptor parsed => simp only [parsed]
  | @missing text r parsed other =>
      have hfind : p.findMethod? r = none := Option.eq_none_iff_forall_ne_some.2 fun m hm => by
        obtain ⟨hlt, hr⟩ := h.findMethod?_eq_some_iff.1 hm
        exact other m hlt hr
      simp only [parsed, hfind]
  | entry missing => simp only [missing]

/-- The entry method of the analysis is the one to start from. -/
theorem Analysis.entryMethod_ok_iff {m : MethodId} :
    entryMethod ⟨p, o, sel, model⟩ = .ok m ↔ p.StartsFrom o.entry m := by
  refine ⟨fun hm => ?_, entryMethod_of_startsFrom h⟩
  rcases h.startsFrom_or_lacksStart o.entry with ⟨m', hm'⟩ | ⟨e, he⟩
  · rw [entryMethod_of_startsFrom h hm'] at hm
    cases hm
    exact hm'
  · rw [entryMethod_of_lacksStart h he] at hm
    cases hm

end Start

/-! ## The first call without a method -/

section Calls

variable {a : Analysis}

/-- The statically bound calls are listed in the order of their statements. -/
theorem Analysis.pairwise_staticCalls (p : Program) :
    (staticCalls p).Pairwise fun c c' => c.1.idx < c'.1.idx := by
  have hstmt {s : StmtId} {c : StmtId × Invoke} (hc : Checked.staticCall? p s = some c) : c.1 = s := by
    unfold Checked.staticCall? at hc
    split at hc
    · split at hc
      · cases hc
        rfl
      · cases hc
    · cases hc
  have hids : p.stmtIds.Pairwise fun s s' => s.idx < s'.idx := by
    rw [Program.stmtIds, List.pairwise_map]
    exact List.pairwise_lt_range
  show (p.stmtIds.filterMap (Checked.staticCall? p)).Pairwise _
  refine List.Pairwise.filterMap _ (fun s s' hlt c hc c' hc' => ?_) hids
  rwa [hstmt hc, hstmt hc']

/-- The unbound calls are those of the list without a method. -/
theorem Program.unbound_iff {p : Program} {s : StmtId} {call : Invoke} : p.Unbound s call ↔
    (s, call) ∈ Analysis.staticCalls p ∧ (p.resolveCallee? none call).isNone = true := by
  rw [Analysis.mem_staticCalls_iff, Option.isNone_iff_eq_none, and_assoc]
  rfl

/-- The call without a method that is found comes first. -/
theorem Program.Unbound.of_find? {p : Program} {s : StmtId} {call : Invoke}
    (hfind : (Analysis.staticCalls p).find? (fun c => (p.resolveCallee? none c.2).isNone) =
      some (s, call)) :
    p.Unbound s call ∧ ∀ s' call', p.Unbound s' call' → s.idx ≤ s'.idx := by
  obtain ⟨hnone, before, after, hcalls, hbefore⟩ := List.find?_eq_some_iff_append.1 hfind
  refine ⟨Program.unbound_iff.2 ⟨List.mem_of_find?_eq_some hfind, hnone⟩, fun s' call' h' => ?_⟩
  obtain ⟨hmem', hnone'⟩ := Program.unbound_iff.1 h'
  have hpairwise := Analysis.pairwise_staticCalls p
  rw [hcalls, List.pairwise_append] at hpairwise
  rw [hcalls, List.mem_append, List.mem_cons] at hmem'
  rcases hmem' with hmem' | heq | hmem'
  · -- the calls before the first one without a method have methods
    have := hbefore _ hmem'
    simp [hnone'] at this
  · cases heq
    exact Nat.le_refl _
  · exact Nat.le_of_lt ((List.pairwise_cons.1 hpairwise.2.1).1 _ hmem')

/-- The check fails at the call without a method that comes first. -/
theorem Analysis.checkStaticCalls_error_iff {e : AnalysisError} :
    a.checkStaticCalls = .error e ↔ ∃ s call, a.program.Unbound s call ∧
      (∀ s' call', a.program.Unbound s' call' → s.idx ≤ s'.idx) ∧
      e = .unresolvedStaticCallee (a.program.stmtText s) call.target.text := by
  unfold checkStaticCalls
  constructor
  · intro h
    split at h
    · rename_i s call hfind
      cases h
      obtain ⟨hs, hle⟩ := Program.Unbound.of_find? hfind
      exact ⟨s, call, hs, hle, rfl⟩
    · cases h
  · rintro ⟨s, call, hs, hle, rfl⟩
    split
    · rename_i s' call' hfind
      -- both calls come first
      obtain ⟨hs', hle'⟩ := Program.Unbound.of_find? hfind
      obtain rfl : s' = s := congrArg StmtId.mk (Nat.le_antisymm (hle' s call hs) (hle s' call' hs'))
      obtain rfl : call' = call := StmtKind.invoke.inj (hs'.1.symm.trans hs.1)
      rfl
    · rename_i hfind
      obtain ⟨hmem, hnone⟩ := Program.unbound_iff.1 hs
      exact absurd hnone (List.find?_eq_none.1 hfind _ hmem)

end Calls

/-! ## The main result -/

section Main

variable {d : ProgramDef} {p : Program}

/-- A run that is refused reports its start, and nothing else. Whatever the extensions are, none of them
is told anything, and no step is made. -/
theorem Analysis.solve_of_refuses (h : p.Consistent d) {o : Options} {e : AnalysisError}
    (he : p.Refuses o.entry e) (sel : Selector) (model : HeapModel) {π : Type} (react : Reaction π)
    (extensions : List π) :
    solve ⟨p, o, sel, model⟩ react extensions =
      ⟨.error e, #[⟨.debug, "starting " ++ o.selector.text ++ " points-to analysis"⟩]⟩ := by
  unfold solve
  cases he with
  | start lacks =>
      rw [entryMethod_of_lacksStart h lacks]
      rfl
  | call starts unbound first =>
      have hcheck := checkStaticCalls_error_iff (a := ⟨p, o, sel, model⟩).2
        ⟨_, _, unbound, first, rfl⟩
      rw [entryMethod_of_startsFrom h starts, hcheck]
      rfl

/-- A run is refused, or it has a method to start from and passes the check. -/
theorem Program.Consistent.refuses_or_starts (h : p.Consistent d) (o : Options) (sel : Selector)
    (model : HeapModel) : (∃ e, p.Refuses o.entry e) ∨
      (∃ m, p.StartsFrom o.entry m) ∧ Analysis.checkStaticCalls ⟨p, o, sel, model⟩ = .ok () := by
  rcases h.startsFrom_or_lacksStart o.entry with ⟨m, hm⟩ | ⟨e, he⟩
  · cases hcheck : Analysis.checkStaticCalls ⟨p, o, sel, model⟩ with
    | ok => exact Or.inr ⟨⟨m, hm⟩, rfl⟩
    | error e =>
        obtain ⟨s, call, hs, hfirst, -⟩ := Analysis.checkStaticCalls_error_iff.1 hcheck
        exact Or.inl ⟨_, .call hm hs hfirst⟩
  · exact Or.inl ⟨e, .start he⟩

/-- A run without further extensions is refused exactly for what the program refuses. -/
theorem Analysis.solveWith_error_iff (hp : (Program.build d).1 = .ok p) (o : Options) (sel : Selector)
    {e : AnalysisError} :
    (solveWith ⟨p, o, sel, .allocationSite⟩ []).result = .error e ↔ p.Refuses o.entry e := by
  have h := (Program.build_underway hp).consistent (Program.build_wellFormed hp)
  have hrefused {e} (he : p.Refuses o.entry e) :
      (solveWith ⟨p, o, sel, .allocationSite⟩ []).result = .error e := by
    rw [solveWith, solve_of_refuses h he]
  refine ⟨fun he => ?_, hrefused⟩
  rcases h.refuses_or_starts o sel .allocationSite with ⟨e', he'⟩ | ⟨⟨m, hm⟩, hcheck⟩
  · rw [hrefused he'] at he
    cases he
    exact he'
  · obtain ⟨r, hr⟩ := exists_solveWith (Program.build_wellFormed hp) rfl
      (entryMethod_of_startsFrom h hm) hcheck
    rw [hr] at he
    cases he

/-- A checked run fails only as the run does. -/
theorem Checked.solve_error {π : Type} {a : Analysis} {react : Reaction π} {extensions : List π}
    {memo memo' : Memo} (hmemo : Memo.Valid a.program memo) {f : Failure}
    (hf : (Checked.solve a react extensions).run memo = (.error f, memo')) :
    ∃ e, (a.solve react extensions).result = .error e ∧ f = .refused e := by
  obtain ⟨hchecked, -⟩ := Checked.solve_gives a react extensions memo hmemo
  rw [hf] at hchecked
  cases hresult : (a.solve react extensions).result with
  | ok r =>
      rw [hresult] at hchecked
      cases hchecked
  | error e =>
      rw [hresult] at hchecked
      cases hchecked
      exact ⟨e, rfl, rfl⟩

/-- Runs of a loaded program without further extensions. Such a run gives a result exactly if there is a
method to start from and every static and every special call of the program has a method. Otherwise it
is refused for the entry method, or else for the first of those calls. What it is refused for does not
depend on the selector. A checked run, which looks everything up where it is needed, has the same outcome,
so it never fails inside the solver; and a run that is refused makes no step. -/
theorem Analysis.solve_fails_iff (hp : (Program.build d).1 = .ok p) (o : Options) (sel : Selector) :
    ((∃ r, (solveWith ⟨p, o, sel, .allocationSite⟩ []).result = .ok r) ↔
      (∃ m, p.StartsFrom o.entry m) ∧ ∀ s ∈ p.stmtIds, ∀ call, (p.stmtAt s).kind = .invoke call →
        call.binding.kind.isStaticallyBound = true → ∃ m, p.resolveCallee? none call = some m) ∧
    (∀ e, (solveWith ⟨p, o, sel, .allocationSite⟩ []).result = .error e ↔ p.Refuses o.entry e) ∧
    (∀ memo, Memo.Valid p memo →
      ((Checked.solve ⟨p, o, sel, .allocationSite⟩ (Extension.react p o) o.stock).run memo).1 =
        (solveWith ⟨p, o, sel, .allocationSite⟩ []).result.mapError .refused ∧
      ∀ f memo', (Checked.solve ⟨p, o, sel, .allocationSite⟩ (Extension.react p o) o.stock).run memo =
        (.error f, memo') → f.isInternal = false) ∧
    ∀ e, p.Refuses o.entry e → ∀ (π : Type) (react : Reaction π) (extensions : List π),
      solve ⟨p, o, sel, .allocationSite⟩ react extensions =
        ⟨.error e, #[⟨.debug, "starting " ++ o.selector.text ++ " points-to analysis"⟩]⟩ := by
  have wf := Program.build_wellFormed hp
  have h := (Program.build_underway hp).consistent wf
  have hsolve : (solveWith ⟨p, o, sel, .allocationSite⟩ []).result =
      (solve ⟨p, o, sel, .allocationSite⟩ (Extension.react p o) o.stock).result := by
    rw [solveWith, List.append_nil]
    rfl
  refine ⟨⟨?_, ?_⟩, fun e => solveWith_error_iff hp o sel, fun memo hmemo => ⟨?_, fun f memo' hf => ?_⟩,
    fun e he π react extensions => solve_of_refuses h he sel _ react extensions⟩
  · rintro ⟨r, hr⟩
    obtain ⟨entry, hentry, hcheck, -⟩ := finished_of_solveWith wf rfl hr
    exact ⟨⟨entry, (entryMethod_ok_iff h).1 hentry⟩, fun s _ call => checkStaticCalls_ok_iff.1 hcheck s call⟩
  · rintro ⟨⟨m, hm⟩, hcalls⟩
    refine exists_solveWith wf rfl (entryMethod_of_startsFrom h hm)
      (checkStaticCalls_ok_iff.2 fun s call hkind hbound => ?_)
    -- a statement with a call is one of the program, as all others are returns
    have hs : s.idx < p.stmts.size := Program.lt_size_of_kind (by rw [hkind]; exact StmtKind.noConfusion)
    exact hcalls s (List.mem_map.2 ⟨s.idx, List.mem_range.2 hs, rfl⟩) call hkind hbound
  · rw [hsolve]
    exact (Checked.solve_gives _ _ _ memo hmemo).1
  · obtain ⟨e, he, rfl⟩ := Checked.solve_error (a := ⟨p, o, sel, .allocationSite⟩) hmemo hf
    exact ((solveWith_error_iff hp o sel).1 (hsolve.trans he)).isInternal

/-- A call of a static method without parameters of the class `A`. -/
def Invoke.ofStatic (name : String) : Invoke := ⟨.static, ⟨"A", ⟨name, [], .void⟩⟩, [], none⟩

/-- A method that calls itself, and then two methods that are not there: one statically, the other by a
special call. -/
def ProgramDef.unbound : ProgramDef :=
  ⟨none, [⟨"A", none, [], false, false, [], [
    ⟨"main", [], "V", true, false, false, [⟨"x", "LA;"⟩], [
      .invoke .static none "LA;->main()V" [] none,
      .invoke .static none "LA;->lost()V" [] none,
      .invoke .special (some "x") "LA;->hidden()V" [] none]⟩]⟩]⟩

/-- The sample is analysed from its entry method and refused for an option that names no method. The
other program is refused for the first of its calls that have no method, which is its second call. -/
theorem Analysis.solve_fails_iff_sample :
    (∃ p e, (Program.build .sample).1 = .ok p ∧
      (∃ r, (solveWith ⟨p, ⟨.insensitive, none, true⟩, .object 1, .allocationSite⟩ []).result = .ok r) ∧
      (solveWith ⟨p, ⟨.insensitive, some "rest", true⟩, .object 1, .allocationSite⟩ []).result =
        .error (.program (.descriptor e))) ∧
    ∃ p, (Program.build .unbound).1 = .ok p ∧
      (solveWith ⟨p, ⟨.insensitive, none, true⟩, .object 1, .allocationSite⟩ []).result =
        .error (.unresolvedStaticCallee "LA;->main()V@1" "LA;->lost()V") := by
  constructor
  · obtain ⟨p, r, hp, hr⟩ := ProgramDef.sample_solved true
    obtain ⟨e, he⟩ : ∃ e, MethodRef.parse "rest" = .error e := ⟨_, rfl⟩
    obtain ⟨hok, -⟩ := solve_fails_iff hp ⟨.insensitive, none, true⟩ (.object 1)
    obtain ⟨-, herror, -⟩ := solve_fails_iff hp ⟨.insensitive, some "rest", true⟩ (.object 1)
    exact ⟨p, e, hp, hok.2 (hok.1 ⟨r, hr⟩), (herror _).2 (.start (.descriptor he))⟩
  · have hfacts : (match (Program.build .unbound).1 with
        | .ok p => decide (p.entry? = some ⟨0⟩ ∧ p.stmtText ⟨1⟩ = "LA;->main()V@1" ∧
            (p.stmtAt ⟨0⟩).kind = .invoke (.ofStatic "main") ∧
            p.resolveCallee? none (.ofStatic "main") = some ⟨0⟩ ∧
            (p.stmtAt ⟨1⟩).kind = .invoke (.ofStatic "lost") ∧
            p.resolveCallee? none (.ofStatic "lost") = none)
        | .error _ => false) = true := by
      decide +kernel
    obtain ⟨p, hp⟩ : ∃ p, (Program.build .unbound).1 = .ok p := exists_ok_of_toBool (by decide +kernel)
    rw [hp, decide_eq_true_eq] at hfacts
    obtain ⟨hentry, htext, hmain, hbound, hlost, hunbound⟩ := hfacts
    -- the call in front of the lost one has a method
    have hfirst : ∀ s call, p.Unbound s call → 1 ≤ s.idx := by
      rintro ⟨_ | i⟩ call ⟨hkind, -, hnone⟩
      · rw [hmain] at hkind
        cases hkind
        rw [hbound] at hnone
        cases hnone
      · exact Nat.le_add_left 1 i
    obtain ⟨-, herror, -⟩ := solve_fails_iff hp ⟨.insensitive, none, true⟩ (.object 1)
    have hrefuses := Program.Refuses.call (.entry hentry) ⟨hlost, rfl, hunbound⟩ hfirst
    rw [htext] at hrefuses
    exact ⟨p, hp, (herror _).2 hrefuses⟩

end Main

end PointsTo
