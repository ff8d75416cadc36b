import PointsTo.Proofs.Result.Agreement
import PointsTo.Proofs.Result.ClassHierarchy
import PointsTo.Proofs.Solver.Translation

/-! # Calls without a method

A call on a variable is resolved for each object of the variable in each context. For some of them it may
have no method. The call is then recorded, once however often that happens, and nothing else comes of these
objects; the others are called on as if they were alone.
-/

namespace PointsTo

/-! ## Dispatched calls -/

/-- The statement is a call that is dispatched on the objects of a variable. -/
def Program.DispatchesOn (p : Program) (s : StmtId) (call : Invoke) (base : VarId) : Prop :=
  (p.stmtAt s).kind = .invoke call ∧ (call.binding = .virtual base ∨ call.binding = .interface base)

namespace Program.DispatchesOn

variable {p : Program} {s : StmtId} {call : Invoke} {base : VarId}

/-- The variable that a call is dispatched on is its base. -/
theorem base? (h : p.DispatchesOn s call base) : call.binding.base? = some base := by
  obtain ⟨-, hbinding | hbinding⟩ := h <;> rw [hbinding] <;> rfl

/-- A call on a variable is dispatched if it is not bound to a method. -/
theorem of_base? (hkind : (p.stmtAt s).kind = .invoke call) (hbase : call.binding.base? = some base)
    (hbound : call.binding.kind.isStaticallyBound = false) : p.DispatchesOn s call base := by
  obtain ⟨v, hbinding⟩ := binding_of_dispatched hbound
  obtain rfl : v = base := by
    rcases hbinding with hbinding | hbinding <;> rw [hbinding] at hbase <;> exact Option.some.inj hbase
  exact ⟨hkind, hbinding⟩

end Program.DispatchesOn

namespace Solution

variable (r : Solution)

/-- The method that a call has for an object. -/
def methodFor? (call : Invoke) (o : CsObjectId) : Option MethodId :=
  r.program.resolveCallee? (some (r.state.heapObject o).object.type) call

/-- The callee of a call for an object: its method, in the context that is selected for the object. -/
def calleeFor? (sel : Selector) (site : CsCallSite) (call : Invoke) (o : CsObjectId) : Option CsMethod :=
  (r.methodFor? call o).map (⟨sel.receiverContext site (r.state.elements.object o), ·⟩)

end Solution

namespace Solution.Answers

variable {a : Analysis} {r : Solution} {entry : MethodId} (h : r.Answers a entry) {s : StmtId}
  {call : Invoke} {base : VarId}

include h

/-- An object with a type has the method that the call resolves to for this type. -/
theorem methodFor?_eq {o : CsObjectId} {y : HeapObject} (ho : r.state.Denotes o y) :
    r.methodFor? call o = a.program.resolveCallee? (some y.object.type) call := by
  rw [methodFor?, ho.heapObject, h.program]

/-- The callee for an object is the one to which the call is dispatched. -/
theorem dispatches_iff {c : Context} {caller : MethodId} (hstmt : s ∈ a.program.stmtsOf caller)
    (hkind : (a.program.stmtAt s).kind = .invoke call) (hbase : call.binding.base? = some base)
    {o : CsObjectId} {y : HeapObject} (ho : r.state.Denotes o y) {m : CsMethod} :
    Dispatches a.program a.selector r.state.heap.find? ⟨c, caller⟩ s call base y m ↔
      r.calleeFor? a.selector ⟨c, s⟩ call o = some m := by
  rw [calleeFor?, h.methodFor?_eq ho]
  obtain ⟨i, hi, hobject⟩ := id ho
  have hname := h.sound.distinct.find? hobject
  rw [hi.object, Option.map_eq_some_iff]
  constructor
  · intro d
    obtain ⟨j, hj, hcontext⟩ := d.context
    obtain rfl : i = j := Option.some.inj (hname.symm.trans hj)
    exact ⟨m.method, d.target, by rw [← hcontext]⟩
  · rintro ⟨method, htarget, rfl⟩
    exact ⟨hstmt, hkind, hbase, htarget, i, hname, rfl⟩

/-- The calls of a statement on a variable are those that the objects of the variable give rise to. -/
theorem holds_call_iff (hkind : (a.program.stmtAt s).kind = .invoke call)
    (hbase : call.binding.base? = some base) {c : Context} {k : CallKind} {m : CsMethod} :
    r.Holds (.call k ⟨c, s⟩ m) ↔ k = call.binding.kind ∧
      ∃ o, (r.pointsToCsVar c base).contains o = true ∧
        r.calleeFor? a.selector ⟨c, s⟩ call o = some m := by
  constructor
  · intro hcall
    -- Only the rules for calls conclude a call, and of these only dispatch is about one with a base.
    cases (h.holds_iff _).1 hcall with
    | intro rule premises =>
        cases rule with
        | given hgiven => cases hgiven
        | staticCall stmt kind binding target =>
            cases hkind.symm.trans kind
            rw [binding] at hbase
            cases hbase
        | @dispatch caller _ _ _ y _ d =>
            cases hkind.symm.trans d.kind
            cases hbase.symm.trans d.base
            have hy := (h.holds_iff _).2 (premises (.pointsTo (.var caller.context base) y) (by simp))
            obtain ⟨o, ho, hd⟩ := h.sound.exists_object hy
            exact ⟨rfl, o, ho, (h.dispatches_iff d.stmt hkind hbase hd).1 d⟩
  · rintro ⟨rfl, o, ho, hcallee⟩
    obtain ⟨y, hd, hy⟩ := h.sound.exists_denotes ho
    have hderived := (h.holds_iff _).1 hy
    -- the call is in the body of the method of its base variable, which has objects where it is reachable
    have haccess : (a.program.stmtAt s).kind.access? = some (.call, base) := by
      rw [hkind, StmtKind.access?, hbase]
      rfl
    have hdispatch := (h.dispatches_iff (h.wf.mem_stmtsOf_access haccess) hkind hbase hd).2 hcallee
    refine (h.holds_iff _).2 (.intro (.dispatch hdispatch) fun q hq => ?_)
    rcases List.mem_cons.1 hq with rfl | hq
    · exact Derivable.owner h.wf hderived
    · obtain rfl := List.mem_singleton.1 hq
      exact hderived

/-- A call is recorded if it is dispatched and has no method for some object of its base variable. -/
theorem mem_unresolved_iff (hcheck : a.checkStaticCalls = .ok ())
    (hfinished : Finished (a.theory h.wf entry) r.state) :
    s ∈ r.state.unresolved ↔ ∃ call base c o, a.program.DispatchesOn s call base ∧
      (r.pointsToCsVar c base).contains o = true ∧ r.methodFor? call o = none := by
  constructor
  · intro hs
    obtain ⟨call, base, c, y, hkind, hbase, hadm, hnone⟩ := h.sound.unresolved s hs
    obtain ⟨o, ho, hd⟩ := h.sound.exists_object ((h.holds_iff _).2 hadm)
    refine ⟨call, base, c, o, .of_base? hkind hbase ?_, ho, by rwa [h.methodFor?_eq hd]⟩
    -- calls that are bound to a method have one, whatever the object
    refine Bool.eq_false_iff.2 fun hbound => ?_
    obtain ⟨m, hm⟩ := Analysis.resolved_of_check hcheck hkind hbound
    rw [Program.resolveCallee?_of_bound hbound, hm] at hnone
    cases hnone
  · rintro ⟨call, base, c, o, hdispatch, ho, hnone⟩
    obtain ⟨y, hd, hy⟩ := h.sound.exists_denotes ho
    rw [h.methodFor?_eq hd] at hnone
    exact hfinished.mem_unresolved h.wf hdispatch.1 hdispatch.base? hy hnone

end Solution.Answers

/-- The number of unresolved calls is that of the dispatched calls that have no method for some object of
their base variable in some context. Such an object gives rise to no call edge, and every other object to
the one to its callee. -/
theorem Analysis.unresolved_exact {d : ProgramDef} {p : Program} {o : Options} {sel : Selector}
    {r : Solution} (hp : (Program.build d).1 = .ok p)
    (hr : (Analysis.solveWith ⟨p, o, sel, .allocationSite⟩ []).result = .ok r) :
    r.statistics.unresolved = {s | ∃ call base c x, p.DispatchesOn s call base ∧
      (r.pointsToCsVar c base).contains x = true ∧ r.methodFor? call x = none}.ncard ∧
    ∀ s call base, p.DispatchesOn s call base → ∀ c k m, r.Holds (.call k ⟨c, s⟩ m) ↔
      k = call.binding.kind ∧ ∃ x, (r.pointsToCsVar c base).contains x = true ∧
        r.calleeFor? sel ⟨c, s⟩ call x = some m := by
  have wf := Program.build_wellFormed hp
  obtain ⟨entry, hentry, h⟩ := Analysis.answers_of_solveWith wf rfl hr
  obtain ⟨entry', hentry', hcheck, -, hfinished, -⟩ := Analysis.finished_of_solveWith wf rfl hr
  obtain rfl : entry = entry' := Except.ok.inj (hentry.symm.trans hentry')
  obtain ⟨_, _, hlists, -⟩ := Analysis.lists_of_solve hr
  have hcount : r.statistics.unresolved = r.state.unresolved.toList.length := rfl
  refine ⟨?_, fun s call base hd c k m => h.holds_call_iff hd.1 hd.base?⟩
  rw [hcount]
  refine (ncard_eq_length hlists.unresolved fun s => ?_).symm
  rw [Array.mem_toList_iff]
  exact (h.mem_unresolved_iff hcheck hfinished).symm

/-- A call on an instance of a class that has the method, and on one of a class that does not. -/
def ProgramDef.unanswered : ProgramDef :=
  ⟨none, [⟨"A", none, [], false, false, [], [
    ⟨"run", [], "V", false, false, false, [], []⟩]⟩,
    ⟨"B", none, [], false, false, [], []⟩,
    ⟨"Main", none, [], false, false, [], [
    ⟨"main", [], "V", true, false, false, [⟨"x", "LA;"⟩], [
      .new "x" "LA;",
      .new "x" "LB;",
      .invoke .virtual (some "x") "LA;->run()V" [] none]⟩]⟩]⟩

def Invoke.unanswered : Invoke := ⟨.virtual ⟨1⟩, ⟨"A", ⟨"run", [], .void⟩⟩, [], none⟩

/-- The call is answered for the first object and not for the second one. -/
theorem Analysis.unresolved_exact_unanswered : ∃ p r, (Program.build .unanswered).1 = .ok p ∧
    (solveWith ⟨p, ⟨.insensitive, none, false⟩, .object 1, .allocationSite⟩ []).result = .ok r ∧
    p.DispatchesOn ⟨2⟩ .unanswered ⟨1⟩ ∧ (r.pointsToCsVar [] ⟨1⟩).toList = [⟨0⟩, ⟨1⟩] ∧
    r.methodFor? .unanswered ⟨1⟩ = none ∧
    {s | ∃ call base c x, p.DispatchesOn s call base ∧ (r.pointsToCsVar c base).contains x = true ∧
      r.methodFor? call x = none}.ncard = 1 ∧
    r.Holds (.call .virtual ⟨[], ⟨2⟩⟩ ⟨[.object ⟨0⟩], ⟨0⟩⟩) := by
  have hrun : ∃ p, (Program.build .unanswered).1 = .ok p ∧ ∃ r,
      (solveWith ⟨p, ⟨.insensitive, none, false⟩, .object 1, .allocationSite⟩ []).result = .ok r ∧
      (p.stmtAt ⟨2⟩).kind = .invoke .unanswered ∧ r.statistics.unresolved = 1 ∧
      (r.pointsToCsVar [] ⟨1⟩).toList = [⟨0⟩, ⟨1⟩] ∧ (r.pointsToCsVar [] ⟨1⟩).contains ⟨0⟩ = true ∧
      r.methodFor? .unanswered ⟨1⟩ = none ∧
      r.calleeFor? (.object 1) ⟨[], ⟨2⟩⟩ .unanswered ⟨0⟩ = some ⟨[.object ⟨0⟩], ⟨0⟩⟩ := by
    decide +kernel
  obtain ⟨p, hp, r, hr, hkind, hcount, hobjects, hmem, hnone, hcallee⟩ := hrun
  have hdispatch : p.DispatchesOn ⟨2⟩ .unanswered ⟨1⟩ := ⟨hkind, Or.inl rfl⟩
  obtain ⟨hunresolved, hcalls⟩ := unresolved_exact hp hr
  exact ⟨p, r, hp, hr, hdispatch, hobjects, hnone, hunresolved.symm.trans hcount,
    (hcalls _ _ _ hdispatch _ _ _).2 ⟨rfl, _, hmem, hcallee⟩⟩

end PointsTo
