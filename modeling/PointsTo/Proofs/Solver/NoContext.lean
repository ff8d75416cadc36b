import PointsTo.Proofs.Solver.Grounding
import PointsTo.Proofs.Solver.Truncation

/-! # Selectors that keep no tokens

A selector that keeps no tokens makes an insensitive analysis. That is so for objects and for calls on
receivers whatever the contexts are; but a static call keeps the context of its caller if contexts are
made of objects or of types. So the steps of a run are those of the insensitive run because no context
but the empty one is ever met.
-/

namespace PointsTo

/-! ## Selectors -/

namespace Selector

variable {sel : Selector} (h : sel.bound = 0)

include h

/-- A selector that keeps no token puts every object into the empty context. -/
theorem heapContext_of_bound (m : CsMethod) : sel.heapContext m = [] := by
  cases sel with
  | insensitive => rfl
  | callSite k | object k | type k =>
      obtain rfl : k = 0 := h
      exact Context.lastK_zero _

/-- A selector that keeps no token selects the empty context for every receiver. -/
theorem receiverContext_of_bound (site : CsCallSite) (o : CsObject) :
    sel.receiverContext site o = [] := by
  cases sel with
  | insensitive => rfl
  | callSite k | object k | type k => exact if_pos h

/-- The callee of a static call gets no context if the caller has none. -/
theorem calleeContext_of_bound {site : CsCallSite} (hsite : site.context = []) :
    sel.calleeContext site = [] := by
  cases sel with
  | insensitive => rfl
  | callSite k => exact if_pos h
  | object k | type k => exact hsite

end Selector

/-! ## States -/

/-- Whatever the state has met, it has met in the empty context. -/
structure State.Contextless (s : State) : Prop where
  var : ∀ i c v, s.IsPointer i (.var c v) → c = []
  object : ∀ i o, s.IsObject i o → o.context = []
  callSite : ∀ i site, s.IsCallSite i site → site.context = []
  method : ∀ i m, s.IsMethod i m → m.context = []

/-- A state that agrees with a contextless one is contextless. -/
theorem State.Contextless.agrees {s t : State} (h : s.Contextless) (hst : s.Agrees t) :
    t.Contextless := by
  obtain ⟨hvar, hobject, hcallSite, hmethod⟩ := h
  constructor
  all_goals
    simp only [State.IsPointer, State.IsObject, State.IsCallSite, State.IsMethod, hst.elements]
    assumption

section Sound

variable {a : Analysis} {wf : a.program.WellFormed} {entry : MethodId} {s : State}

/-- Contexts are no longer than the number of tokens that are kept. -/
theorem Sound.contextless (hs : Sound (a.theory wf entry) s)
    (hentry : entry.idx < a.program.methods.size) (hbound : a.selector.bound = 0) :
    s.Contextless := by
  have hnil {c : Context} (hc : c.InRange a.program a.selector.bound) : c = [] :=
    List.eq_nil_of_length_eq_zero (Nat.le_zero.1 (hbound ▸ hc.1))
  refine ⟨fun i c v hi => ?_, fun i o ho => ?_, fun i site hi => ?_, fun i m hi => ?_⟩
  · exact hnil (hs.inRange hentry (hs.pointer i _ hi).2).1
  · obtain ⟨x, -, -, z, hz⟩ := hs.object i o ho
    exact hnil (hs.inRange hentry hz).1
  · exact hnil (hs.inRange hentry (hs.callSite i site hi).2).1
  · exact hnil (hs.inRange hentry (hs.method i m hi)).1

end Sound

/-! ## Steps -/

namespace Analysis

/-- The analysis that does not tell contexts apart. -/
def plain (a : Analysis) : Analysis := { a with selector := .insensitive }

/-! Most of what a step does is not about contexts. -/

section Unselected

variable (a : Analysis) {π : Type} (react : Reaction π)

@[simp] theorem plain_program : a.plain.program = a.program := rfl

@[simp] theorem plain_options : a.plain.options = a.options := rfl

@[simp] theorem plain_heapModel : a.plain.heapModel = a.heapModel := rfl

@[simp] theorem plain_addCall : a.plain.addCall react = a.addCall react := rfl

@[simp] theorem plain_bindThis : a.plain.bindThis = a.bindThis := rfl

@[simp] theorem plain_linkAccesses : a.plain.linkAccesses = a.linkAccesses := rfl

@[simp] theorem plain_finish : a.plain.finish react = a.finish react := rfl

end Unselected

section Steps

variable {a : Analysis} (h : a.selector.bound = 0) {π : Type} (react : Reaction π)

include h

/-- The budget of a selector that keeps no token is that of the insensitive one. -/
theorem plain_budget : a.plain.budget = a.budget := by
  simp only [budget, h, plain_program]
  rfl

/-- An allocation is visited in the same way, as its object has the empty context either way. -/
theorem plain_visitNew (method : CsMethod) (stmt : StmtId) (lhs : VarId) (type : Ty) :
    a.plain.visitNew method stmt lhs type = a.visitNew method stmt lhs type := by
  funext s
  have hcontext : a.plain.selector.heapContext method = a.selector.heapContext method :=
    (Selector.heapContext_of_bound h method).symm
  simp only [visitNew, plain_program, plain_heapModel, hcontext]

/-- A call site in the empty context is visited in the same way. -/
theorem plain_visitInvoke (id : CsMethodId) {site : CsCallSite} (hsite : site.context = [])
    (call : Invoke) (m : Machine π) :
    a.plain.visitInvoke react id site call m = a.visitInvoke react id site call m := by
  have hcontext : a.plain.selector.calleeContext site = a.selector.calleeContext site :=
    (Selector.calleeContext_of_bound h hsite).symm
  simp only [visitInvoke, plain_program, plain_addCall, hcontext]

/-- A statement of a method in the empty context is visited in the same way. -/
theorem plain_visitStmt (id : CsMethodId) {method : CsMethod} (hmethod : method.context = []) :
    a.plain.visitStmt react id method = a.visitStmt react id method := by
  funext m stmt
  have hsite : (CsCallSite.mk method.context stmt).context = [] := hmethod
  simp only [visitStmt, plain_program, plain_visitNew h, plain_visitInvoke h react id hsite]

/-- A method in the empty context is visited without looking at the selector. -/
theorem plain_visitMethod {id : CsMethodId} {m : Machine π}
    (hmethod : (m.state.elements.method id).context = []) :
    a.plain.visitMethod react id m = a.visitMethod react id m := by
  simp only [visitMethod, plain_program, plain_visitStmt h react id hmethod]

/-- A call is resolved for a receiver in the same way, whatever the context of the receiver. -/
theorem plain_dispatchCall (c : Context) (o : CsObjectId) :
    a.plain.dispatchCall react c o = a.dispatchCall react c o := by
  funext m stmt
  have hcontext (site : CsCallSite) (receiver : CsObject) :
      a.plain.selector.receiverContext site receiver = a.selector.receiverContext site receiver :=
    (Selector.receiverContext_of_bound h site receiver).symm
  simp only [dispatchCall, plain_program, plain_addCall, plain_bindThis, hcontext]

theorem plain_processObject (c : Context) (v : VarId) :
    a.plain.processObject react c v = a.processObject react c v := by
  funext m o
  simp only [processObject, plain_program, plain_linkAccesses, plain_dispatchCall h]

theorem plain_processFact (p : PointerId) (objects : ObjectSet) (m : Machine π) :
    a.plain.processFact react p objects m = a.processFact react p objects m := by
  simp only [processFact, processObjects, plain_processObject h]

/-- A step from a state in which all methods are in the empty context does not look at the selector. -/
theorem plain_step {m : Machine π} (hm : ∀ id ∈ m.state.pending.toList,
    (m.state.elements.method id).context = []) : a.plain.step react m = a.step react m := by
  cases hpop : m.state.pending.pop? with
  | some next =>
      obtain ⟨id, pending⟩ := next
      have hid : id ∈ m.state.pending.toList := by
        rw [Queue.toList_of_pop? hpop]
        exact List.mem_cons_self ..
      have hmethod : ((m.modify fun s => { s with pending }).state.elements.method id).context = [] :=
        hm id hid
      simp only [step, hpop, plain_visitMethod h react hmethod]
  | none => simp only [step, hpop, plain_processFact h]

end Steps

/-! ## Runs -/

section Runs

variable {a : Analysis} {entry : MethodId} (wf : a.program.WellFormed)
  (hmodel : a.heapModel = .allocationSite) (hentry : entry.idx < a.program.methods.size)
  (h : a.selector.bound = 0)

include wf hmodel hentry h

/-- A machine that the run passes has met the empty context only. -/
theorem Passes.contextless {k : Machine Extension} (hk : a.Passes entry k) : k.state.Contextless :=
  (hk.running wf hmodel).started.sound.contextless hentry h

/-- The step that a run makes is that of the run without contexts. -/
theorem Passes.plain_step {k : Machine Extension} (hk : a.Passes entry k) :
    a.plain.step (Extension.react a.program a.options) k =
      a.step (Extension.react a.program a.options) k := by
  have hsound : Sound (a.theory wf entry) k.state := (hk.running wf hmodel).started.sound
  refine Analysis.plain_step h _ fun id hid => ?_
  -- a method that is still to be visited is reachable, hence in the table of methods
  obtain ⟨m, hm⟩ := hsound.reachable id (hsound.pending id hid)
  rw [hm.method]
  exact (hk.contextless wf hmodel hentry h).method id m hm

/-- The two runs come to the same machines. -/
theorem passes_plain_iff {k : Machine Extension} : a.plain.Passes entry k ↔ a.Passes entry k := by
  -- the steps agree on contextless states only, so the induction goes along what the runs pass
  constructor
  · intro hk
    induction hk with
    | start hs => exact .start hs
    | step _ ih =>
        rw [plain_program, plain_options, ih.plain_step wf hmodel hentry h]
        exact ih.step
    | notify _ visited ih => exact .notify ih visited
  · intro hk
    induction hk with
    | start hs => exact .start (a := a.plain) hs
    | step hk ih =>
        rw [← hk.plain_step wf hmodel hentry h]
        exact ih.step
    | notify _ visited ih => exact .notify ih visited

/-- Steps until some condition holds lead to the same machine. -/
theorem plain_advance (isDone : Machine Extension → Bool) {k : Machine Extension}
    (hk : a.Passes entry k) :
    a.plain.advance (Extension.react a.program a.options) isDone k =
      a.advance (Extension.react a.program a.options) isDone k := by
  unfold advance
  rw [plain_budget h]
  exact (rounds_congr (fun _ hk => hk.step)
    (fun _ hk => (hk.plain_step wf hmodel hentry h).symm) hk _ _).symm

/-- Both runs from a method have the same outcome. -/
theorem plain_solveFrom {s : State} (hs : State.initial.Agrees s) :
    a.plain.solveFrom (Extension.react a.program a.options) entry a.options.stock s =
      a.solveFrom (Extension.react a.program a.options) entry a.options.stock s := by
  have hfirst : a.Passes entry ⟨start entry s, a.options.stock⟩ := .start hs
  simp only [solveFrom, plain_advance wf hmodel hentry h isVisited hfirst]
  split
  · rfl
  · rename_i hvisited
    rw [plain_finish, plain_advance wf hmodel hentry h isDone
      (.notify (hfirst.advance isVisited) (by simpa using hvisited))]

end Runs

/-- Both analyses have the same outcome, also when they are refused. -/
theorem plain_solveWith {a : Analysis} (wf : a.program.WellFormed)
    (hmodel : a.heapModel = .allocationSite) (h : a.selector.bound = 0) :
    a.plain.solveWith [] = a.solveWith [] := by
  have hentry : a.plain.entryMethod = a.entryMethod := rfl
  have hcheck : a.plain.checkStaticCalls = a.checkStaticCalls := rfl
  simp only [solveWith, solve, List.append_nil, hentry, hcheck]
  split
  · rfl
  · rename_i entry heq
    split
    · rfl
    · exact plain_solveFrom wf hmodel (a.entryMethod_lt wf heq) h
        ((State.agrees_report _ _ _).trans (State.agrees_report _ _ _))

/-! ## The main result -/

/-- A selector that keeps no tokens, of whatever kind, makes the insensitive run: it comes to the same
machines, with the same identifiers in the same order, and it ends with the same error, or with the same
state and the same reports. In none of these states is there a context that is not empty. -/
theorem solveWith_of_bound_eq_zero {d : ProgramDef} {p : Program}
    (hp : (Program.build d).1 = .ok p) (o : Options) {sel : Selector} (hsel : sel.bound = 0) :
    solveWith ⟨p, o, sel, .allocationSite⟩ [] =
      solveWith ⟨p, o, .insensitive, .allocationSite⟩ [] ∧
    (∀ entry, entryMethod ⟨p, o, sel, .allocationSite⟩ = .ok entry → ∀ k,
      (Passes ⟨p, o, .insensitive, .allocationSite⟩ entry k ↔
        Passes ⟨p, o, sel, .allocationSite⟩ entry k) ∧
      (Passes ⟨p, o, sel, .allocationSite⟩ entry k → k.state.Contextless)) ∧
    ∀ r, (solveWith ⟨p, o, sel, .allocationSite⟩ []).result = .ok r → r.state.Contextless := by
  have wf := Program.build_wellFormed hp
  have hlt {entry : MethodId} (hentry : entryMethod ⟨p, o, sel, .allocationSite⟩ = .ok entry) :
      entry.idx < p.methods.size :=
    entryMethod_lt (a := ⟨p, o, sel, .allocationSite⟩) wf hentry
  -- What is shown of a run is shown of its machines first, and then of its result.
  refine ⟨?_, fun entry hentry k => ⟨?_, fun hk => ?_⟩, fun r hr => ?_⟩
  · exact (plain_solveWith (a := ⟨p, o, sel, .allocationSite⟩) wf rfl hsel).symm
  · exact passes_plain_iff (a := ⟨p, o, sel, .allocationSite⟩) wf rfl (hlt hentry) hsel
  · exact hk.contextless wf rfl (hlt hentry) hsel
  · obtain ⟨entry, k, hentry, hk, -, hagrees⟩ := passes_of_solveWith wf rfl hr
    exact (hk.contextless wf rfl (hlt hentry) hsel).agrees hagrees

/-- The sample, with no tokens of any kind. -/
theorem solveWith_of_bound_eq_zero_sample : ∃ p r, (Program.build .sample).1 = .ok p ∧
    (solveWith ⟨p, ⟨.insensitive, none, true⟩, .insensitive, .allocationSite⟩ []).result = .ok r ∧
    r.state.Contextless ∧
    ∀ sel ∈ [Selector.callSite 0, .object 0, .type 0],
      solveWith ⟨p, ⟨.insensitive, none, true⟩, sel, .allocationSite⟩ [] =
        solveWith ⟨p, ⟨.insensitive, none, true⟩, .insensitive, .allocationSite⟩ [] := by
  obtain ⟨p, r₀, hp, hr₀⟩ := ProgramDef.sample_solved true
  obtain ⟨r, hr⟩ := exists_result_of_selector (Program.build_wellFormed hp) hr₀ .insensitive
  have hzero {sel : Selector} (hsel : sel.bound = 0) :=
    solveWith_of_bound_eq_zero hp ⟨.insensitive, none, true⟩ hsel
  obtain ⟨-, -, hcontextless⟩ := hzero (show Selector.insensitive.bound = 0 from rfl)
  refine ⟨p, r, hp, hr, hcontextless r hr, fun sel hsel => ?_⟩
  have hbound : sel.bound = 0 := by
    simp only [List.mem_cons, List.not_mem_nil, or_false] at hsel
    rcases hsel with rfl | rfl | rfl <;> rfl
  exact (hzero hbound).1

end Analysis

end PointsTo
