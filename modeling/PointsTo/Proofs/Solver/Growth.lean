import PointsTo.Proofs.Solver.Steps

/-! # How the call graph grows

`Sound` says that whatever a state has found can be derived; it does not say when. This module follows
the operations of a run once more, and keeps track of what is there already: a step only meets
variables and call sites of methods that the state has reached, and it adds a call edge only after a
receiver of the call has arrived at its base variable. `Grows` says all that a run does to the call
graph, and what holds of the order of discoveries is derived from it.
-/

namespace PointsTo

/-- The method in the body of which a call site is. -/
def Program.callerOf (p : Program) (site : CsCallSite) : CsMethod :=
  ⟨site.context, (p.stmtAt site.stmt).method⟩

/-- If the pointer is one of a variable, `R` holds of the method of the variable. -/
def Pointer.Within (p : Program) (R : CsMethod → Prop) : Pointer → Prop
  | .var c v => R ⟨c, (p.varAt v).method⟩
  | _ => True

/-- A variable lies within whatever holds of the method that it belongs to. -/
theorem Pointer.within_var {p : Program} {R : CsMethod → Prop} {m : CsMethod} {v : VarId}
    (hv : p.Owns m.method v) (hm : R m) : (Pointer.var m.context v).Within p R := by
  rw [Within, hv.2]
  exact hm

namespace State

/-- The method is reachable in the context. -/
def Reaches (s : State) (m : CsMethod) : Prop := ∃ i ∈ s.calls.reachable, s.IsMethod i m

/-- The object has arrived at the variable. -/
structure HasObject (s : State) (c : Context) (v : VarId) (o : CsObjectId) (r : CsObject) (x : Object) :
    Prop where
  pointer : ∃ i, s.IsPointer i (.var c v) ∧ (s.elements.pointsTo i).contains o = true
  object : s.IsObject o r
  heap : s.heap.objects[r.object.idx]? = some x

/-- The second state extends the first one, and pointers keep their objects. -/
structure Retains (s t : State) : Prop extends s.Extends t where
  pointsTo : ∀ i o, (s.elements.pointsTo i).contains o = true →
    (t.elements.pointsTo i).contains o = true := by exact fun _ _ => id

/-- The second state retains the first one. What is new among its variables and call sites belongs to
methods of which `R` holds; the call graph is the same. -/
structure Adds (p : Program) (R : CsMethod → Prop) (s t : State) : Prop extends s.Retains t where
  pointer : ∀ i q, t.IsPointer i q → s.IsPointer i q ∨ q.Within p R := by exact fun _ _ => Or.inl
  callSite : ∀ i c, t.IsCallSite i c → s.IsCallSite i c ∨ R (p.callerOf c) := by
    exact fun _ _ => Or.inl
  sameReachable : t.calls.reachable = s.calls.reachable := by rfl
  sameEdges : t.calls.edges = s.calls.edges := by rfl

variable {p : Program} {R : CsMethod → Prop} {s t u : State}

theorem Reaches.mono (hst : s.Extends t) {m : CsMethod} (h : s.Reaches m) : t.Reaches m := by
  obtain ⟨i, hi, him⟩ := h
  exact ⟨i, hst.reachable i hi, hst.isMethod him⟩

theorem Retains.trans (hst : s.Retains t) (htu : t.Retains u) : s.Retains u where
  toExtends := hst.toExtends.trans htu.toExtends
  pointsTo i o h := htu.pointsTo i o (hst.pointsTo i o h)

/-- An object that has arrived at a variable stays there while pointers keep their objects. -/
theorem HasObject.mono (hst : s.Retains t) {c : Context} {v : VarId} {o : CsObjectId} {r : CsObject}
    {x : Object} (h : s.HasObject c v o r x) : t.HasObject c v o r x := by
  obtain ⟨i, hi, ho⟩ := h.pointer
  exact ⟨⟨i, hst.isPointer hi, hst.pointsTo i o ho⟩, hst.isObject h.object, hst.heap _ _ h.heap⟩

namespace Adds

theorem refl (s : State) : s.Adds p R s := { Extends.refl s with }

/-- What is new after two operations is new after one of them, and belongs to methods of which `R` holds
either way. -/
theorem trans (hst : s.Adds p R t) (htu : t.Adds p R u) : s.Adds p R u where
  toRetains := hst.toRetains.trans htu.toRetains
  pointer i q h := (htu.pointer i q h).elim (hst.pointer i q) Or.inr
  callSite i c h := (htu.callSite i c h).elim (hst.callSite i c) Or.inr
  sameReachable := htu.sameReachable.trans hst.sameReachable
  sameEdges := htu.sameEdges.trans hst.sameEdges

/-- What is new belongs to methods of a larger set too. -/
theorem weaken {R' : CsMethod → Prop} (h : s.Adds p R t) (hR : ∀ m, R m → R' m) :
    s.Adds p R' t where
  toRetains := h.toRetains
  pointer i q hq := (h.pointer i q hq).imp id fun hq => by
    cases q with
    | var c v => exact hR _ hq
    | _ => trivial
  callSite i c hc := (h.callSite i c hc).imp id (hR _)
  sameReachable := h.sameReachable
  sameEdges := h.sameEdges

/-- If each operation of a fold adds only what belongs to methods of which `R` holds, so does the fold.
-/
theorem foldl {α : Type} {f : State → α → State} {l : List α}
    (h : ∀ x ∈ l, ∀ s : State, s.Adds p R (f s x)) (s : State) : s.Adds p R (l.foldl f s) := by
  induction l generalizing s with
  | nil => exact refl s
  | cons x l ih =>
      have hrest := ih (fun y hy => h y (List.mem_cons_of_mem _ hy)) (f s x)
      exact (h x (List.mem_cons_self ..) s).trans hrest

end Adds

/-! ## Operations that leave the call graph as it is -/

/-- A state with the same elements and call graph adds nothing. -/
theorem Agrees.adds (h : s.Agrees t) : s.Adds p R t where
  toExtends := h.extends
  pointsTo i o ho := by rwa [h.elements]
  pointer i q hq := Or.inl (by rwa [IsPointer, h.elements] at hq)
  callSite i c hc := Or.inl (by rwa [IsCallSite, h.elements] at hc)
  sameReachable := h.reachable
  sameEdges := h.edges

theorem adds_report (s : State) (severity : Severity) (text : String) :
    s.Adds p R (s.report severity text) :=
  (s.agrees_report severity text).adds

/-- Interning a pointer adds that pointer at most. -/
theorem adds_internPointer (s : State) {q : Pointer} (hq : q.Within p R) :
    s.Adds p R (s.internPointer q).2 where
  toExtends := s.extends_internPointer q
  pointsTo i o ho := by rwa [pointsTo_internPointer]
  pointer i q' hq' := by
    refine (Table.of_getElem?_intern hq').imp id fun heq => ?_
    subst heq
    exact hq

/-- Interning a call site adds that call site at most. -/
theorem adds_internCallSite (s : State) {c : CsCallSite} (hc : R (p.callerOf c)) :
    s.Adds p R (s.internCallSite c).2 where
  toExtends := s.extends_internCallSite c
  callSite i c' hc' := by
    refine (Table.of_getElem?_intern hc').imp id fun heq => ?_
    subst heq
    exact hc

theorem adds_internMethod (s : State) (m : CsMethod) : s.Adds p R (s.internMethod m).2 where
  toExtends := s.extends_internMethod m

theorem adds_internObject (s : State) (c : Context) (o : ObjectId) :
    s.Adds p R (s.internObject c o).2 where
  toExtends := s.extends_internObject c o

theorem adds_heap (s : State) (o : Object) : s.Adds p R { s with heap := (s.heap.intern o).2 } where
  toExtends := { Extends.refl s with heap := s.heap.extends_intern o }

theorem adds_push (s : State) (i : PointerId) (objects : ObjectSet) :
    s.Adds p R (s.push i objects) where
  toExtends := s.extends_push i objects

theorem adds_inject (s : State) (i : PointerId) (objects : ObjectSet) :
    s.Adds p R (s.inject i objects) :=
  (s.adds_report _ _).trans (adds_push _ i objects)

theorem adds_addFlow (s : State) (i j : PointerId) : s.Adds p R (s.addFlow i j) := by
  have hext := s.extends_addFlow i j
  obtain ⟨flow, work, heq⟩ := s.addFlow_with i j
  rw [heq] at hext ⊢
  exact { hext with }

/-- Linking two pointers adds the two at most. -/
theorem adds_connect (s : State) {q q' : Pointer} (hq : q.Within p R) (hq' : q'.Within p R) :
    s.Adds p R (s.connect q q') := by
  rw [connect_eq]
  exact ((s.adds_internPointer hq).trans (adds_internPointer _ hq')).trans (adds_addFlow _ _ _)

theorem adds_connectInto (s : State) {q q' : Pointer} (hq : q.Within p R) (hq' : q'.Within p R) :
    s.Adds p R (s.connectInto q q') := by
  rw [connectInto_eq]
  exact ((s.adds_internPointer hq).trans (adds_internPointer _ hq')).trans (adds_addFlow _ _ _)

/-- Assigning an object to a pointer adds the pointer at most; its objects are those it had, as the new
one is only on the work list. -/
theorem adds_assign (s : State) {q : Pointer} (hq : q.Within p R) (o : CsObjectId) :
    s.Adds p R (s.assign q o) :=
  (s.adds_internPointer hq).trans (adds_push _ _ _)

theorem adds_markUnresolved (s : State) (c : StmtId) : s.Adds p R (s.markUnresolved c) := by
  have hext := s.extends_markUnresolved c
  unfold markUnresolved at hext ⊢
  split
  · exact .refl s
  · rename_i hnew
    rw [if_neg hnew] at hext
    exact { hext with }

/-- Absorbing an entry of the work list meets nothing new. -/
theorem Absorbs.adds {i : PointerId} {objects : ObjectSet} (h : s.Absorbs i objects t) :
    s.Adds p R t := by
  have hext := h.extends
  have hsets : ∀ j o, (s.elements.pointsTo j).contains o = true →
      (t.elements.pointsTo j).contains o = true := fun j o ho => by
    rw [h.pointsTo, ho]
    rfl
  obtain ⟨sets, work, n, rfl⟩ := h.shape
  exact { hext with pointsTo := hsets }

end State

/-! ## Call edges -/

/-- The callee is the one that the call has for its static target, or for an object that has arrived at
its base variable. -/
inductive Analysis.Selects (a : Analysis) (s : State) (call : Invoke) (site : CsCallSite)
    (callee : CsMethod) : Prop where
  | static (binding : call.binding = .static)
      (target : a.program.staticTarget? call.target = some callee.method)
      (context : callee.context = a.selector.calleeContext site)
  | receiver {base : VarId} {o : CsObjectId} {r : CsObject} {x : Object}
      (binding : call.binding.base? = some base) (arrived : s.HasObject site.context base o r x)
      (target : a.program.resolveCallee? (some x.type) call = some callee.method)
      (context : callee.context = a.selector.receiverContext site r)

/-- A callee that was selected stays selected, as the receiver stays an object of the base variable. -/
theorem Analysis.Selects.mono {a : Analysis} {s t : State} {call : Invoke} {site : CsCallSite}
    {callee : CsMethod} (hst : s.Retains t) (h : a.Selects s call site callee) :
    a.Selects t call site callee := by
  cases h with
  | static binding target context => exact .static binding target context
  | receiver binding arrived target context =>
      exact .receiver binding (arrived.mono hst) target context

/-- What a run does to the call graph of a state. -/
inductive Analysis.Grows (a : Analysis) (s : State) : State → Prop where
  /-- Nothing is called; what is met belongs to methods that are reachable. -/
  | adds {t : State} (h : s.Adds a.program s.Reaches t) : Grows a s t
  /-- A call is made that was made before. -/
  | again {t : State} {e : CallEdge} {callee : CsMethod}
      (adds : s.Adds a.program (fun m => s.Reaches m ∨ m = callee) t)
      (isCallee : t.IsMethod e.callee callee) (old : t.calls.hasEdge e = true) : Grows a s t
  /-- A reachable method makes a call for the first time. -/
  | call {t : State} {e : CallEdge} {site : CsCallSite} {callee : CsMethod} {call : Invoke}
      (adds : s.Adds a.program (fun m => s.Reaches m ∨ m = callee) t)
      (isSite : t.IsCallSite e.callSite site) (isCallee : t.IsMethod e.callee callee)
      (caller : s.Reaches (a.program.callerOf site))
      (invoke : (a.program.stmtAt site.stmt).kind = .invoke call)
      (kind : e.kind = call.binding.kind) (selects : a.Selects t call site callee)
      (new : t.calls.hasEdge e = false) :
      Grows a s ({ t with calls := t.calls.addEdge e }.reachMethod e.callee)

/-- What a run does to the call graph by several operations. -/
abbrev Analysis.GrowsTo (a : Analysis) : State → State → Prop := Relation.ReflTransGen a.Grows

variable {a : Analysis} {s t : State}

/-- A call that is made for the first time extends the state. -/
theorem State.extends_call (s : State) (e : CallEdge) :
    s.Extends ({ s with calls := s.calls.addEdge e }.reachMethod e.callee) :=
  (s.extends_addEdge e).trans (State.extends_reachMethod _ e.callee)

/-- Only the call graph and the pending methods depend on a new call edge. -/
theorem State.call_with (s : State) (e : CallEdge) :
    ∃ pending, { s with calls := s.calls.addEdge e }.reachMethod e.callee =
      { s with calls := (s.calls.addEdge e).addReachable e.callee, pending := pending } := by
  unfold reachMethod
  split
  · rename_i hold
    refine ⟨s.pending, ?_⟩
    rw [CsCallGraph.addReachable, if_pos hold]
  · exact ⟨_, rfl⟩

theorem State.retains_call (s : State) (e : CallEdge) :
    s.Retains ({ s with calls := s.calls.addEdge e }.reachMethod e.callee) := by
  have hext := s.extends_call e
  obtain ⟨pending, heq⟩ := s.call_with e
  rw [heq] at hext ⊢
  exact { hext with }

/-- Whatever an operation does to the call graph, pointers keep their objects. -/
theorem Analysis.Grows.retains (h : a.Grows s t) : s.Retains t := by
  cases h with
  | adds h => exact h.toRetains
  | again h _ _ => exact h.toRetains
  | @call u e _ _ _ adds _ _ _ _ _ _ _ => exact adds.toRetains.trans (u.retains_call e)

/-- Pointers keep their objects along a run. -/
theorem Analysis.GrowsTo.retains (h : a.GrowsTo s t) : s.Retains t := by
  induction h with
  | refl => exact { State.Extends.refl s with }
  | tail _ hlast ih => exact ih.trans hlast.retains

/-! ## Operations on machines -/

section Machines

variable {π : Type} {react : Reaction π} {k k' k'' : Machine π}

/-- What an operation on a machine does to the call graph if no extension answers. -/
structure Analysis.Expands (a : Analysis) (k k' : Machine π) : Prop where
  extensions : k'.extensions = k.extensions
  grows : a.GrowsTo k.state k'.state

/-- The call graph grows by the first operation and then by the second one. -/
theorem Analysis.Expands.trans (h : a.Expands k k') (h' : a.Expands k' k'') : a.Expands k k'' :=
  ⟨h'.extensions.trans h.extensions, h.grows.trans h'.grows⟩

/-- An operation that leaves the extensions alone keeps them quiet. -/
theorem Analysis.Expands.quiet (h : a.Expands k k') (hq : Quiet react k.extensions) :
    Quiet react k'.extensions := by
  rwa [h.extensions]

/-- An operation on the state that meets only what belongs to reachable methods. -/
theorem Analysis.expands_modify {f : State → State}
    (h : k.state.Adds a.program k.state.Reaches (f k.state)) : a.Expands k (k.modify f) :=
  ⟨rfl, .single (.adds h)⟩

/-- Nobody answers a notice other than that of the start. -/
theorem Analysis.Expands.notify (h : a.Expands k k') (hq : Quiet react k.extensions) {n : Notice}
    (hn : n ≠ .started) : a.Expands k (k'.notify react n) := by
  rwa [Machine.notify_of_quiet (h.quiet hq) hn]

/-- The call graph grows along a fold if each operation makes it grow from every state that the fold can
meet. -/
theorem Analysis.Expands.foldl {α : Type} {f : Machine π → α → Machine π} {l : List α}
    (h : ∀ x ∈ l, ∀ k', a.Expands k k' → a.Expands k' (f k' x)) : a.Expands k (l.foldl f k) := by
  -- the induction is over the rest of the list, with the machine that the earlier elements have led to
  have hfold : ∀ (l' : List α) (k' : Machine π), (∀ x ∈ l', x ∈ l) → a.Expands k k' →
      a.Expands k (l'.foldl f k') := by
    intro l'
    induction l' with
    | nil => exact fun k' _ hk' => hk'
    | cons x l' ih =>
        intro k' hl hk'
        have hx := h x (hl x (List.mem_cons_self ..)) k' hk'
        exact ih _ (fun y hy => hl y (List.mem_cons_of_mem _ hy)) (hk'.trans hx)
  exact hfold l k (fun _ hx => hx) ⟨rfl, .refl⟩

end Machines

/-! ## Calls -/

section Operations

variable {π : Type} {react : Reaction π} {k : Machine π} {R : CsMethod → Prop}
  (wf : a.program.WellFormed)

include wf

/-- The variables of a call belong to the method that makes it. -/
theorem Pointer.within_operand {site : CsCallSite} {call : Invoke}
    (hinvoke : (a.program.stmtAt site.stmt).kind = .invoke call)
    (hcaller : R (a.program.callerOf site)) {v : VarId}
    (hv : v ∈ (StmtKind.invoke call).operands) :
    (Pointer.var site.context v).Within a.program R := by
  rw [← hinvoke] at hv
  refine within_var (m := a.program.callerOf site) (wf.owns_operand ?_ hv) hcaller
  refine wf.mem_stmtsOf_method ?_
  rw [hinvoke]
  exact StmtKind.noConfusion

/-- Linking the arguments and the result of a call adds only variables of the caller and of the callee.
-/
theorem Analysis.adds_linkCall {site : CsCallSite} {callee : CsMethod} {call : Invoke} {b : Body}
    (hinvoke : (a.program.stmtAt site.stmt).kind = .invoke call)
    (hbody : (a.program.methodAt callee.method).body? = some b)
    (hcaller : R (a.program.callerOf site)) (hcallee : R callee) (s : State) :
    s.Adds a.program R (linkCall call site.context callee.context b s) := by
  have hoperand {v : VarId} := Pointer.within_operand wf hinvoke hcaller (v := v)
  -- Arguments are variables of the caller, and parameters of the callee.
  have hargs : s.Adds a.program R ((call.args.zip b.params).foldl (fun s pair =>
      s.connect (.var site.context pair.1) (.var callee.context pair.2)) s) := by
    refine State.Adds.foldl (fun pair hpair s => ?_) s
    obtain ⟨harg, hparam⟩ := List.of_mem_zip hpair
    exact s.adds_connect (hoperand (by simp [StmtKind.operands, harg]))
      (Pointer.within_var ((wf.body _ b hbody).param _ hparam) hcallee)
  unfold linkCall
  split
  · exact hargs
  · rename_i x hx
    have hresult := hoperand (v := x) (by simp [StmtKind.operands, hx])
    refine (hargs.trans (State.adds_internPointer _ hresult)).trans ?_
    refine State.Adds.foldl (fun v hv s => ?_) _
    exact s.adds_connectInto hresult (Pointer.within_var (wf.owns_return hbody hv) hcallee)

/-- Entering the callee of a new call edge makes it reachable, and links arguments and results. -/
theorem Analysis.growsTo_enterCallee {u : State} {e : CallEdge} {site : CsCallSite}
    {callee : CsMethod} {call : Invoke}
    (hadds : s.Adds a.program (fun m => s.Reaches m ∨ m = callee) u)
    (hsite : u.IsCallSite e.callSite site) (hcallee : u.IsMethod e.callee callee)
    (hcaller : s.Reaches (a.program.callerOf site))
    (hinvoke : (a.program.stmtAt site.stmt).kind = .invoke call) (hkind : e.kind = call.binding.kind)
    (hselects : a.Selects u call site callee) (hnew : u.calls.hasEdge e = false) :
    a.GrowsTo s (a.enterCallee call site callee e.callee { u with calls := u.calls.addEdge e }) := by
  unfold enterCallee
  generalize _ ++ a.program.methodText callee.method = text
  -- the report stands between the edge and its callee, but may as well come before both
  have hreport := u.adds_report (p := a.program) (R := fun m => s.Reaches m ∨ m = callee) .trace text
  have hcall : a.Grows s _ := .call (e := e) (hadds.trans hreport) hsite hcallee hcaller hinvoke
    hkind (hselects.mono hreport.toRetains) hnew
  have hext := (u.report .trace text).extends_call e
  have hreached := State.mem_reachable_reachMethod
    { u.report .trace text with calls := (u.report .trace text).calls.addEdge e } e.callee
  have hswap : State.report { u with calls := u.calls.addEdge e } .trace text =
      { u.report .trace text with calls := (u.report .trace text).calls.addEdge e } := rfl
  dsimp only
  rw [hswap]
  generalize State.reachMethod _ _ = w at hcall hext hreached ⊢
  split
  · exact .single hcall
  · rename_i b hb
    have hlink := a.adds_linkCall wf hinvoke hb (hcaller.mono hcall.retains.toExtends)
      ⟨e.callee, hreached, hext.isMethod hcallee⟩
    refine (Relation.ReflTransGen.single hcall).tail (.adds (State.Adds.trans ?_ (hlink _)))
    exact (a.agrees_checkArity site.stmt call callee.method b w).adds

/-- Adding a call, after the receiver was passed on, makes the callee reachable unless the call was
made before. -/
theorem Analysis.growsTo_addCall (site : CsCallSite) (callee : CsMethod) {call : Invoke}
    (hq : Quiet react k.extensions)
    (hadds : s.Adds a.program (fun m => s.Reaches m ∨ m = callee) k.state)
    (hcaller : s.Reaches (a.program.callerOf site))
    (hinvoke : (a.program.stmtAt site.stmt).kind = .invoke call)
    (hselects : a.Selects k.state call site callee) :
    (a.addCall react call site callee k).extensions = k.extensions ∧
      a.GrowsTo s (a.addCall react call site callee k).state := by
  obtain ⟨i, j, u, hu, hi, hj, hcases⟩ := a.addCall_cases react call site callee k
  have hintern : k.state.Adds a.program (fun m => s.Reaches m ∨ m = callee) u := by
    rw [hu]
    exact (State.adds_internCallSite _ (Or.inl hcaller)).trans (State.adds_internMethod _ callee)
  -- The site called the method before, or the edge is new and the callee is entered.
  rcases hcases with ⟨hold, heq⟩ | ⟨hnew, heq⟩
  · rw [heq]
    exact ⟨rfl, .single (.again (hadds.trans hintern) hj hold)⟩
  · have hgrows := a.growsTo_enterCallee wf (e := ⟨call.binding.kind, i, j⟩) (hadds.trans hintern) hi
      hj hcaller hinvoke rfl (hselects.mono hintern.toRetains) hnew
    rw [heq]
    generalize a.enterCallee _ _ _ _ _ = w at hgrows ⊢
    rw [Machine.notify_of_quiet (m := ⟨w, k.extensions⟩) hq fun hn => Notice.noConfusion hn]
    exact ⟨rfl, hgrows⟩

/-! ## Visits -/

section Visits

variable {m : CsMethod} {stmt : StmtId}

omit wf in
/-- Visiting an allocation adds the variable that it assigns at most. -/
theorem Analysis.adds_visitNew {lhs : VarId} {type : Ty}
    (hlhs : (Pointer.var m.context lhs).Within a.program R) (s : State) :
    s.Adds a.program R (a.visitNew m stmt lhs type s) := by
  obtain ⟨x, o, i, heq⟩ := a.visitNew_from m stmt lhs type s
  rw [heq]
  exact ((s.adds_heap x).trans (State.adds_internObject _ _ _)).trans (State.adds_assign _ hlhs i)

/-- Visiting a call of a reachable method records its site, and makes the call if it is static. -/
theorem Analysis.expands_visitInvoke (hq : Quiet react k.extensions) {j : CsMethodId} {call : Invoke}
    (hm : k.state.Reaches m) (hstmt : stmt ∈ a.program.stmtsOf m.method)
    (hkind : (a.program.stmtAt stmt).kind = .invoke call) :
    a.Expands k (a.visitInvoke react j ⟨m.context, stmt⟩ call k) := by
  -- The statement belongs to the method, which is therefore the caller.
  have hcaller : k.state.Reaches (a.program.callerOf ⟨m.context, stmt⟩) := by
    rw [Program.callerOf, (wf.mem_stmtsOf_iff.1 hstmt).2]
    exact hm
  have hsite := k.state.adds_internCallSite (p := a.program) (R := k.state.Reaches) hcaller
  unfold visitInvoke
  cases hintern : k.state.internCallSite ⟨m.context, stmt⟩ with
  | mk i s =>
      rw [hintern] at hsite
      have hrecord : k.state.Adds a.program k.state.Reaches
          { s with calls := s.calls.addCallSite j i } :=
        hsite.trans { State.Extends.refl s with }
      have hmodify : a.Expands k ⟨{ s with calls := s.calls.addCallSite j i }, k.extensions⟩ :=
        a.expands_modify (f := fun _ => _) hrecord
      simp only []
      -- Only a static call with a target adds an edge at once.
      split
      · rename_i hbinding
        split
        · rename_i callee htarget
          obtain ⟨hext, hgrows⟩ := a.growsTo_addCall wf
            (k := ⟨{ s with calls := s.calls.addCallSite j i }, k.extensions⟩) ⟨m.context, stmt⟩
            ⟨a.selector.calleeContext ⟨m.context, stmt⟩, callee⟩ hq
            (hrecord.weaken fun _ => Or.inl) hcaller hkind (.static hbinding htarget rfl)
          exact ⟨hext, hgrows⟩
        · exact hmodify
      · exact hmodify

/-- Visiting a statement of a reachable method. -/
theorem Analysis.expands_visitStmt (hq : Quiet react k.extensions) {j : CsMethodId}
    (hm : k.state.Reaches m) (hstmt : stmt ∈ a.program.stmtsOf m.method) :
    a.Expands k (a.visitStmt react j m k stmt) := by
  have hoperand {v : VarId} (hv : v ∈ (a.program.stmtAt stmt).kind.operands) :
      (Pointer.var m.context v).Within a.program k.state.Reaches :=
    Pointer.within_var (wf.owns_operand hstmt hv) hm
  unfold visitStmt
  -- a visit adds operands of the statement only, which belong to the method; a call is treated on its
  -- own
  cases hkind : (a.program.stmtAt stmt).kind with
  | new lhs type =>
      rw [hkind] at hoperand
      exact a.expands_modify (a.adds_visitNew (hoperand (by simp [StmtKind.operands])) _)
  | copy lhs rhs =>
      rw [hkind] at hoperand
      exact a.expands_modify (State.adds_connect _ (hoperand (by simp [StmtKind.operands]))
        (hoperand (by simp [StmtKind.operands])))
  | staticStore f rhs =>
      rw [hkind] at hoperand
      exact a.expands_modify (State.adds_connect _ (hoperand (by simp [StmtKind.operands])) trivial)
  | staticLoad lhs f =>
      rw [hkind] at hoperand
      exact a.expands_modify (State.adds_connect _ trivial (hoperand (by simp [StmtKind.operands])))
  | invoke call => exact a.expands_visitInvoke wf hq hm hstmt hkind
  | _ => exact ⟨rfl, .refl⟩

/-- Visiting a reachable method, with its statements in whatever order. -/
theorem Analysis.expands_visitInOrder (hq : Quiet react k.extensions) {j : CsMethodId}
    (hj : k.state.IsMethod j m) (hm : k.state.Reaches m) {stmts : List StmtId}
    (hstmts : stmts.Perm (a.program.stmtsOf m.method)) :
    a.Expands k (a.visitInOrder react stmts j k) := by
  unfold visitInOrder
  simp only [hj.method]
  generalize "new reachable method " ++ _ ++ " in context " ++ _ = text
  have hreport : a.Expands k (k.modify (·.report .trace text)) :=
    a.expands_modify (k.state.adds_report _ _)
  refine Expands.notify (hreport.trans (Expands.foldl fun stmt hstmt k' hk' => ?_)) hq
    Notice.noConfusion
  have hreach := hm.mono (hreport.trans hk').grows.retains.toExtends
  exact a.expands_visitStmt wf ((hreport.trans hk').quiet hq) hreach (hstmts.mem_iff.1 hstmt)

end Visits

/-! ## Objects of variables -/

section Objects

variable {c : Context} {v : VarId} {o : CsObjectId} {r : CsObject} {x : Object} {stmt : StmtId}

/-- Linking an access on a variable of a reachable method to a slot. -/
theorem Analysis.adds_linkAccess (hm : R ⟨c, (a.program.varAt v).method⟩)
    (hstmt : stmt ∈ a.program.stmtsOf (a.program.varAt v).method) (s : State) :
    s.Adds a.program R (a.linkAccess c o s stmt) := by
  have hoperand {w : VarId} (hw : w ∈ (a.program.stmtAt stmt).kind.operands) :
      (Pointer.var c w).Within a.program R :=
    Pointer.within_var (m := ⟨c, _⟩) (wf.owns_operand hstmt hw) hm
  unfold linkAccess
  -- One case for each kind of access. The slot belongs to an object, and the other end to the method.
  cases hkind : (a.program.stmtAt stmt).kind with
  | instanceStore base f rhs =>
      rw [hkind] at hoperand
      exact s.adds_connectInto trivial (hoperand (by simp [StmtKind.operands]))
  | instanceLoad lhs base f =>
      rw [hkind] at hoperand
      exact s.adds_connect trivial (hoperand (by simp [StmtKind.operands]))
  | arrayStore base rhs =>
      rw [hkind] at hoperand
      exact s.adds_connectInto trivial (hoperand (by simp [StmtKind.operands]))
  | arrayLoad lhs base =>
      rw [hkind] at hoperand
      exact s.adds_connect trivial (hoperand (by simp [StmtKind.operands]))
  | _ => exact .refl s

/-- The receiver of a call is met in the callee, which may not be reachable yet. -/
theorem Analysis.adds_bindThis {callee : CsMethod} (hcallee : R callee) (s : State) :
    s.Adds a.program R (a.bindThis callee o s) := by
  unfold bindThis
  split
  · rename_i this hthis
    obtain ⟨b, hb, hbt⟩ := Option.bind_eq_some_iff.1 hthis
    exact s.adds_assign (Pointer.within_var ((wf.body _ b hb).this this hbt) hcallee) o
  · exact .refl s

/-- Resolving a call on a variable for an object that has arrived there. -/
theorem Analysis.expands_dispatchCall (hq : Quiet react k.extensions)
    (hm : k.state.Reaches ⟨c, (a.program.varAt v).method⟩) (ho : k.state.HasObject c v o r x)
    (hstmt : stmt ∈ (a.program.varAt v).accesses) :
    a.Expands k (a.dispatchCall react c o k stmt) := by
  obtain ⟨use, huse⟩ := Var.mem_accesses.1 hstmt
  have haccess := (wf.indexed.use use v stmt).1 huse
  have hmem := wf.mem_stmtsOf_access haccess
  unfold dispatchCall
  simp only [Stmt.invoke?]
  -- the base variable is that of the statement, so the object that has arrived there is its receiver
  cases hkind : (a.program.stmtAt stmt).kind with
  | invoke call =>
      rw [hkind, StmtKind.access?, Option.map_eq_some_iff] at haccess
      obtain ⟨base, hbase, heq⟩ := haccess
      cases heq
      simp only [ho.object.object, Heap.get_of_getElem? ho.heap]
      split
      · generalize "no target for " ++ _ ++ " on " ++ _ = text
        exact a.expands_modify ((k.state.adds_report _ _).trans (State.adds_markUnresolved _ stmt))
      · rename_i method htarget
        generalize hcontext : a.selector.receiverContext _ _ = context
        have hcaller : k.state.Reaches (a.program.callerOf ⟨c, stmt⟩) := by
          rw [Program.callerOf, (wf.mem_stmtsOf_iff.1 hmem).2]
          exact hm
        have hbind := a.adds_bindThis wf (o := o)
          (R := fun m => k.state.Reaches m ∨ m = ⟨context, method⟩) (Or.inr rfl) k.state
        obtain ⟨hext, hgrows⟩ := a.growsTo_addCall wf
          (k := k.modify (a.bindThis ⟨context, method⟩ o)) ⟨c, stmt⟩ ⟨context, method⟩ hq hbind hcaller
          hkind (.receiver hbase (ho.mono hbind.toRetains) htarget hcontext.symm)
        exact ⟨hext, hgrows⟩
  | _ => exact ⟨rfl, .refl⟩

/-- Attending to a statement for an object of its base variable. -/
theorem Analysis.expands_attend (hq : Quiet react k.extensions)
    (hm : k.state.Reaches ⟨c, (a.program.varAt v).method⟩) (ho : k.state.HasObject c v o r x)
    (hstmt : stmt ∈ (a.program.varAt v).accesses) : a.Expands k (a.attend react c k (o, stmt)) := by
  obtain ⟨use, huse⟩ := Var.mem_accesses.1 hstmt
  have hmem := wf.mem_stmtsOf_access ((wf.indexed.use use v stmt).1 huse)
  have hlink : a.Expands k (k.modify (a.linkAccess c o · stmt)) :=
    a.expands_modify (a.adds_linkAccess wf hm hmem k.state)
  have hretains := hlink.grows.retains
  exact hlink.trans (a.expands_dispatchCall wf (hlink.quiet hq) (hm.mono hretains.toExtends)
    (ho.mono hretains) hstmt)

end Objects

/-! ## Turns -/

omit wf in
/-- An object that has arrived at a variable is one of the heap. -/
theorem Sound.hasObject {given : Fact → Prop} {T : Theory a given} {s : State} (hs : Sound T s)
    {i : PointerId} {c : Context} {v : VarId} {o : CsObjectId} (hi : s.IsPointer i (.var c v))
    (ho : (s.elements.pointsTo i).contains o = true) : ∃ r x, s.HasObject c v o r x := by
  obtain ⟨q, y, z, -, -, hz, -⟩ := hs.pointsTo i o ho
  obtain ⟨id, hid, hx⟩ := hz
  exact ⟨_, _, ⟨i, hi, ho⟩, hid, hx⟩

/-- A turn from a sound state in which all variables belong to reachable methods. -/
theorem Analysis.Turn.expands {given : Fact → Prop} {T : Theory a given} {k' : Machine π}
    (h : a.Turn react k k') (hs : Sound T k.state) (hq : Quiet react k.extensions)
    (hvars : ∀ i q, k.state.IsPointer i q → q.Within a.program k.state.Reaches) :
    a.Expands k k' := by
  cases h with
  | @visit j rest stmts pending order =>
      have hj := hs.pending j (pending.mem_iff.2 (List.mem_cons_self ..))
      obtain ⟨m, hm⟩ := hs.reachable j hj
      rw [hm.method] at order
      have htake : a.Expands k (k.modify fun s => { s with pending := rest }) :=
        a.expands_modify { State.Extends.refl k.state with }
      exact htake.trans (a.expands_visitInOrder wf
        (k := k.modify fun s => { s with pending := rest }) hq hm ⟨j, hj, hm⟩ order)
  | @absorb i objects rest targets tasks work successors order =>
      have habsorbs := State.absorbs_propagate work rfl (n := k.state.processed + 1) successors rfl
      unfold absorbInOrder
      dsimp only
      split
      · rename_i hempty
        change (objects.difference (k.state.elements.pointsTo i)).isEmpty = true at hempty
        rw [if_pos hempty] at habsorbs
        exact a.expands_modify (f := fun _ => _) habsorbs.adds
      · rename_i hnew
        change ¬(objects.difference (k.state.elements.pointsTo i)).isEmpty = true at hnew
        rw [if_neg hnew] at habsorbs
        obtain ⟨q, hi⟩ := hs.isPointer_of_new (work.mem_iff.2 (List.mem_cons_self ..))
          (Bool.eq_false_iff.2 hnew)
        simp only [Machine.modify]
        rw [hi.pointer] at order
        -- the propagated state has absorbed the entry, and meets nothing new
        generalize List.foldl _ _ _ = t at habsorbs ⊢
        have habsorb : a.Expands k ⟨t, k.extensions⟩ :=
          a.expands_modify (f := fun _ => t) habsorbs.adds
        have hi' := habsorbs.extends.isPointer hi
        refine habsorb.trans ?_
        unfold processInOrder
        simp only [hi'.pointer]
        cases q with
        | var c v =>
            refine Expands.notify (k := ⟨t, k.extensions⟩) (Expands.foldl fun task htask k' hk' => ?_) hq
              Notice.noConfusion
            obtain ⟨ho, hstmt⟩ := List.mem_product.1 (order.mem_iff.1 htask)
            obtain ⟨r, x, hobject⟩ := (habsorbs.sound hs).hasObject hi'
              (habsorbs.contains_of_new ((ObjectSet.mem_toList _ _).1 ho))
            have hreach : k.state.Reaches ⟨c, (a.program.varAt v).method⟩ := hvars i _ hi
            have hretains := hk'.grows.retains
            exact a.expands_attend wf (hk'.quiet hq)
              ((hreach.mono habsorbs.extends).mono hretains.toExtends) (hobject.mono hretains) hstmt
        | _ => exact ⟨rfl, .refl⟩

/-- A step from a sound state in which all variables belong to reachable methods. -/
theorem Analysis.expands_step {given : Fact → Prop} {T : Theory a given} (hs : Sound T k.state)
    (hq : Quiet react k.extensions)
    (hvars : ∀ i q, k.state.IsPointer i q → q.Within a.program k.state.Reaches) :
    a.Expands k (a.step react k) := by
  have hcases : a.Turn react k (a.step react k) ∨ _ := a.step_turn wf k
  rcases hcases with hturn | ⟨heq, -⟩
  · exact hturn.expands wf hs hq hvars
  · rw [heq]
    exact ⟨rfl, .refl⟩

end Operations

end PointsTo
