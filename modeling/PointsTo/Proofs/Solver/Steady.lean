import PointsTo.Proofs.Solver.Listeners

/-! # Operations that find nothing

Most of what a run does leaves alone what a run finds: the call graph, the objects of pointers, and the
methods that are still to be visited. So do the operations on flow edges and on the work list, and so does
whatever an extension may do. Calls without a method may be recorded, but never twice.
-/

namespace PointsTo

namespace State

/-- The second state extends the first one, and has found the same. -/
structure Steady (s t : State) : Prop extends s.Extends t where
  sets : t.elements.pointsTo = s.elements.pointsTo := by rfl
  sameReachable : t.calls.reachable = s.calls.reachable := by rfl
  sameEdges : t.calls.edges = s.calls.edges := by rfl
  sameSites : t.calls.callSites = s.calls.callSites := by rfl
  pending : t.pending = s.pending := by rfl
  marked : s.unresolved.toList.Nodup → t.unresolved.toList.Nodup := by exact id

variable {s t u : State}

theorem Steady.refl (s : State) : s.Steady s := { Extends.refl s with }

/-- States that find the same one after the other find the same. -/
theorem Steady.trans (hst : s.Steady t) (htu : t.Steady u) : s.Steady u where
  toExtends := hst.toExtends.trans htu.toExtends
  sets := htu.sets.trans hst.sets
  sameReachable := htu.sameReachable.trans hst.sameReachable
  sameEdges := htu.sameEdges.trans hst.sameEdges
  sameSites := htu.sameSites.trans hst.sameSites
  pending := htu.pending.trans hst.pending
  marked h := htu.marked (hst.marked h)

/-- A loop of steps that find nothing finds nothing. -/
theorem Steady.foldl {α : Type} {f : State → α → State} (h : ∀ s x, Steady s (f s x)) (l : List α)
    (s : State) : s.Steady (l.foldl f s) :=
  List.foldlRecOn l f (.refl s) fun t ht x _ => ht.trans (h t x)

/-- A method is made reachable, and is to be visited then, unless it was reachable before. -/
theorem reachMethod_cases (s : State) (m : CsMethodId) :
    s.reachMethod m = s ∧ m ∈ s.calls.reachable ∨
      m ∉ s.calls.reachable ∧ s.reachMethod m = { s with
        calls := { s.calls with reachable := s.calls.reachable.push m },
        pending := s.pending.push m } := by
  unfold reachMethod CsCallGraph.addReachable CsCallGraph.isReachable
  by_cases h : s.calls.reachable.contains m = true
  · rw [if_pos h]
    exact Or.inl ⟨rfl, Array.contains_iff_mem.1 h⟩
  · rw [if_neg h, if_neg h]
    exact Or.inr ⟨fun hm => h (Array.contains_iff_mem.2 hm), rfl⟩

/-! ## Operations -/

/-- Where nothing matters to the analysis and no call site is recorded, nothing is found. -/
theorem Agrees.steady (h : s.Agrees t) (hsites : t.calls.callSites = s.calls.callSites) :
    s.Steady t where
  toExtends := h.extends
  sets := congrArg Elements.pointsTo h.elements
  sameReachable := h.reachable
  sameEdges := h.edges
  sameSites := hsites
  pending := h.pending
  marked hs := by rwa [h.unresolved]

/-- Reports find nothing. -/
theorem steady_report (s : State) (severity : Severity) (text : String) :
    s.Steady (s.report severity text) :=
  (s.agrees_report severity text).steady rfl

/-- A new pointer has no objects, so interning finds nothing. -/
theorem steady_internPointer (s : State) (p : Pointer) : s.Steady (s.internPointer p).2 where
  toExtends := s.extends_internPointer p
  sets := s.pointsTo_internPointer p

/-- Interning an object finds nothing. -/
theorem steady_internObject (s : State) (c : Context) (o : ObjectId) :
    s.Steady (s.internObject c o).2 where
  toExtends := s.extends_internObject c o

/-- Interning a call site does not record it for its method. -/
theorem steady_internCallSite (s : State) (c : CsCallSite) : s.Steady (s.internCallSite c).2 where
  toExtends := s.extends_internCallSite c

/-- Interning a method does not make it reachable. -/
theorem steady_internMethod (s : State) (m : CsMethod) : s.Steady (s.internMethod m).2 where
  toExtends := s.extends_internMethod m

/-- Objects of the heap are found only when some pointer has them. -/
theorem steady_heap (s : State) (o : Object) : s.Steady { s with heap := (s.heap.intern o).2 } where
  toExtends := { Extends.refl s with heap := s.heap.extends_intern o }

/-- What is pushed is found when it is taken from the work list, not before. -/
theorem steady_push (s : State) (i : PointerId) (objects : ObjectSet) :
    s.Steady (s.push i objects) where
  toExtends := s.extends_push i objects

/-- Objects from outside are pushed, too. -/
theorem steady_inject (s : State) (i : PointerId) (objects : ObjectSet) :
    s.Steady (s.inject i objects) :=
  (s.steady_report _ _).trans (steady_push _ i objects)

/-- A flow edge pushes objects along, and finds nothing by itself. -/
theorem steady_addFlow (s : State) (i j : PointerId) : s.Steady (s.addFlow i j) := by
  have hext := s.extends_addFlow i j
  obtain ⟨flow, work, heq⟩ := s.addFlow_with i j
  rw [heq] at hext ⊢
  exact { hext with }

/-- Connecting two pointers finds nothing. -/
theorem steady_connect (s : State) (p q : Pointer) : s.Steady (s.connect p q) := by
  rw [connect_eq]
  exact ((s.steady_internPointer p).trans (steady_internPointer _ q)).trans (steady_addFlow _ _ _)

/-- Nor does connecting them with the target interned first. -/
theorem steady_connectInto (s : State) (p q : Pointer) : s.Steady (s.connectInto p q) := by
  rw [connectInto_eq]
  exact ((s.steady_internPointer p).trans (steady_internPointer _ q)).trans (steady_addFlow _ _ _)

/-- An assigned object is pushed for its variable. -/
theorem steady_assign (s : State) (p : Pointer) (o : CsObjectId) : s.Steady (s.assign p o) :=
  (s.steady_internPointer p).trans (steady_push _ _ _)

/-- An unresolved call is recorded once, and finds nothing. -/
theorem steady_markUnresolved (s : State) (c : StmtId) : s.Steady (s.markUnresolved c) := by
  have hext := s.extends_markUnresolved c
  unfold markUnresolved at hext ⊢
  split
  · exact .refl s
  · rename_i hnew
    rw [if_neg hnew] at hext
    refine { hext with marked := fun h => ?_ }
    rw [Array.toList_push]
    -- the call was looked for before it was recorded
    refine h.append (List.nodup_singleton c) (List.disjoint_singleton.2 fun hc => hnew ?_)
    exact Array.contains_iff_mem.2 (Array.mem_toList_iff.1 hc)

end State

open State

variable {a : Analysis} {π α : Type}

namespace Analysis

/-- Arguments and results are linked by flow edges only. -/
theorem steady_linkCall (call : Invoke) (caller callee : Context) (body : Body) (s : State) :
    s.Steady (linkCall call caller callee body s) := by
  have hargs := Steady.foldl (fun s (pair : VarId × VarId) =>
    s.steady_connect (.var caller pair.1) (.var callee pair.2)) (call.args.zip body.params) s
  unfold linkCall
  split
  · exact hargs
  -- the variable of the result is interned once, then each returned variable is connected to it
  · refine (hargs.trans (steady_internPointer _ _)).trans (Steady.foldl (fun s r => ?_) _ _)
    exact s.steady_connectInto _ _

/-- A wrong number of arguments is reported at most. -/
theorem steady_checkArity (stmt : StmtId) (call : Invoke) (method : MethodId) (body : Body)
    (s : State) : s.Steady (a.checkArity stmt call method body s) := by
  unfold checkArity
  split
  · exact .refl s
  · exact s.steady_report _ _

/-- After its callee was made reachable, a call finds nothing more. -/
theorem steady_enterCallee (call : Invoke) (site : CsCallSite) (callee : CsMethod) (id : CsMethodId)
    (s : State) : ∃ text,
      ((s.report .trace text).reachMethod id).Steady (a.enterCallee call site callee id s) := by
  refine ⟨"new " ++ call.binding.kind.text ++ " call edge " ++ a.program.stmtText site.stmt ++ " -> "
    ++ a.program.methodText callee.method, ?_⟩
  unfold enterCallee
  dsimp only
  generalize State.reachMethod _ _ = t
  split
  · exact .refl t
  · exact (steady_checkArity _ _ _ _ t).trans (steady_linkCall _ _ _ _ _)

/-- The object of an allocation is pushed for the variable. -/
theorem steady_visitNew (method : CsMethod) (stmt : StmtId) (lhs : VarId) (type : Ty) (s : State) :
    s.Steady (a.visitNew method stmt lhs type s) := by
  obtain ⟨x, o, i, heq⟩ := a.visitNew_from method stmt lhs type s
  rw [heq]
  exact ((s.steady_heap x).trans (steady_internObject _ _ _)).trans (steady_assign _ _ i)

/-- An access of a field or an array adds a flow edge at most. -/
theorem steady_linkAccess (c : Context) (o : CsObjectId) (s : State) (stmt : StmtId) :
    s.Steady (a.linkAccess c o s stmt) := by
  unfold linkAccess
  split
  · exact s.steady_connectInto _ _
  · exact s.steady_connect _ _
  · exact s.steady_connectInto _ _
  · exact s.steady_connect _ _
  · exact .refl s

/-- The receiver is pushed for the variable of the callee. -/
theorem steady_bindThis (callee : CsMethod) (o : CsObjectId) (s : State) :
    s.Steady (a.bindThis callee o s) := by
  unfold bindThis
  split
  · exact s.steady_assign _ o
  · exact .refl s

end Analysis

/-! ## Extensions -/

/-- Whatever a script does, it finds nothing by itself. -/
theorem Script.run_steady (x : Script π α) (s : State) (arrivals : List π) :
    -- one case for each action of a script; what follows an action may look at the state after it
    s.Steady (x.run s arrivals).2.1 := by
  induction x generalizing s arrivals with
  | done => exact .refl s
  | view next ih => exact ih s s arrivals
  | pointer p next ih => exact (s.steady_internPointer p).trans (ih _ _ arrivals)
  | object c o next ih => exact (s.steady_internObject c o).trans (ih _ _ arrivals)
  | callSite c next ih => exact (s.steady_internCallSite c).trans (ih _ _ arrivals)
  | method m next ih => exact (s.steady_internMethod m).trans (ih _ _ arrivals)
  | mock d t c next ih => exact (s.steady_heap ⟨.mock d, t, none, c⟩).trans (ih _ _ arrivals)
  | inject p objects next ih => exact (s.steady_inject p objects).trans (ih _ arrivals)
  | flow source target next ih => exact (s.steady_addFlow source target).trans (ih _ arrivals)
  | register e next ih => exact ih s _
  | report severity text next ih => exact (s.steady_report severity text).trans (ih _ arrivals)
  | note event next ih =>
      have hnote : s.Agrees (s.note event) := ⟨rfl, rfl, rfl, rfl, rfl, rfl, rfl, rfl, rfl, rfl⟩
      exact (hnote.steady rfl).trans (ih _ arrivals)

/-- A round of reactions finds nothing, whatever the extensions do. -/
theorem Machine.round_steady (react : Reaction π) (n : Notice) (es : List π) (s : State)
    (arrivals : List π) : s.Steady (round react n es s arrivals).2.1 := by
  induction es generalizing s arrivals with
  | nil => exact .refl s
  | cons e es ih => exact ((react n e).run_steady s arrivals).trans (ih _ _)

/-- Telling the extensions of an event finds nothing. -/
theorem Machine.notify_steady (react : Reaction π) (n : Notice) (k : Machine π) :
    k.state.Steady (k.notify react n).state :=
  round_steady react n k.extensions k.state []

/-- In a round, all extensions are told in states that have found the same. -/
theorem sets_of_mem_hearings {react : Reaction π} {n : Notice} {es : List π} {s : State}
    {h : Hearing π} (hmem : h ∈ hearings react n es s) :
    h.state.elements.pointsTo = s.elements.pointsTo := by
  induction es generalizing s with
  | nil => cases hmem
  | cons e es ih =>
      rcases List.mem_cons.1 hmem with rfl | hmem
      -- the others are told in the state that the first one leaves
      · rfl
      · exact (ih hmem).trans ((react n e).run_steady s []).sets

end PointsTo
