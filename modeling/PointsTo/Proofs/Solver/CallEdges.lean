import PointsTo.Proofs.Program.Acceptance
import PointsTo.Proofs.Solver.Grounding

/-! # What a call edge tells

A call edge is made for a method that a lookup has found. A loaded program lists each method under its own
subsignature in the class that declares it, and gives it a body of the shape that the subsignature says.
So the callee of an edge fits the call, whichever of the lookups has found it, and in whatever state.
-/

namespace PointsTo

/-! ## Methods that calls reach -/

/-- A call with a receiver is not static. -/
theorem Binding.kind_ne_static {b : Binding} {base : VarId} (h : b.base? = some base) :
    b.kind ≠ .static := by
  cases b with
  | static => cases h
  | _ => exact CallKind.noConfusion

namespace Program

/-- The method can be entered by the call: it is concrete, it is declared under the subsignature that the
call names, it has a receiver exactly if the call has one, and a parameter for each type of the
subsignature. An argument of the call gets lost only if the call does not have as many as it names. -/
structure FitsCall (p : Program) (call : Invoke) (m : MethodId) : Prop where
  lt : m.idx < p.methods.size
  concrete : (p.methodAt m).isAbstract = false
  isStatic : (p.methodAt m).isStatic = true ↔ call.binding.kind = .static
  subsignature : (p.methodAt m).ref.subsignature = call.target.subsignature
  this : ∀ b, (p.methodAt m).body? = some b →
    (b.this?.isSome = true ↔ call.binding.kind ≠ .static)
  params : ∀ b, (p.methodAt m).body? = some b →
    b.params.length = call.target.subsignature.params.length
  args : ∀ b, (p.methodAt m).body? = some b → (call.args.zip b.params).map Prod.fst ≠ call.args →
    call.args.length ≠ call.target.subsignature.params.length

variable {d : ProgramDef} {p : Program} {n : Nat} {call : Invoke} {c : ClassId} {m : MethodId}

/-- A dispatched method is a concrete instance method. -/
theorem concrete_of_dispatch? {s : Subsignature} (h : p.dispatch? c s = some m) :
    (p.methodAt m).isAbstract = false ∧ (p.methodAt m).isStatic = false := by
  obtain ⟨-, -, -, haccept⟩ := inherits_of_lookup? h
  simpa [isDispatchable] using haccept

namespace Underway

variable (h : p.Underway d n)

include h

/-- A method that is found under the subsignature of a call fits the call, and is declared by an ancestor
of the class where the lookup started. -/
theorem fitsCall_of_lookup? {accept : Method → Bool}
    (hm : p.lookup? accept c call.target.subsignature = some m)
    (habstract : (p.methodAt m).isAbstract = false)
    (hstatic : (p.methodAt m).isStatic = true ↔ call.binding.kind = .static) :
    p.FitsCall call m ∧ p.Inherits c (p.methodAt m).owner := by
  obtain ⟨owner, hinherits, hdeclared, -⟩ := inherits_of_lookup? hm
  obtain ⟨hlt, rfl, hsubsignature⟩ := h.registered.declared?_eq_some_iff.1 hdeclared
  -- Bodies have the shape of their definitions, so that the numbers of parameters agree.
  have hparams (b : Body) (hb : (p.methodAt m).body? = some b) :
      b.params.length = call.target.subsignature.params.length := by
    obtain ⟨x, -, hfits⟩ := h.fits m b hb
    rw [← hsubsignature, ← hfits.params, List.length_map]
  refine ⟨⟨hlt, habstract, hstatic, hsubsignature, fun b hb => ?_, hparams, fun b hb hargs hlength => ?_⟩,
    hinherits⟩
  · obtain ⟨x, -, hfits⟩ := h.fits m b hb
    rw [hfits.this, Bool.not_eq_true', ← Bool.not_eq_true, hstatic]
  · apply hargs
    refine List.map_fst_zip ?_
    rw [hparams b hb]
    exact Nat.le_of_eq hlength

theorem fitsCall_of_dispatch? (hm : p.dispatch? c call.target.subsignature = some m)
    (hkind : call.binding.kind ≠ .static) :
    p.FitsCall call m ∧ p.Inherits c (p.methodAt m).owner := by
  obtain ⟨habstract, hstatic⟩ := concrete_of_dispatch? hm
  refine h.fitsCall_of_lookup? hm habstract ?_
  rw [hstatic]
  exact ⟨fun hfalse => Bool.noConfusion hfalse, fun heq => absurd heq hkind⟩

end Underway

end Program

/-! ## Calls that states make -/

/-- The callee of the call is looked up from the class: the one that a static or a special call names, and
for other calls the one whose methods some object of the base variable has. -/
inductive State.LooksUpFrom (p : Program) (s : State) (site : CsCallSite) (call : Invoke)
    (c : ClassId) : Prop where
  | named (bound : call.binding.kind.isStaticallyBound = true)
      (found : p.findClass? call.target.className = some c)
  | receiver {base : VarId} {o : CsObjectId} {r : CsObject} {x : Object}
      (dispatched : call.binding.kind.isStaticallyBound = false)
      (binding : call.binding.base? = some base) (arrived : s.HasObject site.context base o r x)
      (found : p.dispatchClass? x.type = some c)

/-- The edge comes from a call statement of its kind. Its callee fits the call and is declared by an
ancestor of a class that the callee is looked up from. -/
structure State.Supports (p : Program) (s : State) (e : CallEdge) (site : CsCallSite)
    (callee : CsMethod) (call : Invoke) : Prop where
  isSite : s.IsCallSite e.callSite site
  isCallee : s.IsMethod e.callee callee
  invoke : (p.stmtAt site.stmt).kind = .invoke call
  kind : e.kind = call.binding.kind
  fits : p.FitsCall call callee.method
  start : ∃ c, s.LooksUpFrom p site call c ∧ p.Inherits c (p.methodAt callee.method).owner

/-- Every call edge of the state is supported, and no two of them have the same call site and callee. -/
structure State.SupportsCalls (p : Program) (s : State) : Prop where
  supported : ∀ e ∈ s.calls.edges, ∃ site callee call, s.Supports p e site callee call
  apart : (s.calls.edges.toList.map fun e => (e.callSite, e.callee)).Nodup

section Calls

variable {p : Program} {s t : State} {site : CsCallSite} {callee : CsMethod} {call : Invoke}

/-- The class that a callee is looked up from stays so, as the receiver stays an object of the base
variable. -/
theorem State.LooksUpFrom.mono (hst : s.Retains t) {c : ClassId} (h : s.LooksUpFrom p site call c) :
    t.LooksUpFrom p site call c := by
  cases h with
  | named bound found => exact .named bound found
  | receiver dispatched binding arrived found =>
      exact .receiver dispatched binding (arrived.mono hst) found

/-- An edge that is supported stays supported. -/
theorem State.Supports.mono (hst : s.Retains t) {e : CallEdge}
    (h : s.Supports p e site callee call) : t.Supports p e site callee call := by
  obtain ⟨c, hc, hinherits⟩ := h.start
  exact ⟨hst.isCallSite h.isSite, hst.isMethod h.isCallee, h.invoke, h.kind, h.fits, c, hc.mono hst,
    hinherits⟩

/-- The callee that is selected for a call fits it, and is found from where the lookup starts. -/
theorem Analysis.Selects.fitsCall {a : Analysis} {d : ProgramDef} {n : Nat}
    (hsel : a.Selects s call site callee) (h : a.program.Underway d n) :
    a.program.FitsCall call callee.method ∧
      ∃ c, s.LooksUpFrom a.program site call c ∧
        a.program.Inherits c (a.program.methodAt callee.method).owner := by
  -- a static call names its class, and other calls have one for their receiver; the lookup fits the
  -- call either way
  cases hsel with
  | static binding target _ =>
      obtain ⟨hresolve, haccept⟩ := Option.filter_eq_some_iff.1 target
      obtain ⟨c, hc, hm⟩ := Option.bind_eq_some_iff.1 hresolve
      rw [Bool.and_eq_true, Bool.not_eq_true'] at haccept
      obtain ⟨hfits, hinherits⟩ := h.fitsCall_of_lookup? hm haccept.2
        (iff_of_true haccept.1 (congrArg Binding.kind binding))
      exact ⟨hfits, c, .named (by rw [binding]; rfl) hc, hinherits⟩
  | receiver binding arrived target _ =>
      have hdispatched {c : ClassId} (hlooks : s.LooksUpFrom a.program site call c)
          (hm : a.program.dispatch? c call.target.subsignature = some callee.method) :
          a.program.FitsCall call callee.method ∧ ∃ c, s.LooksUpFrom a.program site call c ∧
            a.program.Inherits c (a.program.methodAt callee.method).owner := by
        obtain ⟨hfits, hinherits⟩ := h.fitsCall_of_dispatch? hm (Binding.kind_ne_static binding)
        exact ⟨hfits, c, hlooks, hinherits⟩
      unfold Program.resolveCallee? at target
      split at target
      · rename_i hbinding
        rw [hbinding] at binding
        cases binding
      · rename_i hbinding
        obtain ⟨c, hc, hm⟩ := Option.bind_eq_some_iff.1 target
        exact hdispatched (.named (by rw [hbinding]; rfl) hc) hm
      · rename_i hbinding
        rw [Option.bind_eq_bind, Option.bind_some] at target
        obtain ⟨c, hc, hm⟩ := Option.bind_eq_some_iff.1 target
        exact hdispatched (.receiver (by rw [hbinding]; rfl) binding arrived hc) hm
      · rename_i hbinding
        rw [Option.bind_eq_bind, Option.bind_some] at target
        obtain ⟨c, hc, hm⟩ := Option.bind_eq_some_iff.1 target
        exact hdispatched (.receiver (by rw [hbinding]; rfl) binding arrived hc) hm

namespace State.SupportsCalls

/-- What is added without touching the call graph keeps all edges supported. -/
theorem of_adds {R : CsMethod → Prop} (h : s.SupportsCalls p) (hst : s.Adds p R t) :
    t.SupportsCalls p := by
  refine ⟨fun e he => ?_, ?_⟩
  · rw [hst.sameEdges] at he
    obtain ⟨site, callee, call, hsupports⟩ := h.supported e he
    exact ⟨site, callee, call, hsupports.mono hst.toRetains⟩
  · rw [hst.sameEdges]
    exact h.apart

/-- A new edge that is supported keeps all edges supported. -/
theorem push (h : s.SupportsCalls p) {e : CallEdge}
    (hsupports : s.Supports p e site callee call) (hnew : s.calls.hasEdge e = false) :
    ({ s with calls := s.calls.addEdge e }.reachMethod e.callee).SupportsCalls p := by
  have hretains := s.retains_call e
  obtain ⟨pending, heq⟩ := s.call_with e
  rw [heq] at hretains ⊢
  have hedges : ((s.calls.addEdge e).addReachable e.callee).edges = s.calls.edges.push e := by
    rw [CsCallGraph.edges_addReachable, CsCallGraph.addEdge, if_neg (by simp [hnew])]
  refine ⟨fun e' he' => ?_, ?_⟩
  · rw [hedges, Array.mem_push] at he'
    rcases he' with he' | rfl
    · obtain ⟨site', callee', call', hsupports'⟩ := h.supported e' he'
      exact ⟨site', callee', call', hsupports'.mono hretains⟩
    · exact ⟨site, callee, call, hsupports.mono hretains⟩
  · rw [hedges, Array.toList_push, List.map_append, List.nodup_append]
    refine ⟨h.apart, List.nodup_singleton _, fun x hx y hy hxy => ?_⟩
    -- the graph would have an edge between the two ends of the new one
    obtain ⟨e', he', rfl⟩ := List.mem_map.1 hx
    rw [List.map_singleton, List.mem_singleton] at hy
    obtain ⟨hsite, hcallee⟩ := Prod.mk.inj (hxy.trans hy)
    have hold := CsCallGraph.hasEdge_iff.2 ⟨e', Array.mem_toList_iff.1 he', hsite, hcallee⟩
    rw [hnew] at hold
    cases hold

/-- Whatever a run does to the call graph keeps all edges supported. -/
theorem grows {a : Analysis} {d : ProgramDef} {n : Nat} (h : s.SupportsCalls a.program)
    (hp : a.program.Underway d n) (hst : a.Grows s t) : t.SupportsCalls a.program := by
  cases hst with
  | adds hadds => exact h.of_adds hadds
  | again hadds _ _ => exact h.of_adds hadds
  | call hadds hsite hcallee _ hinvoke hkind hselects hnew =>
      obtain ⟨hfits, hstart⟩ := hselects.fitsCall hp
      exact (h.of_adds hadds).push ⟨hsite, hcallee, hinvoke, hkind, hfits, hstart⟩ hnew

/-- Edges in different places have different call sites or different callees. -/
theorem eq_of_same_ends (h : s.SupportsCalls p) {i j : Nat} {e e' : CallEdge}
    (hi : s.calls.edges[i]? = some e) (hj : s.calls.edges[j]? = some e')
    (hsite : s.IsCallSite e.callSite site) (hsite' : s.IsCallSite e'.callSite site)
    (hcallee : s.IsMethod e.callee callee) (hcallee' : s.IsMethod e'.callee callee) : i = j := by
  have hsites : e.callSite = e'.callSite :=
    congrArg CsCallSiteId.mk (s.elements.callSites.distinct _ _ _ hsite hsite')
  have hcallees : e.callee = e'.callee :=
    congrArg CsMethodId.mk (s.elements.methods.distinct _ _ _ hcallee hcallee')
  refine (List.getElem?_inj ?_ h.apart).1 ?_
  · rw [List.length_map, Array.length_toList]
    exact (Array.getElem?_eq_some_iff.1 hi).1
  · rw [List.getElem?_map, List.getElem?_map, Array.getElem?_toList, Array.getElem?_toList, hi, hj]
    simp [hsites, hcallees]

end State.SupportsCalls

/-- The first state has no call edges. -/
theorem Analysis.supportsCalls_start (p : Program) (hs : State.initial.Agrees s) (entry : MethodId) :
    (start entry s).SupportsCalls p := by
  obtain ⟨-, -, -, hedges, -⟩ := start_with hs entry
  refine ⟨fun e he => ?_, ?_⟩
  · rw [hedges] at he
    exact absurd he (Array.not_mem_empty e)
  · rw [hedges]
    exact List.nodup_nil

end Calls

/-! ## The main result -/

/-- In every state that a run without further extensions comes to, whatever the selector, each call edge
comes from a call statement of its kind, and leads to a concrete method that is declared, under the
subsignature that the statement names, by an ancestor of the class where the lookup starts. The method has a
receiver exactly if the call has one, and the parameters that the call names. No two edges have the same
call site and the same callee. -/
theorem Analysis.callEdges_supported {d : ProgramDef} {p : Program}
    (hp : (Program.build d).1 = .ok p) (o : Options) (sel : Selector) (entry : MethodId)
    {k : Machine Extension} (hk : Passes ⟨p, o, sel, .allocationSite⟩ entry k) :
    (∀ e ∈ k.state.calls.edges, ∃ site callee call, k.state.Supports p e site callee call) ∧
      ∀ (i j : Nat) e e' site callee, k.state.calls.edges[i]? = some e →
        k.state.calls.edges[j]? = some e' → k.state.IsCallSite e.callSite site →
        k.state.IsCallSite e'.callSite site → k.state.IsMethod e.callee callee →
        k.state.IsMethod e'.callee callee → i = j := by
  have hunderway := Program.build_underway hp
  obtain ⟨-, hsupports⟩ := hk.induction (Program.build_wellFormed hp) rfl
    (fun s hs => supportsCalls_start p hs entry)
    fun s t _ hcalls hst => hcalls.grows hunderway hst
  exact ⟨hsupports.supported, fun i j e e' site callee hi hj => hsupports.eq_of_same_ends hi hj⟩

/-- The only call edge of the sample is supported. -/
theorem Analysis.callEdges_supported_sample : ∃ p r entry k, (Program.build .sample).1 = .ok p ∧
    (solveWith ⟨p, ⟨.insensitive, none, true⟩, .object 1, .allocationSite⟩ []).result = .ok r ∧
    Passes ⟨p, ⟨.insensitive, none, true⟩, .object 1, .allocationSite⟩ entry k ∧
    k.state.calls.edges.size = 1 ∧
    (∀ e ∈ k.state.calls.edges, ∃ site callee call, k.state.Supports p e site callee call) ∧
    ∀ (i j : Nat) e e' site callee, k.state.calls.edges[i]? = some e →
      k.state.calls.edges[j]? = some e' → k.state.IsCallSite e.callSite site →
      k.state.IsCallSite e'.callSite site → k.state.IsMethod e.callee callee →
      k.state.IsMethod e'.callee callee → i = j := by
  -- The run has an edge, which shows that what is said about edges is not said about none.
  have hsize : ((Program.build .sample).1.toOption.bind fun p =>
      (solveWith ⟨p, ⟨.insensitive, none, true⟩, .object 1, .allocationSite⟩ []).result.toOption.map
        fun r => r.state.calls.edges.size) = some 1 := by
    decide +kernel
  obtain ⟨p, r, hp, hr⟩ := ProgramDef.sample_solved true
  obtain ⟨entry, k, -, hk, -, hagrees⟩ := passes_of_solveWith (Program.build_wellFormed hp) rfl hr
  obtain ⟨hsupported, happart⟩ :=
    callEdges_supported hp ⟨.insensitive, none, true⟩ (.object 1) entry hk
  refine ⟨p, r, entry, k, hp, hr, hk, ?_, hsupported, happart⟩
  rw [hp, Except.toOption, Option.bind_some, hr] at hsize
  rw [← hagrees.edges]
  exact Option.some.inj hsize

end PointsTo
