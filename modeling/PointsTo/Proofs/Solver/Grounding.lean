import PointsTo.Proofs.Solver.Growth
import PointsTo.Proofs.Solver.Termination

/-! # The call graph is grounded

In every state of a run without further extensions, whatever the state knows about a method in a
context is there because the method is reachable in the context, and the method is reachable because
a method that was discovered earlier calls it. So each reachable method is on a path of calls from the
entry method.
-/

namespace PointsTo

/-! ## Call graphs -/

namespace CsCallGraph

/-- Methods that are reachable keep their place in the order of discovery. -/
theorem getElem?_addReachable {g : CsCallGraph} {m i : CsMethodId} {n : Nat}
    (h : g.reachable[n]? = some i) : (g.addReachable m).reachable[n]? = some i := by
  unfold addReachable
  split
  · exact h
  · have hlt := (Array.getElem?_eq_some_iff.1 h).1
    rw [Array.getElem?_push, if_neg (Nat.ne_of_lt hlt)]
    exact h

/-- A place in the order of discovery is an old one, or it is the last one and new. -/
theorem of_getElem?_addReachable {g : CsCallGraph} {m i : CsMethodId} {n : Nat}
    (h : (g.addReachable m).reachable[n]? = some i) :
    g.reachable[n]? = some i ∨ n = g.reachable.size ∧ i = m := by
  unfold addReachable at h
  split at h
  · exact Or.inl h
  · rw [Array.getElem?_push] at h
    split at h
    · rename_i hn
      exact Or.inr ⟨hn, (Option.some.inj h).symm⟩
    · exact Or.inl h

/-- No method is reachable twice. -/
theorem nodup_addReachable {g : CsCallGraph} (h : g.reachable.toList.Nodup) (m : CsMethodId) :
    (g.addReachable m).reachable.toList.Nodup := by
  unfold addReachable
  split
  · exact h
  · rename_i hnew
    rw [Array.toList_push, List.nodup_append]
    refine ⟨h, by simp, fun i hi j hj heq => hnew ?_⟩
    rw [List.mem_singleton] at hj
    subst hj heq
    exact Array.contains_iff_mem.2 (Array.mem_toList_iff.1 hi)

end CsCallGraph

namespace State

/-- The call graph of the state has an edge from the first method to the second one. -/
def Calls (p : Program) (s : State) (m m' : CsMethod) : Prop :=
  ∃ site, s.HasCall site m' ∧ p.callerOf site = m

/-- Methods are discovered one after the other: the entry method first, and then callees of methods that
were discovered earlier. -/
structure Discovered (p : Program) (entry : MethodId) (s : State) : Prop where
  callee : ∀ e ∈ s.calls.edges, e.callee ∈ s.calls.reachable
  nodup : s.calls.reachable.toList.Nodup
  entry : ∃ i, s.calls.reachable[0]? = some i ∧ s.IsMethod i ⟨[], entry⟩
  caller : ∀ n i, s.calls.reachable[n]? = some i → n ≠ 0 → ∃ e ∈ s.calls.edges, e.callee = i ∧
    ∃ site m j, s.IsCallSite e.callSite site ∧ m < n ∧ s.calls.reachable[m]? = some j ∧
      s.IsMethod j (p.callerOf site)
  coherent : s.calls.Coherent

/-- The call graph of a state is grounded in the entry method: all that is met in a context belongs to a
method that was discovered in the context. -/
structure Grounded (p : Program) (entry : MethodId) (s : State) : Prop extends
    s.Discovered p entry where
  var : ∀ i c v, s.IsPointer i (.var c v) → s.Reaches ⟨c, (p.varAt v).method⟩
  callSite : ∀ i c stmt, s.IsCallSite i ⟨c, stmt⟩ → s.Reaches ⟨c, (p.stmtAt stmt).method⟩

section Discovery

variable {p : Program} {entry : MethodId} {s t u : State} {R : CsMethod → Prop}

/-- What is added without touching the call graph discovers nothing. -/
theorem Discovered.adds (h : s.Discovered p entry) (hst : s.Adds p R t) : t.Discovered p entry where
  callee e he := by
    rw [hst.sameReachable]
    exact h.callee e (hst.sameEdges ▸ he)
  nodup := by
    rw [hst.sameReachable]
    exact h.nodup
  entry := by
    obtain ⟨i, hi, hentry⟩ := h.entry
    exact ⟨i, by rwa [hst.sameReachable], hst.isMethod hentry⟩
  caller n i hn hpos := by
    rw [hst.sameReachable] at hn ⊢
    rw [hst.sameEdges]
    obtain ⟨e, he, hcallee, site, m, j, hsite, hm, hj, hcaller⟩ := h.caller n i hn hpos
    exact ⟨e, he, hcallee, site, m, j, hst.isCallSite hsite, hm, hj, hst.isMethod hcaller⟩
  coherent := t.calls.coherent

/-- A new edge from a reachable method makes its callee the last one that is discovered, unless it was
discovered before. -/
theorem Discovered.call (h : s.Discovered p entry) {e : CallEdge} {site : CsCallSite}
    (hsite : s.IsCallSite e.callSite site) (hcaller : s.Reaches (p.callerOf site))
    (hnew : s.calls.hasEdge e = false) :
    ({ s with calls := s.calls.addEdge e }.reachMethod e.callee).Discovered p entry := by
  have hext := s.extends_call e
  obtain ⟨pending, heq⟩ := s.call_with e
  rw [heq] at hext ⊢
  have hplace {n : Nat} {i : CsMethodId} (hi : s.calls.reachable[n]? = some i) :
      ((s.calls.addEdge e).addReachable e.callee).reachable[n]? = some i := by
    refine CsCallGraph.getElem?_addReachable ?_
    rwa [CsCallGraph.reachable_addEdge]
  -- the places of earlier methods do not change, as a new method comes last
  refine ⟨fun e' he' => ?_, ?_, ?_, fun n i hn hpos => ?_, CsCallGraph.coherent _⟩
  · show e'.callee ∈ ((s.calls.addEdge e).addReachable e.callee).reachable
    rw [CsCallGraph.mem_reachable_addReachable, CsCallGraph.reachable_addEdge]
    rw [CsCallGraph.edges_addReachable] at he'
    rcases CsCallGraph.mem_edges_addEdge he' with he' | rfl
    · exact Or.inl (h.callee e' he')
    · exact Or.inr rfl
  · refine CsCallGraph.nodup_addReachable ?_ _
    rw [CsCallGraph.reachable_addEdge]
    exact h.nodup
  · obtain ⟨i, hi, hentry⟩ := h.entry
    exact ⟨i, hplace hi, hext.isMethod hentry⟩
  · rcases CsCallGraph.of_getElem?_addReachable hn with hn | ⟨rfl, rfl⟩
    · rw [CsCallGraph.reachable_addEdge] at hn
      obtain ⟨e', he', hcallee, site', m, j, hsite', hm, hj, hcaller'⟩ := h.caller n i hn hpos
      exact ⟨e', hext.edges e' he', hcallee, site', m, j, hext.isCallSite hsite', hm, hplace hj,
        hext.isMethod hcaller'⟩
    · -- the new edge is the one that discovers its callee
      obtain ⟨j, hj, hcaller⟩ := hcaller
      obtain ⟨m, hm⟩ := Array.mem_iff_getElem?.1 hj
      refine ⟨e, ?_, rfl, site, m, j, hext.isCallSite hsite, ?_, hplace hm, hext.isMethod hcaller⟩
      · show e ∈ ((s.calls.addEdge e).addReachable e.callee).edges
        rw [CsCallGraph.edges_addReachable]
        exact CsCallGraph.mem_edges_addEdge_self hnew
      · rw [CsCallGraph.reachable_addEdge]
        exact (Array.getElem?_eq_some_iff.1 hm).1

namespace Grounded

/-- The method of a pointer is reachable in its context. -/
theorem within (h : s.Grounded p entry) (i : PointerId) (q : Pointer) (hi : s.IsPointer i q) :
    q.Within p s.Reaches := by
  cases q with
  | var c v => exact h.var i c v hi
  | _ => trivial

/-- What is met belongs to methods that are reachable in the end. -/
theorem of_adds (h : s.Grounded p entry) (hst : s.Adds p R t) (htu : t.Extends u)
    (helements : u.elements = t.elements) (hu : u.Discovered p entry)
    (hR : ∀ m, R m → u.Reaches m) : u.Grounded p entry where
  toDiscovered := hu
  var i c v hi := by
    rw [IsPointer, helements] at hi
    rcases hst.pointer i _ hi with hi | hi
    · exact ((h.var i c v hi).mono hst.toExtends).mono htu
    · exact hR _ hi
  callSite i c stmt hi := by
    rw [IsCallSite, helements] at hi
    rcases hst.callSite i _ hi with hi | hi
    · exact ((h.callSite i c stmt hi).mono hst.toExtends).mono htu
    · exact hR _ hi

/-- What is added within methods that are reachable afterwards keeps the state grounded. -/
theorem adds (h : s.Grounded p entry) (hst : s.Adds p R t) (hR : ∀ m, R m → t.Reaches m) :
    t.Grounded p entry :=
  h.of_adds hst (Extends.refl t) rfl (h.toDiscovered.adds hst) hR

/-- Whatever a run does to the call graph keeps it grounded. -/
theorem grows {a : Analysis} (h : s.Grounded a.program entry) (hst : a.Grows s t) :
    t.Grounded a.program entry := by
  cases hst with
  | adds hadds => exact h.adds hadds fun m hm => hm.mono hadds.toExtends
  | @again _ e callee hadds hcallee hold =>
      have hdiscovered := h.toDiscovered.adds hadds
      refine h.adds hadds fun m hm => hm.elim (fun hm => hm.mono hadds.toExtends) ?_
      rintro rfl
      -- the edge that was there before has the same callee
      obtain ⟨e', he', -, heq⟩ := CsCallGraph.hasEdge_iff.1 hold
      exact ⟨e.callee, heq ▸ hdiscovered.callee e' he', hcallee⟩
  | @call u e site callee call hadds hsite hcallee hcaller _ _ _ hnew =>
      have hext := u.extends_call e
      have hdiscovered := (h.toDiscovered.adds hadds).call hsite (hcaller.mono hadds.toExtends) hnew
      have hreached := State.mem_reachable_reachMethod { u with calls := u.calls.addEdge e } e.callee
      obtain ⟨pending, heq⟩ := u.call_with e
      refine h.of_adds hadds hext (by rw [heq]) hdiscovered fun m hm => ?_
      rcases hm with hm | rfl
      · exact (hm.mono hadds.toExtends).mono hext
      · exact ⟨e.callee, hreached, hext.isMethod hcallee⟩

/-- Every reachable method is on a path of call edges from the entry method. -/
theorem path (h : s.Grounded p entry) {m : CsMethod} (hm : s.Reaches m) :
    Relation.ReflTransGen (s.Calls p) ⟨[], entry⟩ m := by
  obtain ⟨i, hi, him⟩ := hm
  obtain ⟨n, hn⟩ := Array.mem_iff_getElem?.1 hi
  -- the caller of a method was discovered earlier
  induction n using Nat.strong_induction_on generalizing i m with
  | _ n ih =>
    by_cases hzero : n = 0
    · subst hzero
      obtain ⟨j, hj, hentry⟩ := h.entry
      cases hj.symm.trans hn
      cases hentry.symm.trans him
      exact .refl
    · obtain ⟨e, he, rfl, site, k, j, hsite, hk, hj, hcaller⟩ := h.caller n i hn hzero
      have hpath := ih k hk j (Array.mem_of_getElem? hj) hcaller hj
      exact hpath.tail ⟨site, ⟨e, he, hsite, him⟩, rfl⟩

end Grounded

end Discovery

end State

/-! ## Runs -/

section Runs

variable {a : Analysis} {entry : MethodId} {s : State}

/-- The first state has met the entry method and nothing else. -/
theorem Analysis.start_with (hs : State.initial.Agrees s) (entry : MethodId) :
    ∃ i, (start entry s).IsMethod i ⟨[], entry⟩ ∧ (start entry s).calls.reachable = #[i] ∧
      (start entry s).calls.edges = #[] ∧ (start entry s).elements.pointers = .empty ∧
      (start entry s).elements.callSites = .empty := by
  have hself := s.isMethod_internMethod ⟨[], entry⟩
  cases hintern : s.internMethod ⟨[], entry⟩ with
  | mk i t =>
      rw [hintern] at hself
      have ht : t.calls = s.calls ∧ t.elements.pointers = s.elements.pointers ∧
          t.elements.callSites = s.elements.callSites := by
        rw [State.internMethod] at hintern
        cases hintern
        exact ⟨rfl, rfl, rfl⟩
      have hreachable : t.calls.reachable = #[] := by
        rw [ht.1]
        exact hs.reachable
      -- Nothing is reachable yet, so the entry method is new.
      have hnew : t.calls.reachable.contains i = false := by
        rw [hreachable]
        exact Bool.eq_false_iff.2 fun hi => Array.not_mem_empty i (Array.contains_iff_mem.1 hi)
      have hentries : t.calls.entries = #[] := by
        rw [ht.1]
        exact hs.entries
      rw [start_eq entry s hintern hentries]
      simp only [State.reachMethod, CsCallGraph.isReachable, CsCallGraph.addReachable, hnew,
        Bool.false_eq_true, if_false]
      refine ⟨i, hself, by rw [hreachable]; rfl, by rw [ht.1]; exact hs.edges, ?_, ?_⟩
      · rw [ht.2.1, hs.elements]
        rfl
      · rw [ht.2.2, hs.elements]
        rfl

/-- At the start only the entry method is met. -/
theorem Analysis.grounded_start (p : Program) (hs : State.initial.Agrees s) (entry : MethodId) :
    (start entry s).Grounded p entry := by
  obtain ⟨i, hi, hreachable, hedges, hpointers, hcallSites⟩ := start_with hs entry
  refine ⟨⟨fun e he => ?_, ?_, ⟨i, by rw [hreachable]; rfl, hi⟩, fun n j hn hpos => ?_, CsCallGraph.coherent _⟩,
    fun j c v hj => ?_, fun j c stmt hj => ?_⟩
  · rw [hedges] at he
    exact absurd he (Array.not_mem_empty e)
  · rw [hreachable]
    exact List.nodup_singleton i
  · rw [hreachable] at hn
    have hlt := (Array.getElem?_eq_some_iff.1 hn).1
    exact absurd (Nat.lt_one_iff.1 hlt) hpos
  · rw [State.IsPointer, hpointers] at hj
    simp [Table.empty] at hj
  · rw [State.IsCallSite, hcallSites] at hj
    simp [Table.empty] at hj

/-- Mocking the arguments of the entry method meets nothing but its first parameter. -/
theorem Analysis.adds_mockArguments (wf : a.program.WellFormed) (hentry : s.Reaches ⟨[], entry⟩)
    (arrivals : List Extension) :
    ∃ t, (Extension.mockArguments a.program ⟨[], entry⟩).run s arrivals = ((), t, arrivals) ∧
      s.Adds a.program s.Reaches t := by
  cases harg : a.program.mainArgument? entry with
  | none =>
      obtain ⟨text, hrun⟩ := Extension.run_mockArguments_of_none ⟨[], entry⟩ harg s arrivals
      exact ⟨_, hrun, s.adds_report _ _⟩
  | some arg =>
      obtain ⟨param, type, element⟩ := arg
      obtain ⟨b, hb, hparam⟩ := Program.mainArgument?_eq_some harg
      obtain ⟨text, hrun⟩ := Extension.run_mockArguments_of_some ⟨[], entry⟩ harg
        (s := s) arrivals rfl rfl rfl rfl rfl rfl
      have hwithin : (Pointer.var [] param).Within a.program s.Reaches :=
        Pointer.within_var (m := ⟨[], entry⟩) ((wf.body _ b hb).param param hparam) hentry
      refine ⟨_, hrun, ?_⟩
      -- two objects are made and put into the empty context, and two pointers are interned
      refine State.Adds.trans ?_ (State.adds_inject _ _ _)
      refine State.Adds.trans ?_ (State.adds_inject _ _ _)
      refine State.Adds.trans ?_ (State.adds_report _ _ _)
      refine State.Adds.trans ?_ (State.adds_internPointer _ hwithin)
      refine State.Adds.trans ?_ (State.adds_internPointer _ trivial)
      refine State.Adds.trans ?_ (State.adds_internObject _ _ _)
      refine State.Adds.trans ?_ (State.adds_internObject _ _ _)
      exact (s.adds_heap _).trans (State.adds_heap _ _)

/-- Between the steps of a run the call graph grows, starting from the entry method. -/
theorem Analysis.Running.notify_grows {wf : a.program.WellFormed} {k : Machine Extension}
    (h : a.Running wf entry k) :
    a.Grows k.state (k.notify (Extension.react a.program a.options) .started).state := by
  by_cases hmock : a.options.mockMainArgs = true
  · obtain ⟨i, hentries, hi, hmem⟩ := h.started.entries
    obtain ⟨t, hrun, hadds⟩ := a.adds_mockArguments wf ⟨i, hmem, hi⟩ []
    rw [a.notify_mocking h.extensions hmock hentries hi hrun]
    exact .adds hadds
  · rw [a.notify_not_mocking h.extensions hmock]
    exact .adds (.refl _)

/-- An invariant of the call graph holds in every state of a run if it holds at the start and whatever a
run does keeps it. -/
theorem Analysis.Passes.induction {P : State → Prop} (wf : a.program.WellFormed)
    (hmodel : a.heapModel = .allocationSite)
    (hstart : ∀ s, State.initial.Agrees s → P (Analysis.start entry s))
    (hgrows : ∀ s t, s.Grounded a.program entry → P s → a.Grows s t → P t) {k : Machine Extension}
    (h : a.Passes entry k) : k.state.Grounded a.program entry ∧ P k.state := by
  have hgrowsTo {s t : State} (hs : s.Grounded a.program entry ∧ P s) (hst : a.GrowsTo s t) :
      t.Grounded a.program entry ∧ P t := by
    induction hst with
    | refl => exact hs
    | tail _ hlast ih => exact ⟨ih.1.grows hlast, hgrows _ _ ih.1 ih.2 hlast⟩
  induction h with
  | start hs => exact ⟨grounded_start a.program hs entry, hstart _ hs⟩
  | step hk ih =>
      have hrunning := hk.running wf hmodel
      have hstep := a.expands_step wf hrunning.started.sound hrunning.quiet ih.1.within
      exact hgrowsTo ih hstep.grows
  | notify hk _ ih => exact hgrowsTo ih (.single (hk.running wf hmodel).notify_grows)

/-- Both loops lead to machines that the run comes to. -/
theorem Analysis.Passes.advance {k : Machine Extension} (isDone : Machine Extension → Bool)
    (hk : a.Passes entry k) :
    a.Passes entry (a.advance (Extension.react a.program a.options) isDone k) :=
  rounds_induction (fun _ hk => hk.step) hk _ _

/-- The main part of a run that gives a result ends with a machine that the run comes to. -/
theorem Analysis.passes_of_solveFrom (wf : a.program.WellFormed)
    (hmodel : a.heapModel = .allocationSite) (hs : State.initial.Agrees s) {r : Solution}
    (hr : (a.solveFrom (Extension.react a.program a.options) entry a.options.stock s).result =
      .ok r) : ∃ k, a.Passes entry k ∧ isDone k = true ∧ k.state.Agrees r.state := by
  -- The run makes steps until all is visited, tells of it, and makes steps until all is done.
  have hstart : a.Passes entry ⟨start entry s, a.options.stock⟩ := .start hs
  have hfirst := hstart.advance isVisited
  simp only [solveFrom] at hr
  generalize a.advance _ isVisited _ = k₁ at hfirst hr
  split at hr
  · cases hr
  · rename_i hvisited
    have hsecond := (Passes.notify hfirst (by simpa using hvisited)).advance isDone
    generalize a.advance _ isDone _ = k₂ at hsecond hr
    split at hr
    · cases hr
    · rename_i hdone
      obtain ⟨t, ht, hagrees⟩ := a.finish_agrees (hsecond.running wf hmodel).quiet
      cases ht.symm.trans hr
      exact ⟨k₂, hsecond, by simpa using hdone, hagrees⟩

/-- A run that gives a result ends with a machine that the run comes to. -/
theorem Analysis.passes_of_solveWith (wf : a.program.WellFormed)
    (hmodel : a.heapModel = .allocationSite) {r : Solution} (hr : (a.solveWith []).result = .ok r) :
    ∃ entry k, a.entryMethod = .ok entry ∧ a.Passes entry k ∧ isDone k = true ∧
      k.state.Agrees r.state := by
  unfold solveWith solve at hr
  rw [List.append_nil] at hr
  split at hr
  · cases hr
  · rename_i entry hentry
    split at hr
    · cases hr
    · obtain ⟨k, hk, hdone, hagrees⟩ := passes_of_solveFrom wf hmodel
        ((State.agrees_report _ _ _).trans (State.agrees_report _ _ _)) hr
      exact ⟨entry, k, hentry, hk, hdone, hagrees⟩

end Runs

/-! ## The main result -/

/-- In every state that a run without further extensions comes to, whatever the selector: variables and
call sites are met only where their methods are reachable, callees are reachable, and the reachable
methods are discovered one after the other, each by a call from one that was discovered earlier, so that
each is on a path of call edges from the entry method. -/
theorem Analysis.callGraph_grounded {d : ProgramDef} {p : Program}
    (hp : (Program.build d).1 = .ok p) (o : Options) (sel : Selector) (entry : MethodId)
    {k : Machine Extension} (hk : Passes ⟨p, o, sel, .allocationSite⟩ entry k) :
    k.state.Grounded p entry ∧
      ∀ m, k.state.Reaches m → Relation.ReflTransGen (k.state.Calls p) ⟨[], entry⟩ m := by
  have wf := Program.build_wellFormed hp
  obtain ⟨hgrounded, -⟩ := hk.induction (P := fun _ => True) wf rfl (fun _ _ => trivial)
    fun _ _ _ _ _ => trivial
  exact ⟨hgrounded, fun m hm => hgrounded.path hm⟩

/-- The sample has a grounded call graph, and all its reachable methods are called from the entry. -/
theorem Analysis.callGraph_grounded_sample : ∃ p r entry k, (Program.build .sample).1 = .ok p ∧
    (solveWith ⟨p, ⟨.insensitive, none, true⟩, .object 1, .allocationSite⟩ []).result = .ok r ∧
    Passes ⟨p, ⟨.insensitive, none, true⟩, .object 1, .allocationSite⟩ entry k ∧
    k.state.Agrees r.state ∧ k.state.Grounded p entry ∧
    ∀ m, k.state.Reaches m → Relation.ReflTransGen (k.state.Calls p) ⟨[], entry⟩ m := by
  obtain ⟨p, r, hp, hr⟩ := ProgramDef.sample_solved true
  obtain ⟨entry, k, -, hk, -, hagrees⟩ := passes_of_solveWith (Program.build_wellFormed hp) rfl hr
  obtain ⟨hgrounded, hpaths⟩ := callGraph_grounded hp ⟨.insensitive, none, true⟩ (.object 1) entry hk
  exact ⟨p, r, entry, k, hp, hr, hk, hagrees, hgrounded, hpaths⟩

end PointsTo
