import PointsTo.Proofs.Solver.Grounding

/-! # Contexts stay bounded

No step of a run checks how long a context is: static calls may pass on the context of the caller,
receivers bring the contexts in which they were allocated, and those are cut to another length. That
contexts stay within the bound of the selector, and that their tokens are of one kind and name what
they should name, is an invariant of all tables together. What the tables hold can be derived, so it is
enough that no rule leads out of the invariant. Tables only grow, so whatever is met within a step is
still there at its end.
-/

namespace PointsTo

/-! ## Contexts of a selector -/

/-- The token is one that the selector puts into contexts: it names a call of the program, an object of
the heap, or the container of one. -/
inductive Token.Names (p : Program) (h : Heap) : Selector → Token → Prop where
  | callSite {k : Nat} {s : StmtId} {call : Invoke} (stmt : s ∈ p.stmtIds)
      (kind : (p.stmtAt s).kind = .invoke call) : Names p h (.callSite k) (.callSite s)
  | object {k : Nat} {o : ObjectId} (known : o ∈ h.ids) : Names p h (.object k) (.object o)
  | type {k : Nat} {o : ObjectId} (known : o ∈ h.ids) : Names p h (.type k) (.type (h.get o).container)

/-- The context has at most `n` tokens, all of them from the selector. -/
structure Context.Fits (p : Program) (h : Heap) (sel : Selector) (n : Nat) (c : Context) : Prop where
  length_le : c.length ≤ n
  names : ∀ t ∈ c, t.Names p h sel

namespace Context.Fits

variable {p : Program} {h : Heap} {sel : Selector} {c : Context} {n : Nat}

theorem nil : Context.Fits p h sel n [] := ⟨Nat.zero_le n, fun _ ht => absurd ht List.not_mem_nil⟩

/-- A context that is cut fits the number of tokens that are left. -/
theorem lastK (hc : c.Fits p h sel n) (k : Nat) : (c.lastK k).Fits p h sel k :=
  ⟨length_lastK_le c k, fun t ht => hc.names t (mem_of_mem_lastK ht)⟩

/-- However long the context was, adding a token cuts it to the length that is kept. -/
theorem extend (hc : c.Fits p h sel n) {x : Token} (hx : x.Names p h sel) (k : Nat) :
    (c.extend x k).Fits p h sel k := by
  refine ⟨length_extend_le c x k, fun t ht => ?_⟩
  rcases mem_or_eq_of_mem_extend ht with ht | rfl
  · exact hc.names t ht
  · exact hx

/-- Without context sensitivity a context has no tokens. -/
theorem eq_nil (hc : c.Fits p h .insensitive n) : c = [] :=
  List.eq_nil_iff_forall_not_mem.2 fun t ht => nomatch hc.names t ht

end Context.Fits

section Selectors

variable {p : Program} {h : Heap} {sel : Selector}

/-- Heap contexts fit, with one token less. -/
theorem Selector.heapContext_fits {m : CsMethod} (hm : m.context.Fits p h sel sel.bound) :
    (sel.heapContext m).Fits p h sel (sel.bound - 1) := by
  cases sel with
  | insensitive => exact .nil
  | callSite k => exact hm.lastK (k - 1)
  | object k => exact hm.lastK (k - 1)
  | type k => exact hm.lastK (k - 1)

/-- Contexts of static calls fit. -/
theorem Selector.calleeContext_fits (site : CsCallSite) {call : Invoke}
    (hs : site.context.Fits p h sel sel.bound) (hmem : site.stmt ∈ p.stmtIds)
    (hkind : (p.stmtAt site.stmt).kind = .invoke call) :
    (sel.calleeContext site).Fits p h sel sel.bound := by
  cases sel with
  | insensitive => exact .nil
  | callSite k => exact hs.extend (.callSite hmem hkind) k
  | object k => exact hs
  | type k => exact hs

/-- Contexts selected for receivers fit, as heap contexts leave room for the receiver. -/
theorem Selector.receiverContext_fits (site : CsCallSite) {o : CsObject} {call : Invoke}
    (hs : site.context.Fits p h sel sel.bound) (hmem : site.stmt ∈ p.stmtIds)
    (hkind : (p.stmtAt site.stmt).kind = .invoke call)
    (ho : o.context.Fits p h sel (sel.bound - 1)) (hid : o.object ∈ h.ids)
    (hcontainer : o.container = (h.get o.object).container) :
    (sel.receiverContext site o).Fits p h sel sel.bound := by
  cases sel with
  | insensitive => exact .nil
  | callSite k => exact hs.extend (.callSite hmem hkind) k
  | object k => exact ho.extend (.object hid) k
  | type k =>
      refine ho.extend ?_ k
      rw [hcontainer]
      exact .type hid

end Selectors

/-! ## The invariant of the rules -/

/-- The contexts of a fact fit, where those of objects are shorter by one token; objects are some that
a run can make. -/
def Fact.Fits (p : Program) (h : Heap) (sel : Selector) (entry : MethodId) : Fact → Prop
  | .reach m => m.context.Fits p h sel sel.bound
  | .call _ _ m => m.context.Fits p h sel sel.bound
  | .pointsTo _ o => o.context.Fits p h sel (sel.bound - 1) ∧ p.Makes entry o.object

/-- An object that a run can make has the container that the heap gives to the object of its origin. -/
theorem Heap.container_eq_of_find? {p : Program} {h : Heap} {entry : MethodId}
    (hmade : ∀ (i : Nat) (x : Object), h.objects[i]? = some x → p.Makes entry x) {x : Object}
    (hx : p.Makes entry x) {i : ObjectId} (hi : h.find? x.origin = some i) :
    x.container = (h.get i).container := by
  obtain ⟨y, hy, horigin⟩ := exists_of_find? hi
  rw [get_of_getElem? hy, (hmade _ _ hy).unique hx horigin]

/-- No rule leads to a context that does not fit. -/
theorem Fact.closed_fits {p : Program} (wf : p.WellFormed) {h : Heap} {sel : Selector}
    {entry : MethodId} {mocked : Bool}
    (hmade : ∀ (i : Nat) (x : Object), h.objects[i]? = some x → p.Makes entry x) :
    Closed (Rule p sel h.find? (Given p entry mocked)) (Fact.Fits p h sel entry) := by
  intro ps q rule hps
  have hstmt {s : StmtId} {m : MethodId} (hs : s ∈ p.stmtsOf m) : s ∈ p.stmtIds :=
    List.mem_map.2 ⟨s.idx, List.mem_range.2 (wf.mem_stmtsOf_iff.1 hs).1, rfl⟩
  -- one case for each rule; objects carry shorter contexts, so that a receiver can be added to them
  cases rule with
  | given hq =>
      cases hq with
      | entry => exact .nil
      | array _ arg => exact ⟨.nil, .array arg⟩
      | element _ arg => exact ⟨.nil, .element arg⟩
  | @new c m s x t stmt kind =>
      have hc := hps (.reach ⟨c, m⟩) (by simp)
      exact ⟨Selector.heapContext_fits (m := ⟨c, m⟩) hc, .new kind⟩
  | @inclusion ps x y hxy o => exact hps (.pointsTo x o) (by simp)
  | @staticCall c m s call callee stmt kind binding target =>
      have hc := hps (.reach ⟨c, m⟩) (by simp)
      exact Selector.calleeContext_fits ⟨c, s⟩ hc (hstmt stmt) kind
  | @dispatch caller s call base o callee hd =>
      -- the receiver has an object of the heap for a name, which has the same container
      have hc : caller.context.Fits p h sel sel.bound := hps (.reach caller) (by simp)
      obtain ⟨ho, hmakes⟩ := hps (.pointsTo (.var caller.context base) o) (by simp)
      obtain ⟨i, hi, hcontext⟩ := hd.context
      have hid : i ∈ h.ids := Heap.mem_ids.2 (Heap.lt_of_find? hi)
      show callee.context.Fits p h sel sel.bound
      rw [hcontext]
      exact Selector.receiverContext_fits ⟨caller.context, s⟩ hc (hstmt hd.stmt) hd.kind ho
        hid (Heap.container_eq_of_find? hmade hmakes hi)
  | @receiver caller s call base o callee b this hd =>
      exact hps (.pointsTo (.var caller.context base) o) (by simp)
  | @callee k site m => exact hps (.call k site m) (by simp)

/-! ## Contexts of a state -/

namespace State

/-- The state has met a variable, a call site or a method in the context. -/
inductive HasContext (s : State) : Context → Prop where
  | var {i : PointerId} {c : Context} {v : VarId} (h : s.IsPointer i (.var c v)) : HasContext s c
  | callSite {i : CsCallSiteId} {site : CsCallSite} (h : s.IsCallSite i site) :
      HasContext s site.context
  | method {i : CsMethodId} {m : CsMethod} (h : s.IsMethod i m) : HasContext s m.context

/-- The state has met an object in the heap context. -/
def HasHeapContext (s : State) (c : Context) : Prop := ∃ i o, s.IsObject i o ∧ o.context = c

/-- The contexts that the state has met are such as the selector makes. -/
structure ContextsFit (p : Program) (sel : Selector) (s : State) : Prop where
  context : ∀ c, s.HasContext c → c.Fits p s.heap sel sel.bound
  heapContext : ∀ c, s.HasHeapContext c → c.Fits p s.heap sel (sel.bound - 1)

end State

/-- In a sound state all contexts fit. -/
theorem Sound.contextsFit {a : Analysis} {wf : a.program.WellFormed} {entry : MethodId} {s : State}
    (hs : Sound (a.theory wf entry) s) : s.ContextsFit a.program a.selector := by
  have hfits {q : Fact} (hq : a.Derives entry s.heap q) :
      q.Fits a.program s.heap a.selector entry :=
    hq.least (Fact.closed_fits wf fun i x hx => (hs.made i x hx).1)
  refine ⟨fun c hc => ?_, ?_⟩
  · cases hc with
    | var h => exact hfits (hs.pointer _ _ h).2
    | callSite h => exact hfits (hs.callSite _ _ h).2
    | method h => exact hfits (hs.method _ _ h)
  · rintro c ⟨i, o, hi, rfl⟩
    obtain ⟨x, -, -, z, hz⟩ := hs.object i o hi
    exact (hfits hz).1

/-- Contexts fit in a state that agrees with one in which they fit. -/
theorem State.Agrees.contextsFit {s t : State} (h : s.Agrees t) {p : Program} {sel : Selector}
    (hs : s.ContextsFit p sel) : t.ContextsFit p sel := by
  -- The contexts that were met depend on the elements alone.
  have hcontext {c : Context} (hc : t.HasContext c) : s.HasContext c := by
    cases hc with
    | var hi =>
        rw [IsPointer, h.elements] at hi
        exact .var hi
    | callSite hi =>
        rw [IsCallSite, h.elements] at hi
        exact .callSite hi
    | method hi =>
        rw [IsMethod, h.elements] at hi
        exact .method hi
  refine ⟨fun c hc => ?_, ?_⟩
  · rw [h.heap]
    exact hs.context c (hcontext hc)
  · rintro c ⟨i, o, hi, rfl⟩
    rw [IsObject, h.elements] at hi
    rw [h.heap]
    exact hs.heapContext _ ⟨i, o, hi, rfl⟩

/-! ## The main result -/

/-- In every state that a run without further extensions comes to, and in its result, the contexts of
variables, call sites and methods have no more tokens than the selector keeps, and those of objects one
less. Their tokens are calls of the program, objects of the heap, or containers of such objects,
according to the kind of the selector; without context sensitivity all contexts are empty. -/
theorem Analysis.contexts_fit {d : ProgramDef} {p : Program} (hp : (Program.build d).1 = .ok p)
    (o : Options) (sel : Selector) :
    (∀ entry k, Passes ⟨p, o, sel, .allocationSite⟩ entry k → k.state.ContextsFit p sel ∧
      (sel = .insensitive → ∀ c, k.state.HasContext c ∨ k.state.HasHeapContext c → c = [])) ∧
    ∀ r, (solveWith ⟨p, o, sel, .allocationSite⟩ []).result = .ok r → r.state.ContextsFit p sel := by
  have wf := Program.build_wellFormed hp
  have hpasses {entry k} (hk : Passes ⟨p, o, sel, .allocationSite⟩ entry k) :
      k.state.ContextsFit p sel := (hk.running wf rfl).started.sound.contextsFit
  refine ⟨fun entry k hk => ⟨hpasses hk, ?_⟩, fun r hr => ?_⟩
  · rintro rfl c (hc | hc)
    · exact ((hpasses hk).context c hc).eq_nil
    · exact ((hpasses hk).heapContext c hc).eq_nil
  · obtain ⟨entry, k, -, hk, -, hagrees⟩ := passes_of_solveWith wf rfl hr
    exact hagrees.contextsFit (hpasses hk)

/-- Contexts of the sample fit, between its steps and in its result. -/
theorem Analysis.contexts_fit_sample : ∃ p r entry k, (Program.build .sample).1 = .ok p ∧
    (solveWith ⟨p, ⟨.insensitive, none, true⟩, .object 1, .allocationSite⟩ []).result = .ok r ∧
    Passes ⟨p, ⟨.insensitive, none, true⟩, .object 1, .allocationSite⟩ entry k ∧
    k.state.ContextsFit p (.object 1) ∧ r.state.ContextsFit p (.object 1) := by
  obtain ⟨p, r, hp, hr⟩ := ProgramDef.sample_solved true
  obtain ⟨entry, k, -, hk, -⟩ := passes_of_solveWith (Program.build_wellFormed hp) rfl hr
  obtain ⟨hpasses, hresult⟩ := contexts_fit hp ⟨.insensitive, none, true⟩ (.object 1)
  exact ⟨p, r, entry, k, hp, hr, hk, (hpasses entry k hk).1, hresult r hr⟩

end PointsTo
