import PointsTo.Proofs.Solver.Saturation

/-! # Fixpoints

A state that is sound and saturated, and in which nothing is left to be done, has found exactly the
facts that follow from the program: what it holds is admitted by the theory, and it is closed under
the rules.
-/

namespace PointsTo

variable {a : Analysis} {given : Fact → Prop} {T : Theory a given} {s : State}

/-! ## Facts of sound states -/

/-- In a sound state a method is reachable if its identifier is listed as reachable. -/
theorem Sound.holds_reach_iff (hs : Sound T s) {m : CsMethod} :
    s.Holds (.reach m) ↔ ∃ i ∈ s.calls.reachable, s.IsMethod i m := by
  constructor
  · rintro ⟨i, hi, rfl⟩
    obtain ⟨m, hm⟩ := hs.reachable i hi
    rw [hm.method]
    exact ⟨i, hi, hm⟩
  · rintro ⟨i, hi, hm⟩
    exact ⟨i, hi, hm.method⟩

/-- In a sound state a call is found if the call graph has an edge between the identifiers of its ends.
-/
theorem Sound.holds_call_iff (hs : Sound T s) {k : CallKind} {site : CsCallSite}
    {callee : CsMethod} :
    s.Holds (.call k site callee) ↔ ∃ e ∈ s.calls.edges, e.kind = k ∧
      s.IsCallSite e.callSite site ∧ s.IsMethod e.callee callee := by
  constructor
  · rintro ⟨e, he, hk, rfl, rfl⟩
    obtain ⟨site, callee, hsite, hcallee, -⟩ := hs.edge e he
    rw [hsite.callSite, hcallee.method]
    exact ⟨e, he, hk, hsite, hcallee⟩
  · rintro ⟨e, he, hk, hsite, hcallee⟩
    exact ⟨e, he, hk, hsite.callSite, hcallee.method⟩

/-- In a sound state a place has an object if the set of a pointer that stands for it contains its
identifier. -/
theorem Sound.holds_pointsTo_iff (hs : Sound T s) {x : Place} {y : HeapObject} :
    s.Holds (.pointsTo x y) ↔ ∃ i p o, s.IsPointer i p ∧ s.Stands p x ∧ s.Denotes o y ∧
      (s.elements.pointsTo i).contains o = true := by
  constructor
  · rintro ⟨p, o, rfl, ho, rfl⟩
    obtain ⟨i, hi, ho⟩ := State.exists_isPointer ho
    obtain ⟨p', x, y, hi', hx, hy, -⟩ := hs.pointsTo i o ho
    cases hi.symm.trans hi'
    rw [hx.place, hy.heapObject]
    exact ⟨i, p, o, hi, hx, hy, ho⟩
  · rintro ⟨i, p, o, hi, hx, hy, ho⟩
    refine ⟨p, o, hx.place, ?_, hy.heapObject⟩
    rwa [hi.objectsOf]

/-- Nothing is found that the theory does not admit. -/
theorem Sound.admits (hs : Sound T s) {q : Fact} (hq : s.Holds q) : T.Admits s.heap q := by
  -- identifiers name one element each, so the element that soundness speaks of is the one at hand
  cases q with
  | reach m =>
      obtain ⟨i, -, hm⟩ := hs.holds_reach_iff.1 hq
      exact hs.method i m hm
  | call k site callee =>
      obtain ⟨e, he, rfl, hsite, hcallee⟩ := hs.holds_call_iff.1 hq
      obtain ⟨site', callee', hsite', hcallee', hadm⟩ := hs.edge e he
      cases hsite.symm.trans hsite'
      cases hcallee.symm.trans hcallee'
      exact hadm
  | pointsTo x y =>
      obtain ⟨i, p, o, hi, hx, hy, ho⟩ := hs.holds_pointsTo_iff.1 hq
      obtain ⟨p', x', y', hi', hx', hy', hadm⟩ := hs.pointsTo i o ho
      cases hi.symm.trans hi'
      cases hx.place.symm.trans hx'.place
      cases hy.heapObject.symm.trans hy'.heapObject
      exact hadm

/-- A place has only one pointer. -/
theorem State.Stands.unique (hd : s.heap.Distinct) {p q : Pointer} {x : Place}
    (hp : s.Stands p x) (hq : s.Stands q x) : p = q := by
  cases hp with
  | var => cases hq; rfl
  | staticField => cases hq; rfl
  | instanceField hp f =>
      cases hq with
      | instanceField hq => rw [hp.unique hd hq]
  | arrayIndex hp =>
      cases hq with
      | arrayIndex hq => rw [hp.unique hd hq]

/-! ## Closure -/

/-- A sound and saturated state in which nothing is left to be done. -/
structure Finished (T : Theory a given) (s : State) : Prop where
  sound : Sound T s
  saturated : Saturated a s (fun _ => False) fun _ _ => False
  pending : s.pending.toList = []
  work : s.work.toList = []

namespace Finished

variable (h : Finished T s)

include h

/-- In a finished state the work list is empty, so what is awaited has arrived. -/
theorem contains_of_awaits {i : PointerId} {o : CsObjectId} (hi : s.Awaits i o) :
    (s.elements.pointsTo i).contains o = true := by
  rcases hi with hi | ⟨set, hmem, -⟩
  · exact hi
  · rw [h.work] at hmem
    cases hmem

/-- In a finished state promised objects have arrived. -/
theorem holds_of_promises {p : Pointer} {x : Place} {o : CsObjectId} {y : HeapObject}
    (hp : s.Promises p o) (hx : s.Stands p x) (hy : s.Denotes o y) : s.Holds (.pointsTo x y) := by
  obtain ⟨i, hi, ho⟩ := hp
  exact h.sound.holds_pointsTo_iff.2 ⟨i, p, o, hi, hx, hy, h.contains_of_awaits ho⟩

/-- Objects flow along the edges. -/
theorem holds_of_hasFlow {p q : Pointer} {x y : Place} {z : HeapObject} (hpq : s.HasFlow p q)
    (hx : s.Stands p x) (hy : s.Stands q y) (hz : s.Holds (.pointsTo x z)) :
    s.Holds (.pointsTo y z) := by
  obtain ⟨i, j, hi, hj, hij⟩ := hpq
  obtain ⟨i', p', o, hi', hx', ho, hmem⟩ := h.sound.holds_pointsTo_iff.1 hz
  obtain rfl := hx.unique h.sound.distinct hx'
  obtain rfl := hi.unique hi'
  have hawaits := h.saturated.flow i j hij o hmem
  exact h.sound.holds_pointsTo_iff.2 ⟨j, q, o, hj, hy, ho, h.contains_of_awaits hawaits⟩

/-- All statements of a reachable method were visited. -/
theorem visited {m : CsMethod} (hm : s.Holds (.reach m)) {stmt : StmtId}
    (hstmt : stmt ∈ a.program.stmtsOf m.method) : s.Visited a m stmt := by
  obtain ⟨i, hi, him⟩ := h.sound.holds_reach_iff.1 hm
  rcases h.saturated.visited i hi with hi | hi | ⟨m', hm', hvisited⟩
  · rw [h.pending] at hi
    cases hi
  · exact hi.elim
  · cases him.symm.trans hm'
    exact hvisited stmt hstmt

/-- All statements were taken account of for the objects of their base variables. -/
theorem handled (wf : a.program.WellFormed) {c : Context} {v : VarId} {y : HeapObject}
    (hv : s.Holds (.pointsTo (.var c v) y)) {k : AccessKind} {stmt : StmtId}
    (hstmt : (a.program.stmtAt stmt).kind.access? = some (k, v)) :
    ∃ o, s.Denotes o y ∧ s.Handled a c o stmt := by
  obtain ⟨i, p, o, hi, hx, ho, hmem⟩ := h.sound.holds_pointsTo_iff.1 hv
  cases hx
  have hprocessed := (h.saturated.processed i c v hi o hmem).resolve_left id
  exact ⟨o, ho, hprocessed k stmt ((wf.indexed.use k v stmt).2 hstmt)⟩

/-- An edge of a call site is one of the kind of the call. -/
theorem holds_of_hasCall {call : Invoke} {site : CsCallSite} {callee : CsMethod}
    (hcall : s.HasCall site callee) (hkind : (a.program.stmtAt site.stmt).kind = .invoke call) :
    s.Holds (.call call.binding.kind site callee) := by
  obtain ⟨e, he, hsite, hcallee⟩ := hcall
  have hholds : s.Holds (.call e.kind site callee) :=
    h.sound.holds_call_iff.2 ⟨e, he, rfl, hsite, hcallee⟩
  rwa [T.kind (h.sound.admits hholds) hkind] at hholds

/-- The callee of a call is reachable, and the call is linked. -/
theorem wired {k : CallKind} {site : CsCallSite} {callee : CsMethod}
    (hcall : s.Holds (.call k site callee)) :
    s.Holds (.reach callee) ∧ s.Linked a.program site callee := by
  obtain ⟨e, he, -, hsite, hcallee⟩ := h.sound.holds_call_iff.1 hcall
  obtain ⟨hreach, site', callee', hsite', hcallee', hlinked⟩ := h.saturated.wired e he
  cases hsite.symm.trans hsite'
  cases hcallee.symm.trans hcallee'
  exact ⟨h.sound.holds_reach_iff.2 ⟨e.callee, hreach, hcallee⟩, hlinked⟩

/-- A call on an object of its base variable was dispatched. -/
theorem dispatched (wf : a.program.WellFormed) {caller : CsMethod} {stmt : StmtId} {call : Invoke}
    {base : VarId} {y : HeapObject} {callee : CsMethod}
    (hd : Dispatches a.program a.selector s.heap.find? caller stmt call base y callee)
    (hbase : s.Holds (.pointsTo (.var caller.context base) y)) :
    ∃ o, s.Denotes o y ∧ s.HasCall ⟨caller.context, stmt⟩ callee ∧
      ∀ b this, (a.program.methodAt callee.method).body? = some b → b.this? = some this →
        s.Promises (.var callee.context this) o := by
  have haccess : (a.program.stmtAt stmt).kind.access? = some (.call, base) := by
    rw [hd.kind, StmtKind.access?, hd.base]
    rfl
  obtain ⟨o, ho, hhandled⟩ := h.handled wf hbase haccess
  rw [State.Handled, hd.kind] at hhandled
  obtain ⟨r, x, hr, hx, -, hresolved⟩ := hhandled
  obtain ⟨id, hid, hobject⟩ := id ho
  cases hr.symm.trans hid
  cases hx.symm.trans hobject
  -- the receiver is named by its origin in the context of the callee
  obtain ⟨id', hfind, hcontext⟩ := hd.context
  cases (h.sound.distinct.find? hobject).symm.trans hfind
  obtain ⟨hcall, hthis⟩ := hresolved _ hd.target
  rw [← hcontext] at hcall hthis
  exact ⟨o, ho, hcall, hthis⟩

/-- Objects flow wherever a rule includes the objects of a place in those of another. -/
theorem holds_of_inclusion (wf : a.program.WellFormed) {ps : List Fact} {x y : Place}
    (hxy : Inclusion a.program ps x y) (hps : ∀ q ∈ ps, s.Holds q) {z : HeapObject}
    (hz : s.Holds (.pointsTo x z)) : s.Holds (.pointsTo y z) := by
  -- visits give the edges of assignments, handled objects those of slots, and calls the others
  cases hxy with
  | copy stmt kind =>
      have hvisited := h.visited (hps _ (List.mem_singleton_self _)) stmt
      rw [State.Visited, kind] at hvisited
      exact h.holds_of_hasFlow hvisited (.var _ _) (.var _ _) hz
  | staticStore stmt kind =>
      have hvisited := h.visited (hps _ (List.mem_singleton_self _)) stmt
      rw [State.Visited, kind] at hvisited
      exact h.holds_of_hasFlow hvisited (.var _ _) (.staticField _) hz
  | staticLoad stmt kind =>
      have hvisited := h.visited (hps _ (List.mem_singleton_self _)) stmt
      rw [State.Visited, kind] at hvisited
      exact h.holds_of_hasFlow hvisited (.staticField _) (.var _ _) hz
  | @instanceStore c m stmt base rhs f o _ kind =>
      have haccess : (a.program.stmtAt stmt).kind.access? = some (.storeField, base) := by rw [kind]; rfl
      obtain ⟨i, hi, hhandled⟩ := h.handled wf (hps (.pointsTo (.var c base) o) (by simp)) haccess
      rw [State.Handled, kind] at hhandled
      exact h.holds_of_hasFlow hhandled (.var _ _) (.instanceField hi _) hz
  | @instanceLoad c m stmt lhs base f o _ kind =>
      have haccess : (a.program.stmtAt stmt).kind.access? = some (.loadField, base) := by rw [kind]; rfl
      obtain ⟨i, hi, hhandled⟩ := h.handled wf (hps (.pointsTo (.var c base) o) (by simp)) haccess
      rw [State.Handled, kind] at hhandled
      exact h.holds_of_hasFlow hhandled (.instanceField hi _) (.var _ _) hz
  | @arrayStore c m stmt base rhs o _ kind =>
      have haccess : (a.program.stmtAt stmt).kind.access? = some (.storeArray, base) := by rw [kind]; rfl
      obtain ⟨i, hi, hhandled⟩ := h.handled wf (hps (.pointsTo (.var c base) o) (by simp)) haccess
      rw [State.Handled, kind] at hhandled
      exact h.holds_of_hasFlow hhandled (.var _ _) (.arrayIndex hi) hz
  | @arrayLoad c m stmt lhs base o _ kind =>
      have haccess : (a.program.stmtAt stmt).kind.access? = some (.loadArray, base) := by rw [kind]; rfl
      obtain ⟨i, hi, hhandled⟩ := h.handled wf (hps (.pointsTo (.var c base) o) (by simp)) haccess
      rw [State.Handled, kind] at hhandled
      exact h.holds_of_hasFlow hhandled (.arrayIndex hi) (.var _ _) hz
  | argument kind body pair =>
      have hlinked := (h.wired (hps _ (List.mem_singleton_self _))).2
      exact h.holds_of_hasFlow ((hlinked _ _ kind body).1 _ pair) (.var _ _) (.var _ _) hz
  | @result k site callee call stmt v x kind hstmt ret result =>
      have hlinked := (h.wired (hps (.call k site callee) (by simp))).2
      obtain ⟨b, hb, hmem⟩ := Program.mem_stmtsOf.1 hstmt
      have hreturn := ((wf.body _ b hb).ret v).2 ⟨stmt, hmem, ret⟩
      exact h.holds_of_hasFlow ((hlinked _ _ kind hb).2 x result v hreturn) (.var _ _) (.var _ _) hz

/-- A finished state that holds the given facts is closed under the rules. -/
theorem closed (wf : a.program.WellFormed) (hgiven : ∀ q, given q → s.Holds q) :
    Closed (Rule a.program a.selector s.heap.find? given) s.Holds := by
  -- one case for each rule; visits answer the rules with a statement, and handled objects those with a
  -- receiver
  intro ps q rule hps
  cases rule with
  | given hq => exact hgiven q hq
  | @new c m stmt x t hstmt kind =>
      have hvisited := h.visited (hps (.reach ⟨c, m⟩) (by simp)) hstmt
      rw [State.Visited, kind] at hvisited
      obtain ⟨o, ho, hpromise⟩ := hvisited
      exact h.holds_of_promises hpromise (.var _ _) ho
  | inclusion hxy o =>
      exact h.holds_of_inclusion wf hxy (fun q hq => hps q (List.mem_cons_of_mem _ hq))
        (hps _ (List.mem_cons_self ..))
  | @staticCall c m stmt call callee hstmt kind binding target =>
      have hvisited := h.visited (hps (.reach ⟨c, m⟩) (by simp)) hstmt
      rw [State.Visited, kind] at hvisited
      rw [Program.resolveCallee?, binding] at target
      have hcall := h.holds_of_hasCall (hvisited binding callee target) kind
      rwa [binding] at hcall
  | @dispatch caller stmt call base o callee hd =>
      obtain ⟨i, -, hcall, -⟩ := h.dispatched wf hd (hps _ (by simp))
      exact h.holds_of_hasCall hcall hd.kind
  | @receiver caller stmt call base o callee b this hd body hthis =>
      obtain ⟨i, hi, -, hpromise⟩ := h.dispatched wf hd (hps _ (by simp))
      exact h.holds_of_promises (hpromise b this body hthis) (.var _ _) hi
  | callee => exact (h.wired (hps _ (List.mem_singleton_self _))).1

end Finished

end PointsTo
