import PointsTo.Proofs.Solver.Operations

/-! # Visits of methods

Visiting a method means visiting its statements, and `Visited` says what is in place after one of them
was visited; the order of the statements does not matter. A visit consists of moves, with at most one
push for each statement. The same goes for call edges, which static calls add when they are visited.
-/

namespace PointsTo

/-! ## What is left behind -/

namespace State

variable (a : Analysis) (s : State)

/-- What is in place after a statement of a method was visited. -/
def Visited (m : CsMethod) (stmt : StmtId) : Prop :=
  match (a.program.stmtAt stmt).kind with
  | .new lhs type => ∃ o,
      s.Denotes o ⟨a.selector.heapContext m, a.program.allocated stmt type⟩ ∧
        s.Promises (.var m.context lhs) o
  | .copy lhs rhs => s.HasFlow (.var m.context rhs) (.var m.context lhs)
  | .staticStore f rhs => s.HasFlow (.var m.context rhs) (.staticField f)
  | .staticLoad lhs f => s.HasFlow (.staticField f) (.var m.context lhs)
  | .invoke call => call.binding = .static → ∀ callee,
      a.program.staticTarget? call.target = some callee →
        s.HasCall ⟨m.context, stmt⟩ ⟨a.selector.calleeContext ⟨m.context, stmt⟩, callee⟩
  | _ => True

variable {a s} {t : State}

/-- A statement that was visited stays visited while the state extends. -/
theorem Visited.mono {m : CsMethod} {stmt : StmtId} (hst : s.Extends t)
    (h : s.Visited a m stmt) : t.Visited a m stmt := by
  unfold Visited at h ⊢
  split at h
  · obtain ⟨o, ho, hp⟩ := h
    exact ⟨o, hst.denotes ho, hst.promises hp⟩
  · exact hst.hasFlow h
  · exact hst.hasFlow h
  · exact hst.hasFlow h
  · exact fun hb callee hc => hst.hasCall (h hb callee hc)
  · trivial

end State

variable {a : Analysis} {given : Fact → Prop} {T : Theory a given} {π : Type} {react : Reaction π}
  {E : List π → State → Prop}

/-! ## Calls -/

/-- A new call edge brings with it all that the call links. -/
theorem Theory.Allows.moves_enterCallee {s : State} {call : Invoke} {site : CsCallSite}
    {callee : CsMethod} (h : T.Allows s call site callee) (wf : a.program.WellFormed)
    (hs : Sound T s) {i : CsCallSiteId} {j : CsMethodId} (hi : s.IsCallSite i site)
    (hj : s.IsMethod j callee) {e : CallEdge} (he : e = ⟨call.binding.kind, i, j⟩)
    (hnew : s.calls.hasEdge e = false) {t : State}
    (ht : t = a.enterCallee call site callee j { s with calls := s.calls.addEdge e }) :
    Moves T 0 s t ∧ t.HasCall site callee := by
  subst he ht
  have hcalls : T.Calls s ⟨call.binding.kind, i, j⟩ := ⟨site, callee, hi, hj, h.admitted⟩
  have hs' := (State.addEdge_gains hs hcalls).sound hs
  have hext := s.extends_addEdge ⟨call.binding.kind, i, j⟩
  obtain ⟨hlinks, hreach, hlinked⟩ :=
    (h.mono hext hs'.distinct).links_enterCallee wf hs' (hext.isMethod hj)
  have hi' := hlinks.extends.isCallSite (hext.isCallSite hi)
  have hj' := hlinks.extends.isMethod (hext.isMethod hj)
  have hmem := hlinks.extends.edges _ (CsCallGraph.mem_edges_addEdge_self hnew)
  exact ⟨.call hcalls hlinks ⟨hreach, site, callee, hi', hj', hlinked⟩ (.refl _ _),
    _, hmem, hi', hj'⟩

/-- The two ends of a call are interned; what follows depends on whether the edge is there. -/
theorem Analysis.addCall_cases (a : Analysis) (react : Reaction π) (call : Invoke)
    (site : CsCallSite) (callee : CsMethod) (m : Machine π) :
    ∃ i j s, s = ((m.state.internCallSite site).2.internMethod callee).2 ∧ s.IsCallSite i site ∧
      s.IsMethod j callee ∧
      (s.calls.hasEdge ⟨call.binding.kind, i, j⟩ = true ∧
          a.addCall react call site callee m = { m with state := s } ∨
        s.calls.hasEdge ⟨call.binding.kind, i, j⟩ = false ∧
          a.addCall react call site callee m =
            Machine.notify react (.callAdded ⟨call.binding.kind, i, j⟩) { m with
              state := a.enterCallee call site callee j
                { s with calls := s.calls.addEdge ⟨call.binding.kind, i, j⟩ } }) := by
  -- interning the callee extends the state, so the identifier of the call site keeps its meaning
  have hi := (State.extends_internMethod _ callee).isCallSite
    (m.state.isCallSite_internCallSite site)
  have hj := (m.state.internCallSite site).2.isMethod_internMethod callee
  -- the identifiers are named first, because the states that they come from are large terms
  generalize hsite : (m.state.internCallSite site).1 = i at hi
  cases hmethod : (m.state.internCallSite site).2.internMethod callee with
  | mk j s =>
      rw [hmethod] at hi hj
      refine ⟨i, j, s, rfl, hi, hj, ?_⟩
      simp only [addCall, hsite, hmethod]
      by_cases h : s.calls.hasEdge ⟨call.binding.kind, i, j⟩ = true
      · rw [if_pos h]
        exact Or.inl ⟨h, rfl⟩
      · rw [if_neg h]
        exact Or.inr ⟨Bool.eq_false_iff.2 h, rfl⟩

/-- After a call edge was added, the call site calls the method. -/
theorem Theory.Allows.acts_addCall {m : Machine π} {call : Invoke} {site : CsCallSite}
    {callee : CsMethod} (h : T.Allows m.state call site callee) (wf : a.program.WellFormed)
    (hs : Sound T m.state) (htame : Tame T react E) (hE : E m.extensions m.state) :
    Acts T E 0 (·.HasCall site callee) m (a.addCall react call site callee m) := by
  obtain ⟨i, j, s, hst, hi, hj, hcases⟩ := a.addCall_cases react call site callee m
  have hlinks : Links T m.state s := by
    rw [hst]
    exact (Relation.ReflTransGen.single (.callSite h.sited)).tail (.method h.reach)
  have hs' := hlinks.sound hs
  rcases hcases with ⟨hhas, heq⟩ | ⟨hnew, heq⟩
  · -- an edge with the same ends is there already
    obtain ⟨e, he, hsite, hcallee⟩ := CsCallGraph.hasEdge_iff.1 hhas
    rw [heq]
    refine ⟨htame.mono hlinks.extends hE, .of_links hlinks, e, he, ?_, ?_⟩
    · rw [hsite]
      exact hi
    · rw [hcallee]
      exact hj
  · -- the new edge comes with all that it links
    obtain ⟨hmoves, hcall⟩ := (h.mono hlinks.extends hs'.distinct).moves_enterCallee wf hs' hi hj rfl
      hnew rfl
    have hall := Moves.linked hlinks hmoves
    have hnew := hmoves.extends
    rw [heq]
    exact Acts.notify ⟨htame.mono hall.extends hE, hall, hcall⟩ htame hs Notice.noConfusion
      ⟨⟨site, hnew.isCallSite hi⟩, callee, hnew.isMethod hj⟩ fun hst => hst.hasCall

/-! ## Visits -/

section Visits

variable {m : CsMethod} {stmt : StmtId} (wf : a.program.WellFormed)

/-- The pointer of a variable of a statement is relevant where the method is reachable. -/
theorem Theory.relevant_operand {T : Theory a given} {s : State} (wf : a.program.WellFormed)
    (hstmt : stmt ∈ a.program.stmtsOf m.method) (hm : T.Admits s.heap (.reach m)) {v : VarId}
    (hv : v ∈ (a.program.stmtAt stmt).kind.operands) : T.Relevant s (.var m.context v) :=
  relevant_var (wf.owns_operand hstmt hv) hm

/-- Visiting an allocation makes the object, puts it into its heap context and assigns it, in this
order. -/
theorem Analysis.visitNew_eq (hmodel : a.heapModel = .allocationSite) (m : CsMethod)
    (stmt : StmtId) (lhs : VarId) (type : Ty) (s : State) {o : ObjectId} {h : Heap}
    (heap : s.heap.intern (a.program.allocated stmt type) = (o, h)) {i : CsObjectId} {t : State}
    (object : { s with heap := h }.internObject (a.selector.heapContext m) o = (i, t)) :
    a.visitNew m stmt lhs type s = t.assign (.var m.context lhs) i := by
  have halloc : s.allocate a.heapModel a.program stmt type = (o, { s with heap := h }) := by
    simp only [State.allocate, Heap.allocate, hmodel]
    rw [Program.allocated] at heap
    simp only [heap]
  simp only [visitNew, halloc, object]

/-- An allocation makes an object, puts it into its heap context, and assigns it. -/
theorem Analysis.visitNew_from (a : Analysis) (m : CsMethod) (stmt : StmtId) (lhs : VarId) (type : Ty)
    (s : State) : ∃ x o i, a.visitNew m stmt lhs type s =
      State.assign ({ s with heap := (s.heap.intern x).2 }.internObject (a.selector.heapContext m) o).2
        (.var m.context lhs) i := by
  cases hnew : s.allocate a.heapModel a.program stmt type with
  | mk o t =>
      obtain ⟨x, rfl⟩ : ∃ x, t = { s with heap := (s.heap.intern x).2 } := by
        unfold State.allocate Heap.allocate at hnew
        cases hmodel : a.heapModel <;> rw [hmodel] at hnew <;> cases hnew <;> exact ⟨_, rfl⟩
      refine ⟨x, o, ({ s with heap := (s.heap.intern x).2 }.internObject
        (a.selector.heapContext m) o).1, ?_⟩
      simp only [visitNew, hnew]

include wf

/-- An allocation makes the object of its statement, and assigns it. -/
theorem Analysis.moves_visitNew {s : State} (hmodel : a.heapModel = .allocationSite)
    (hs : Sound T s) (hstmt : stmt ∈ a.program.stmtsOf m.method) {lhs : VarId} {type : Ty}
    (hkind : (a.program.stmtAt stmt).kind = .new lhs type) (hm : T.Admits s.heap (.reach m)) :
    Moves T 1 s (a.visitNew m stmt lhs type s) ∧
      (a.visitNew m stmt lhs type s).Visited a m stmt := by
  have hadmits {h : Heap} (hm : T.Admits h (.reach m)) : T.Admits h (.pointsTo (.var m.context lhs)
      ⟨a.selector.heapContext m, a.program.allocated stmt type⟩) :=
    T.closed _ _ _ (.new hstmt hkind) (by simpa using hm)
  have hcreate : Move T s _ := .create (T.made_new hkind) ⟨_, hadmits hm⟩
  have hx := hs.getElem?_intern (o := a.program.allocated stmt type) fun o' ho' =>
    T.made_unique hkind ho'
  cases heap : s.heap.intern (a.program.allocated stmt type) with
  | mk o h =>
      rw [heap] at hcreate hx
      -- the object is made, put into its heap context, and then assigned
      have hs₁ := hcreate.sound hs
      have hm₁ := T.mono hcreate.extends.heap hs₁.distinct hm
      have hobject : Move T _ _ := .object hx ⟨_, hadmits hm₁⟩
      have hdenotes := State.denotes_internObject (s := { s with heap := h }) hx
        (a.selector.heapContext m)
      cases object : { s with heap := h }.internObject (a.selector.heapContext m) o with
      | mk i t =>
          rw [object] at hobject hdenotes
          have hs₂ := hobject.sound hs₁
          have hm₂ := T.mono hobject.extends.heap hs₂.distinct hm₁
          have hrelevant := T.relevant_operand wf hstmt hm₂ (v := lhs)
            (by simp [hkind, StmtKind.operands])
          obtain ⟨hassign, hpromise⟩ := State.moves_assign hrelevant (.var _ _) hdenotes
            (hadmits hm₂)
          rw [a.visitNew_eq hmodel m stmt lhs type s heap object]
          refine ⟨.move hcreate (.move hobject hassign), ?_⟩
          rw [State.Visited, hkind]
          exact ⟨i, hassign.extends.denotes hdenotes, hpromise⟩

/-- Visiting a call records its site, and adds the edge of a static call. -/
theorem Analysis.acts_visitInvoke {k : Machine π} {j : CsMethodId} {call : Invoke}
    (hs : Sound T k.state) (htame : Tame T react E) (hE : E k.extensions k.state)
    (hstmt : stmt ∈ a.program.stmtsOf m.method)
    (hkind : (a.program.stmtAt stmt).kind = .invoke call)
    (hm : T.Admits k.state.heap (.reach m)) :
    Acts T E 0 (·.Visited a m stmt) k (a.visitInvoke react j ⟨m.context, stmt⟩ call k) := by
  have hmethod := (wf.mem_stmtsOf_iff.1 hstmt).2
  have hreach : T.Admits k.state.heap
      (.reach ⟨m.context, (a.program.stmtAt stmt).method⟩) := by rwa [hmethod]
  have hsite : Move T k.state (k.state.internCallSite ⟨m.context, stmt⟩).2 :=
    .callSite ⟨Or.inr ⟨call, hkind⟩, hreach⟩
  -- the site is counted for the method before the call is looked at, whatever its binding
  cases hintern : k.state.internCallSite ⟨m.context, stmt⟩ with
  | mk i s =>
      rw [hintern] at hsite
      have hcount : Links T k.state { s with calls := s.calls.addCallSite j i } :=
        (Relation.ReflTransGen.single hsite).tail
          (.silent ⟨rfl, rfl, rfl, rfl, rfl, rfl, rfl, rfl, rfl, rfl⟩)
      have hs' := hcount.sound hs
      have hE' := htame.mono hcount.extends hE
      unfold visitInvoke
      simp only [hintern]
      split
      · -- a static call has its edge at once, if it has a method
        rename_i hbinding
        split
        · rename_i callee htarget
          have hallows : T.Allows { s with calls := s.calls.addCallSite j i } call
              ⟨m.context, stmt⟩ ⟨a.selector.calleeContext ⟨m.context, stmt⟩, callee⟩ := by
            have hm' := T.mono hcount.extends.heap hs'.distinct hreach
            refine ⟨hkind, hm', ?_⟩
            rw [hbinding]
            refine T.closed _ _ _ (.staticCall (wf.mem_stmtsOf_method ?_) hkind hbinding ?_)
              (by simpa using hm')
            · rw [hkind]
              exact StmtKind.noConfusion
            · rwa [Program.resolveCallee?, hbinding]
          have hadd : Acts T E 0 _ _ (a.addCall react call _ _ ⟨_, k.extensions⟩) :=
            hallows.acts_addCall wf hs' htame hE'
          refine ⟨hadd.extensions, .linked hcount hadd.moves, ?_⟩
          rw [State.Visited, hkind]
          intro _ callee' hcallee'
          cases htarget.symm.trans hcallee'
          exact hadd.done
        · rename_i htarget
          refine ⟨hE', .of_links hcount, ?_⟩
          rw [State.Visited, hkind]
          intro _ callee' hcallee'
          cases htarget.symm.trans hcallee'
      · -- other calls wait for the objects of their receivers
        rename_i hbinding
        refine ⟨hE', .of_links hcount, ?_⟩
        rw [State.Visited, hkind]
        intro hstatic
        exact absurd hstatic hbinding

omit wf in
/-- An assignment connects the pointers of its two sides. -/
theorem Analysis.acts_connect {k : Machine π} {p q : Pointer} {x y : Place} (hs : Sound T k.state)
    (htame : Tame T react E) (hE : E k.extensions k.state) (hm : T.Admits k.state.heap (.reach m)) (hp : T.Relevant k.state p)
    (hq : T.Relevant k.state q) (hx : k.state.Stands p x) (hy : k.state.Stands q y)
    (hxy : Inclusion a.program [.reach m] x y) :
    Acts T E 1 (·.HasFlow p q) k (k.modify (·.connect p q)) := by
  obtain ⟨hlinks, hflow⟩ := State.links_connect hs hp hq hx hy
    (Theory.carries_of_inclusion hxy (by simpa using hm))
  exact htame.modify hE (.of_links hlinks) hflow

/-- Visiting a statement of a reachable method pushes at most once. -/
theorem Analysis.acts_visitStmt {k : Machine π} {j : CsMethodId}
    (hmodel : a.heapModel = .allocationSite) (hs : Sound T k.state) (htame : Tame T react E)
    (hE : E k.extensions k.state) (hstmt : stmt ∈ a.program.stmtsOf m.method)
    (hm : T.Admits k.state.heap (.reach m)) :
    Acts T E 1 (·.Visited a m stmt) k (a.visitStmt react j m k stmt) := by
  have hoperand {v : VarId} := T.relevant_operand wf hstmt hm (v := v)
  have hfield {f : FieldId} := wf.indexed.field stmt f
  unfold visitStmt
  simp only [State.Visited]
  -- one case for each kind of statement that a visit links; the operands are relevant in the context of
  -- the method
  cases hkind : (a.program.stmtAt stmt).kind with
  | new lhs type =>
      obtain ⟨hmoves, hvisited⟩ := a.moves_visitNew wf hmodel hs hstmt hkind hm
      rw [State.Visited, hkind] at hvisited
      exact htame.modify hE hmoves hvisited
  | copy lhs rhs =>
      rw [hkind] at hoperand
      exact a.acts_connect hs htame hE hm (hoperand (by simp [StmtKind.operands]))
        (hoperand (by simp [StmtKind.operands])) (.var _ _) (.var _ _) (.copy hstmt hkind)
  | staticStore f rhs =>
      rw [hkind] at hoperand hfield
      exact a.acts_connect hs htame hE hm (hoperand (by simp [StmtKind.operands])) (Or.inr (hfield rfl))
        (.var _ _) (.staticField _) (.staticStore hstmt hkind)
  | staticLoad lhs f =>
      rw [hkind] at hoperand hfield
      exact a.acts_connect hs htame hE hm (Or.inr (hfield rfl)) (hoperand (by simp [StmtKind.operands]))
        (.staticField _) (.var _ _) (.staticLoad hstmt hkind)
  | invoke call =>
      refine (a.acts_visitInvoke wf hs htame hE hstmt hkind hm).weaken (Nat.zero_le 1)
        fun hvisited => ?_
      rwa [State.Visited, hkind] at hvisited
  -- accesses to objects and returns are taken account of elsewhere
  | _ => exact ⟨hE, .refl _ _, trivial⟩

/-- Visits a method, with its statements in the given order. -/
def Analysis.visitInOrder (a : Analysis) (react : Reaction π) (stmts : List StmtId) (id : CsMethodId)
    (k : Machine π) : Machine π :=
  let method := k.state.elements.method id
  let k := k.modify (·.report .trace ("new reachable method "
    ++ a.program.methodText method.method ++ " in context " ++ method.context.text))
  (stmts.foldl (a.visitStmt react id method) k).notify react (.methodReached id)

omit wf in
/-- The code visits the statements of a method in the order of its body. -/
theorem Analysis.visitMethod_eq (id : CsMethodId) (k : Machine π) :
    a.visitMethod react id k =
      a.visitInOrder react (a.program.stmtsOf (k.state.elements.method id).method) id k :=
  rfl

/-- Visiting a reachable method visits all its statements, in whatever order, each with at most one
push. -/
theorem Analysis.acts_visitInOrder {k : Machine π} {j : CsMethodId} {stmts : List StmtId}
    (hmodel : a.heapModel = .allocationSite) (hs : Sound T k.state) (htame : Tame T react E)
    (hE : E k.extensions k.state) (hj : k.state.IsMethod j m)
    (hstmts : stmts.Perm (a.program.stmtsOf m.method)) :
    Acts T E (a.program.stmtsOf m.method).length
      (fun s => ∀ stmt ∈ a.program.stmtsOf m.method, s.Visited a m stmt) k
      (a.visitInOrder react stmts j k) := by
  have hm := hs.method j m hj
  unfold visitInOrder
  simp only [hj.method]
  generalize _ ++ m.context.text = text
  have hreport : Links T k.state (k.state.report .trace text) :=
    .single (.silent (k.state.agrees_report _ _))
  -- one statement after the other; what the earlier ones put in place stays, as the state only extends
  have hvisit := Acts.foldl (T := T) (n := 1) (f := a.visitStmt react j m)
    (Q := fun stmt s => s.Visited a m stmt) (l := stmts) (m := k.modify (·.report .trace text))
    (fun _ _ _ hst => State.Visited.mono hst) (hreport.sound hs) (htame.mono hreport.extends hE)
    fun stmt hstmt k' hE' ht hst =>
      a.acts_visitStmt wf hmodel ht htame hE' (hstmts.mem_iff.1 hstmt) (T.mono hst.heap ht.distinct hm)
  have hall := hvisit.linked (f := (·.report .trace text)) hreport
  have hnotify := hall.notify (n := .methodReached j) htame hs Notice.noConfusion
    ⟨m, hall.moves.extends.isMethod hj⟩ fun hst hv stmt hstmt => (hv stmt hstmt).mono hst
  refine hnotify.weaken ?_ fun hv stmt hstmt => hv stmt (hstmts.mem_iff.2 hstmt)
  rw [Nat.one_mul]
  exact Nat.le_of_eq hstmts.length_eq

end Visits

end PointsTo
