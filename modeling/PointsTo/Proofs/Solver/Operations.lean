import PointsTo.Proofs.Solver.Sound

/-! # Operations of the solver as moves

Every operation that steps are made of is a sequence of moves, and leaves behind what it is for: a
flow edge between two pointers, an object that a pointer has or is about to have, or a call edge. The
lemmas here take one operation each; those about folds take one entry at a time.
-/

namespace PointsTo

variable {a : Analysis} {given : Fact → Prop} {T : Theory a given} {s t : State}

/-! ## Folds -/

/-- Moves that push nothing are moves under any bound. -/
theorem Moves.of_links {n : Nat} (h : Links T s t) : Moves T n s t := .linked h (.refl n t)

/-- A fold of operations that push nothing. What one of them leaves behind stays. -/
theorem Links.foldl {α : Type} {f : State → α → State} {Q : α → State → Prop} {l : List α}
    (hQ : ∀ x {s t : State}, s.Extends t → Q x s → Q x t) (hs : Sound T s)
    (hf : ∀ x ∈ l, ∀ t, Sound T t → s.Extends t → Links T t (f t x) ∧ Q x (f t x)) :
    Links T s (l.foldl f s) ∧ ∀ x ∈ l, Q x (l.foldl f s) := by
  induction l generalizing s with
  | nil => exact ⟨.refl, by simp⟩
  -- what the first operation leaves behind has to survive the others
  | cons x l ih =>
      obtain ⟨hlinks, hx⟩ := hf x (List.mem_cons_self ..) s hs (State.Extends.refl s)
      obtain ⟨hrest, hl⟩ := ih (hlinks.sound hs) fun y hy t ht hst =>
        hf y (List.mem_cons_of_mem _ hy) t ht (hlinks.extends.trans hst)
      refine ⟨hlinks.trans hrest, fun y hy => ?_⟩
      rcases List.mem_cons.1 hy with rfl | hy
      · exact hQ y hrest.extends hx
      · exact hl y hy

section Acts

variable {π : Type} {E : List π → State → Prop} {m m' m'' : Machine π} {k n : Nat}
  {P Q Q' : State → Prop}

/-- What an operation on a machine does to its state, and what it leaves behind. The extensions are
afterwards as `E` says. -/
structure Acts (T : Theory a given) (E : List π → State → Prop) (n : Nat) (Q : State → Prop)
    (m m' : Machine π) : Prop where
  extensions : E m'.extensions m'.state
  moves : Moves T n m.state m'.state
  done : Q m'.state

/-- A fold of operations on a machine, each of which pushes at most `n` times. -/
theorem Acts.foldl {α : Type} {f : Machine π → α → Machine π} {Q : α → State → Prop} {l : List α}
    (hQ : ∀ x {s t : State}, s.Extends t → Q x s → Q x t) (hs : Sound T m.state)
    (hE : E m.extensions m.state)
    (hf : ∀ x ∈ l, ∀ m' : Machine π, E m'.extensions m'.state → Sound T m'.state →
      m.state.Extends m'.state → Acts T E n (Q x) m' (f m' x)) :
    Acts T E (n * l.length) (fun t => ∀ x ∈ l, Q x t) m (l.foldl f m) := by
  induction l generalizing m with
  | nil => exact ⟨hE, .refl _ _, by simp⟩
  -- the pushes of the first round and those of the rest add up to one round more
  | cons x l ih =>
      have hx := hf x (List.mem_cons_self ..) m hE hs (State.Extends.refl _)
      have hrest := ih (hx.moves.sound hs) hx.extensions fun y hy m' hm' ht hst =>
        hf y (List.mem_cons_of_mem _ hy) m' hm' ht (hx.moves.extends.trans hst)
      refine ⟨hrest.extensions, ?_, fun y hy => ?_⟩
      · rw [List.length_cons, Nat.mul_succ, Nat.add_comm]
        exact hx.moves.trans hrest.moves
      · rcases List.mem_cons.1 hy with rfl | hy
        · exact hQ y hrest.moves.extends hx.done
        · exact hrest.done y hy

/-- A bound on the pushes may be raised, and less may be asked for. -/
theorem Acts.weaken (h : Acts T E k Q m m') (hkn : k ≤ n) (hQ : Q m'.state → Q' m'.state) :
    Acts T E n Q' m m' :=
  ⟨h.extensions, h.moves.weaken hkn, hQ h.done⟩

theorem Acts.trans (h : Acts T E k P m m') (h' : Acts T E n Q m' m'') : Acts T E (k + n) Q m m'' :=
  ⟨h'.extensions, h.moves.trans h'.moves, h'.done⟩

/-- Moves of the state in front of an operation. -/
theorem Acts.linked {f : State → State} (hlinks : Links T m.state (f m.state))
    (h : Acts T E n Q (m.modify f) m') : Acts T E n Q m m' :=
  ⟨h.extensions, .linked hlinks h.moves, h.done⟩

end Acts

/-! ## Extensions -/

section Tame

variable {π : Type} {react : Reaction π} {n : Notice} {es : List π}

/-- The identifiers that a notice mentions are those of the state. -/
def State.Knows (s : State) : Notice → Prop
  | .methodReached i => ∃ m, s.IsMethod i m
  | .callAdded e => (∃ c, s.IsCallSite e.callSite c) ∧ ∃ m, s.IsMethod e.callee m
  | .objectsAdded i objects => (∃ p, s.IsPointer i p) ∧
      ∀ o, objects.contains o = true → ∃ y, s.Denotes o y
  | _ => True

/-- Identifiers stay known when the state learns more. -/
theorem State.Knows.mono (h : s.Knows n) (hst : s.Extends t) : t.Knows n := by
  cases n with
  | methodReached i =>
      obtain ⟨m, hm⟩ := h
      exact ⟨m, hst.isMethod hm⟩
  | callAdded e =>
      obtain ⟨⟨c, hc⟩, m, hm⟩ := h
      exact ⟨⟨c, hst.isCallSite hc⟩, m, hst.isMethod hm⟩
  | objectsAdded i objects =>
      obtain ⟨⟨p, hp⟩, hobjects⟩ := h
      refine ⟨⟨p, hst.isPointer hp⟩, fun o ho => ?_⟩
      obtain ⟨y, hy⟩ := hobjects o ho
      exact ⟨y, hst.denotes hy⟩
  | _ => trivial

/-- After the start, the extensions answer notices by moves that push nothing of their own, unless the
theory is open. The invariant `E` says what the extensions are, and what they know about the state. -/
structure Tame (T : Theory a given) (react : Reaction π) (E : List π → State → Prop) : Prop where
  mono : ∀ {es : List π} {s t : State}, s.Extends t → E es s → E es t
  notify : ∀ {n : Notice} {k : Machine π}, n ≠ .started → Sound T k.state →
    E k.extensions k.state → k.state.Knows n →
      Links T k.state (k.notify react n).state ∧
        E (k.notify react n).extensions (k.notify react n).state

/-- An operation on the state of a machine with tame extensions. -/
theorem Tame.modify {E : List π → State → Prop} (htame : Tame T react E) {m : Machine π} {k : Nat}
    {Q : State → Prop} {f : State → State} (hE : E m.extensions m.state)
    (h : Moves T k m.state (f m.state)) (hQ : Q (f m.state)) : Acts T E k Q m (m.modify f) :=
  ⟨htame.mono h.extends hE, h, hQ⟩

/-- Tame extensions are told of what an operation has done. -/
theorem Acts.notify {E : List π → State → Prop} {m m' : Machine π} {k : Nat} {Q : State → Prop}
    (h : Acts T E k Q m m') (htame : Tame T react E) (hs : Sound T m.state) (hn : n ≠ .started)
    (hknows : m'.state.Knows n) (hQ : ∀ {s t : State}, s.Extends t → Q s → Q t) :
    Acts T E k Q m (m'.notify react n) := by
  obtain ⟨hlinks, hE⟩ := htame.notify hn (h.moves.sound hs) h.extensions hknows
  have hmoves := h.moves.trans (Moves.of_links (n := 0) hlinks)
  exact ⟨hE, hmoves, hQ hlinks.extends h.done⟩

/-- The extensions answer no notice but that of the start. -/
def Quiet (react : Reaction π) (es : List π) : Prop :=
  ∀ e ∈ es, ∀ n, n ≠ .started → react n e = .done e

/-- A round in which no extension answers changes nothing. -/
theorem Machine.round_of_quiet (h : Quiet react es) (hn : n ≠ .started) (s : State)
    (arrivals : List π) : round react n es s arrivals = (es, s, arrivals) := by
  induction es generalizing s arrivals with
  | nil => rfl
  | cons e es ih =>
      have he := h e (List.mem_cons_self ..) n hn
      simp only [round, he, Script.run]
      rw [ih fun e' he' => h e' (List.mem_cons_of_mem _ he')]

/-- A notice that no extension answers changes nothing. -/
theorem Machine.notify_of_quiet {m : Machine π} (h : Quiet react m.extensions)
    (hn : n ≠ .started) : m.notify react n = m := by
  simp [notify, round_of_quiet h hn]

/-- Quiet extensions are tame, and stay as they are. -/
theorem Quiet.tame (h : Quiet react es) (T : Theory a given) : Tame T react fun es' _ => es' = es where
  mono _ := id
  notify hn _ hes _ := by
    rw [Machine.notify_of_quiet (by rwa [hes]) hn]
    exact ⟨.refl, hes⟩

end Tame

/-! ## Flow and objects -/

/-- Two pointers are connected once they are interned. -/
theorem State.links_addFlow {p q : Pointer} {x y : Place} {i j : PointerId} (hi : s.IsPointer i p)
    (hj : s.IsPointer j q) (hx : s.Stands p x) (hy : s.Stands q y) (hc : T.Carries s x y) :
    Links T s (s.addFlow i j) ∧ (s.addFlow i j).HasFlow p q := by
  refine ⟨.single (.flow ⟨p, q, x, y, hi, hj, hx, hy, hc⟩), i, j, ?_, ?_, ?_⟩
  · exact (s.extends_addFlow i j).isPointer hi
  · exact (s.extends_addFlow i j).isPointer hj
  · exact (s.hasEdge_addFlow i j i j).2 (Or.inr ⟨rfl, rfl⟩)

/-- Two relevant pointers are interned one after the other. -/
theorem State.links_internPointers (hs : Sound T s) {p q : Pointer} (hp : T.Relevant s p)
    (hq : T.Relevant s q) : Links T s ((s.internPointer p).2.internPointer q).2 := by
  have hext := s.extends_internPointer p
  exact (Relation.ReflTransGen.single (.pointer hp)).tail (.pointer (hq.mono hext hs.distinct))

/-- Connecting interns the source first. -/
theorem State.connect_eq (s : State) (p q : Pointer) :
    s.connect p q = ((s.internPointer p).2.internPointer q).2.addFlow (s.internPointer p).1
      ((s.internPointer p).2.internPointer q).1 := by
  rw [connect]

/-- Connecting into a target interns the target first. -/
theorem State.connectInto_eq (s : State) (p q : Pointer) :
    s.connectInto q p = ((s.internPointer q).2.internPointer p).2.addFlow
      ((s.internPointer q).2.internPointer p).1 (s.internPointer q).1 := by
  rw [connectInto]

/-- A flow edge is added where the rules include the objects of a place in those of another. -/
theorem State.links_connect (hs : Sound T s) {p q : Pointer} {x y : Place} (hp : T.Relevant s p)
    (hq : T.Relevant s q) (hx : s.Stands p x) (hy : s.Stands q y) (hc : T.Carries s x y) :
    Links T s (s.connect p q) ∧ (s.connect p q).HasFlow p q := by
  rw [State.connect_eq]
  have hext := (State.links_internPointers hs hp hq).extends
  obtain ⟨hflow, hhas⟩ := State.links_addFlow (T := T)
    ((State.extends_internPointer _ q).isPointer (s.isPointer_internPointer p))
    (State.isPointer_internPointer _ q) (hext.stands hx) (hext.stands hy) (hc.mono hext)
  exact ⟨(State.links_internPointers hs hp hq).trans hflow, hhas⟩

/-- A flow that is justified by its places is added, with the target interned first. -/
theorem State.links_connectInto (hs : Sound T s) {p q : Pointer} {x y : Place}
    (hp : T.Relevant s p) (hq : T.Relevant s q) (hx : s.Stands p x) (hy : s.Stands q y)
    (hc : T.Carries s x y) :
    Links T s (s.connectInto q p) ∧ (s.connectInto q p).HasFlow p q := by
  rw [State.connectInto_eq]
  have hext := (State.links_internPointers hs hq hp).extends
  obtain ⟨hflow, hhas⟩ := State.links_addFlow (T := T) (State.isPointer_internPointer _ p)
    ((State.extends_internPointer _ p).isPointer (s.isPointer_internPointer q))
    (hext.stands hx) (hext.stands hy) (hc.mono hext)
  exact ⟨(State.links_internPointers hs hq hp).trans hflow, hhas⟩

/-- An object is assigned to a pointer that may have it. -/
theorem State.moves_assign {p : Pointer} {x : Place} {o : CsObjectId} {y : HeapObject}
    (hp : T.Relevant s p) (hx : s.Stands p x) (hy : s.Denotes o y)
    (hadm : T.Admits s.heap (.pointsTo x y)) :
    Moves T 1 s (s.assign p o) ∧ (s.assign p o).Promises p o := by
  have hext := s.extends_internPointer p
  have hself := s.isPointer_internPointer p
  refine ⟨.move (.pointer hp) (.push ?_ (.refl _ _)), (s.internPointer p).1, hself, ?_⟩
  · intro o' ho'
    rw [ObjectSet.contains_singleton, decide_eq_true_eq] at ho'
    subst ho'
    exact ⟨p, x, y, hself, hext.stands hx, hext.denotes hy, hadm⟩
  · exact State.awaits_push _ _ (by simp)

/-- A variable is relevant where its method is reachable. -/
theorem Theory.relevant_var {c : Context} {m : MethodId} {v : VarId} (hv : a.program.Owns m v)
    (hm : T.Admits s.heap (.reach ⟨c, m⟩)) : T.Relevant s (.var c v) :=
  ⟨Or.inr hv.1, by rwa [hv.2]⟩

/-! ## Calls -/

/-- A method that is made reachable is reachable. -/
theorem State.mem_reachable_reachMethod (s : State) (i : CsMethodId) :
    i ∈ (s.reachMethod i).calls.reachable := by
  unfold reachMethod
  split
  · exact Array.contains_iff_mem.1 ‹_›
  · exact CsCallGraph.mem_reachable_addReachable.2 (Or.inr rfl)

theorem State.agrees_report (s : State) (severity : Severity) (text : String) :
    s.Agrees (s.report severity text) :=
  ⟨rfl, rfl, rfl, rfl, rfl, rfl, rfl, rfl, rfl, rfl⟩

/-- The number of arguments is reported at most. -/
theorem Analysis.agrees_checkArity (stmt : StmtId) (call : Invoke) (method : MethodId) (body : Body)
    (s : State) : s.Agrees (a.checkArity stmt call method body s) := by
  unfold checkArity
  split
  · exact State.Agrees.refl s
  · exact s.agrees_report _ _

section Calls

variable {call : Invoke} {site : CsCallSite} {callee : CsMethod}

/-- What justifies a call: its site is reachable, and the call is admitted. -/
structure Theory.Allows (T : Theory a given) (s : State) (call : Invoke) (site : CsCallSite)
    (callee : CsMethod) : Prop where
  kind : (a.program.stmtAt site.stmt).kind = .invoke call
  caller : T.Admits s.heap (.reach ⟨site.context, (a.program.stmtAt site.stmt).method⟩)
  admitted : T.Admits s.heap (.call call.binding.kind site callee)

/-- What justifies a call still does so when the state has learnt more. -/
theorem Theory.Allows.mono (h : T.Allows s call site callee) (hst : s.Extends t)
    (hd : t.heap.Distinct) : T.Allows t call site callee :=
  ⟨h.kind, T.mono hst.heap hd h.caller, T.mono hst.heap hd h.admitted⟩

/-- The site of a justified call is one of a reachable method. -/
theorem Theory.Allows.sited (h : T.Allows s call site callee) : T.Sited s site :=
  ⟨Or.inr ⟨call, h.kind⟩, h.caller⟩

/-- The callee of a call that is allowed is reachable. -/
theorem Theory.Allows.reach (h : T.Allows s call site callee) : T.Admits s.heap (.reach callee) :=
  T.closed _ _ _ .callee (by simpa using h.admitted)

/-- An inclusion that a call gives rise to carries objects. -/
theorem Theory.Allows.carries (h : T.Allows s call site callee) {x y : Place}
    (hxy : Inclusion a.program [.call call.binding.kind site callee] x y) : T.Carries s x y :=
  carries_of_inclusion hxy (by simpa using h.admitted)

variable (wf : a.program.WellFormed)

include wf

/-- The variables of a call are relevant at its site. -/
theorem Theory.Allows.relevant (h : T.Allows s call site callee) {v : VarId}
    (hv : v ∈ (StmtKind.invoke call).operands) : T.Relevant s (.var site.context v) := by
  refine Theory.relevant_var (wf.owns_operand (wf.mem_stmtsOf_method ?_) ?_) h.caller
  · rw [h.kind]
    exact StmtKind.noConfusion
  · rwa [h.kind]

/-- The arguments of a call are linked to the parameters of its callee. -/
theorem Theory.Allows.links_arguments (h : T.Allows s call site callee) (hs : Sound T s) {b : Body}
    (hb : (a.program.methodAt callee.method).body? = some b) {f : State → VarId × VarId → State}
    (hf : ∀ s pair, f s pair =
      s.connect (.var site.context pair.1) (.var callee.context pair.2)) :
    Links T s ((call.args.zip b.params).foldl f s) ∧
      ∀ pair ∈ call.args.zip b.params, ((call.args.zip b.params).foldl f s).HasFlow
        (.var site.context pair.1) (.var callee.context pair.2) := by
  -- the flow of a pair stays while the pairs after it are connected
  refine Links.foldl (Q := fun (pair : VarId × VarId) s =>
    s.HasFlow (.var site.context pair.1) (.var callee.context pair.2))
    (fun _ _ _ hst => hst.hasFlow) hs fun pair hpair t ht hst => ?_
  have h' := h.mono hst ht.distinct
  obtain ⟨harg, hparam⟩ := List.of_mem_zip hpair
  rw [hf]
  exact State.links_connect ht (h'.relevant wf (by simp [StmtKind.operands, harg]))
    (Theory.relevant_var ((wf.body _ b hb).param _ hparam) h'.reach) (.var _ _) (.var _ _)
    (h'.carries (.argument h.kind hb hpair))

/-- The variables that a callee returns are linked to the result of a call. -/
theorem Theory.Allows.links_returns (h : T.Allows s call site callee) (hs : Sound T s) {b : Body}
    (hb : (a.program.methodAt callee.method).body? = some b) {x : VarId}
    (hx : call.result? = some x) {f : State → VarId → State}
    (hf : ∀ s r, f s r = s.connectInto (.var site.context x) (.var callee.context r)) :
    Links T s (b.returns.foldl f s) ∧
      ∀ r ∈ b.returns,
        (b.returns.foldl f s).HasFlow (.var callee.context r) (.var site.context x) := by
  refine Links.foldl (Q := fun r s => s.HasFlow (.var callee.context r) (.var site.context x))
    (fun _ _ _ hst => hst.hasFlow) hs fun r hr t ht hst => ?_
  have h' := h.mono hst ht.distinct
  obtain ⟨stmt, hstmt, hkind⟩ := ((wf.body _ b hb).ret r).1 hr
  rw [hf]
  exact State.links_connectInto ht (Theory.relevant_var (wf.owns_return hb hr) h'.reach)
    (h'.relevant wf (by simp [StmtKind.operands, hx])) (.var _ _) (.var _ _)
    (h'.carries (.result h.kind (Program.mem_stmtsOf.2 ⟨b, hb, hstmt⟩) hkind hx))

/-- Linking a call adds the edges of its arguments and of its result. -/
theorem Theory.Allows.links_linkCall (h : T.Allows s call site callee) (hs : Sound T s) {b : Body}
    (hb : (a.program.methodAt callee.method).body? = some b) :
    Links T s (Analysis.linkCall call site.context callee.context b s) ∧
      (Analysis.linkCall call site.context callee.context b s).Linked a.program site callee := by
  obtain ⟨hargs, hflows⟩ := h.links_arguments wf hs hb
    (f := fun s pair => s.connect (.var site.context pair.1) (.var callee.context pair.2))
    fun _ _ => rfl
  have hs₁ := hargs.sound hs
  have h₁ := h.mono hargs.extends hs₁.distinct
  unfold Analysis.linkCall
  split
  · -- nothing is returned to a call without a result
    rename_i hr
    refine ⟨hargs, fun call' b' hcall' hb' => ?_⟩
    cases h.kind.symm.trans hcall'
    cases hb.symm.trans hb'
    exact ⟨hflows, by simp [hr]⟩
  · rename_i x hr
    have hx := h₁.relevant wf (v := x) (by simp [StmtKind.operands, hr])
    have hmove : Links T _ _ := .single (.pointer hx)
    have hs₂ := hmove.sound hs₁
    -- the flows of the arguments stay while those of the results are added
    obtain ⟨hrets, hrflows⟩ := (h₁.mono hmove.extends hs₂.distinct).links_returns wf hs₂ hb hr
      (f := fun s r => s.connectInto (.var site.context x) (.var callee.context r)) fun _ _ => rfl
    refine ⟨hargs.trans (hmove.trans hrets), fun call' b' hcall' hb' => ?_⟩
    cases h.kind.symm.trans hcall'
    cases hb.symm.trans hb'
    refine ⟨fun pair hpair => (hmove.extends.trans hrets.extends).hasFlow (hflows pair hpair), ?_⟩
    intro x' hx' r hret
    cases hr.symm.trans hx'
    exact hrflows r hret

/-- Entering a callee makes it reachable, and links the call. -/
theorem Theory.Allows.links_enterCallee (h : T.Allows s call site callee) (hs : Sound T s)
    {id : CsMethodId} (hid : s.IsMethod id callee) :
    Links T s (a.enterCallee call site callee id s) ∧
      id ∈ (a.enterCallee call site callee id s).calls.reachable ∧
      (a.enterCallee call site callee id s).Linked a.program site callee := by
  -- the report, the callee, the number of arguments, and the links, in this order
  unfold Analysis.enterCallee
  generalize hs₁ : s.report _ _ = s₁
  have hreport : Links T s s₁ := .single (.silent (hs₁ ▸ s.agrees_report _ _))
  have hreach : Links T s (s₁.reachMethod id) :=
    hreport.tail (.reach (hreport.extends.isMethod hid))
  have hmem := s₁.mem_reachable_reachMethod id
  cases hb : (a.program.methodAt callee.method).body? with
  | none =>
      refine ⟨hreach, hmem, fun call' b' _ hb' => ?_⟩
      rw [hb] at hb'
      cases hb'
  | some b =>
      have hcheck : Links T s _ :=
        hreach.tail (.silent (a.agrees_checkArity site.stmt call callee.method b _))
      have hsound := hcheck.sound hs
      obtain ⟨hlinks, hlinked⟩ :=
        (h.mono hcheck.extends hsound.distinct).links_linkCall wf hsound hb
      refine ⟨hcheck.trans hlinks, ?_, hlinked⟩
      exact ((a.agrees_checkArity site.stmt call callee.method b _).extends.trans
        hlinks.extends).reachable _ hmem

end Calls

end PointsTo
