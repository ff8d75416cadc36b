import PointsTo.Proofs.Program.Acceptance
import PointsTo.Proofs.Solver.Grounding
import PointsTo.Proofs.Solver.Truncation

/-! # Receivers and the contexts that they choose

The variable that holds the receiver of a method gets its objects from calls that dispatch to the method,
unless a statement of the method assigns to it. A call on a receiver chooses the context of the callee by
the receiver, and binds the same receiver. So if contexts are made of objects or of types, the context of
a method says what its receivers are.
-/

namespace PointsTo

/-! ## Methods that keep their receiver -/

/-- The variable that a statement assigns to. -/
def StmtKind.assigned? : StmtKind → Option VarId
  | .new lhs _ => some lhs
  | .copy lhs _ => some lhs
  | .instanceLoad lhs _ _ => some lhs
  | .staticLoad lhs _ => some lhs
  | .arrayLoad lhs _ => some lhs
  | .invoke call => call.result?
  | _ => none

/-- The variable that a statement assigns to is one of its operands. -/
theorem StmtKind.mem_operands_of_assigned {kind : StmtKind} {v : VarId}
    (h : kind.assigned? = some v) : v ∈ kind.operands := by
  cases kind with
  | invoke call =>
      have hresult : call.result? = some v := h
      simp [operands, hresult]
  | _ => simp_all [assigned?, operands]

namespace Program

/-- The variable holds the receiver of the method, and no statement of the method assigns to it. -/
structure KeepsThis (p : Program) (m : MethodId) (this : VarId) : Prop where
  receiver : (p.methodAt m).body?.bind (·.this?) = some this
  kept : ∀ s ∈ p.stmtsOf m, (p.stmtAt s).kind.assigned? ≠ some this

instance (p : Program) (m : MethodId) (this : VarId) : Decidable (p.KeepsThis m this) :=
  decidable_of_iff ((p.methodAt m).body?.bind (·.this?) = some this ∧
      ∀ s ∈ p.stmtsOf m, (p.stmtAt s).kind.assigned? ≠ some this)
    ⟨fun h => ⟨h.1, h.2⟩, fun h => ⟨h.receiver, h.kept⟩⟩

variable {d : ProgramDef} {p : Program} {n : Nat} {m m' : MethodId} {this : VarId}

namespace KeepsThis

/-- The variable that holds the receiver belongs to the method. -/
theorem owns (h : p.KeepsThis m this) (wf : p.WellFormed) : p.Owns m this := by
  obtain ⟨b, hb, hthis⟩ := Option.bind_eq_some_iff.1 h.receiver
  exact (wf.body m b hb).this this hthis

/-- The method is the only one with this variable. -/
theorem eq_of_owns (h : p.KeepsThis m this) (wf : p.WellFormed) (ho : p.Owns m' this) : m' = m :=
  ho.2.symm.trans (h.owns wf).2

/-- No statement of any method assigns to the variable. -/
theorem assigned_ne (h : p.KeepsThis m this) (wf : p.WellFormed) {s : StmtId}
    (hs : s ∈ p.stmtsOf m') : (p.stmtAt s).kind.assigned? ≠ some this := by
  intro hassigned
  have howns := wf.owns_operand hs (StmtKind.mem_operands_of_assigned hassigned)
  obtain rfl := h.eq_of_owns wf howns
  exact h.kept s hs hassigned

/-- The variable is not a parameter of any method. -/
theorem notMem_params (h : p.KeepsThis m this) (wf : p.WellFormed) (hp : p.Underway d n) {b : Body}
    (hb : (p.methodAt m').body? = some b) : this ∉ b.params := by
  intro hparam
  obtain rfl := h.eq_of_owns wf ((wf.body m' b hb).param this hparam)
  obtain ⟨b', hb', hthis⟩ := Option.bind_eq_some_iff.1 h.receiver
  obtain rfl : b = b' := Option.some.inj (hb.symm.trans hb')
  obtain ⟨x, -, hfits⟩ := hp.fits m' b hb
  exact hfits.this_notMem_params hthis hparam

end KeepsThis

end Program

/-! ## What can be derived about receivers -/

section Derivations

variable {d : ProgramDef} {p : Program} {n : Nat} {sel : Selector} {names : Origin → Option ObjectId}
  {entry : MethodId} {mocked : Bool} {m : MethodId} {this : VarId}

/-- An object can only be derived as a receiver in the context that the selector chooses for it. -/
theorem Derivable.receiver_context (hthis : p.KeepsThis m this) (wf : p.WellFormed)
    (hp : p.Underway d n) {c : Context} {y : HeapObject}
    (h : Derivable (Rule p sel names (Given p entry mocked)) (.pointsTo (.var c this) y)) :
    ∃ site i, names y.object.origin = some i ∧
      c = sel.receiverContext site ⟨y.context, i, y.object.container⟩ := by
  cases h with
  | intro rule premises =>
      have hne {m : MethodId} {s : StmtId} (hs : s ∈ p.stmtsOf m) {kind : StmtKind}
          (hkind : (p.stmtAt s).kind = kind) : kind.assigned? ≠ some this :=
        hkind ▸ hthis.assigned_ne wf hs
      -- all rules but the last one assign to a variable, or to a parameter
      cases rule with
      | given h =>
          cases h with
          | array hmock arg =>
              obtain ⟨b, hb, hparam⟩ := Program.mainArgument?_eq_some arg
              exact absurd hparam (hthis.notMem_params wf hp hb)
      | new stmt kind => exact absurd rfl (hne stmt kind)
      | inclusion h =>
          cases h with
          | copy stmt kind => exact absurd rfl (hne stmt kind)
          | staticLoad stmt kind => exact absurd rfl (hne stmt kind)
          | instanceLoad stmt kind => exact absurd rfl (hne stmt kind)
          | arrayLoad stmt kind => exact absurd rfl (hne stmt kind)
          | argument kind body pair =>
              exact absurd (List.of_mem_zip pair).2 (hthis.notMem_params wf hp body)
          | @result k site callee call s v x kind stmt ret result =>
              obtain ⟨m', call', hstmt, -⟩ := (premises (.call k site callee) (by simp)).caller
              exact absurd result (hne hstmt kind)
      | @receiver caller s call base o callee b v h body hv =>
          obtain ⟨i, hi, hcontext⟩ := h.context
          exact ⟨_, i, hi, hcontext⟩

end Derivations

/-! ## Receivers in states -/

section States

variable {d : ProgramDef} {n : Nat} {a : Analysis} {wf : a.program.WellFormed} {entry : MethodId}
  {s : State} {m : MethodId} {this : VarId} {c : Context} {i : CsObjectId}

/-- Whatever has arrived as a receiver is in the context that the selector chooses for it. -/
theorem Sound.receiver_context (hs : Sound (a.theory wf entry) s)
    (hthis : a.program.KeepsThis m this) (hp : a.program.Underway d n)
    (hi : (s.elements.objectsOf (.var c this)).contains i = true) :
    ∃ r x, s.HasObject c this i r x ∧ r.container = x.container ∧
      ∃ site, c = a.selector.receiverContext site r := by
  obtain ⟨j, hj, hji⟩ := State.exists_isPointer hi
  obtain ⟨q, z, y, hq, hz, ⟨o, ho, hheap⟩, hadmits⟩ := hs.pointsTo j i hji
  obtain rfl : q = .var c this := Option.some.inj (hq.symm.trans hj)
  cases hz
  obtain ⟨site, o', ho', hcontext⟩ := Derivable.receiver_context hthis wf hp hadmits
  -- the object has a single name
  obtain rfl : o' = o := Option.some.inj (ho'.symm.trans (hs.distinct.find? hheap))
  exact ⟨_, y.object, ⟨⟨j, hj, hji⟩, ho, hheap⟩, rfl, site, hcontext⟩

end States

/-- Contexts that keep at least one token end with the token that they were extended by. -/
theorem Context.eq_of_lastK_append_eq {c c' : Context} {x x' : Token} {k : Nat} (hk : 1 ≤ k)
    (h : Context.lastK (c ++ [x]) k = Context.lastK (c' ++ [x']) k) : x = x' := by
  have hne : k ≠ 0 := Nat.ne_of_gt hk
  rw [← extend_eq_lastK, ← extend_eq_lastK, extend, extend, if_neg hne, if_neg hne] at h
  exact (List.cons.inj (List.append_inj' h rfl).2).1

/-! ## The main result -/

namespace Analysis

variable {d : ProgramDef} {p : Program} {o : Options} {k : Nat} {entry : MethodId}
  {m : MethodId} {this : VarId} {j : Machine Extension}

/-- Every object that a run meets as a receiver is in a context that the selector chooses for it. -/
theorem Passes.receiver_context {sel : Selector} (hp : (Program.build d).1 = .ok p)
    (hthis : p.KeepsThis m this) (hj : Passes ⟨p, o, sel, .allocationSite⟩ entry j) {c : Context}
    {i : CsObjectId} (hi : (j.state.elements.objectsOf (.var c this)).contains i = true) :
    ∃ r x, j.state.HasObject c this i r x ∧ r.container = x.container ∧
      ∃ site, c = sel.receiverContext site r :=
  (hj.running (Program.build_wellFormed hp) rfl).started.sound.receiver_context hthis
    (Program.build_underway hp) hi

/-- Receivers determine contexts. In every state that a run without further extensions comes to, the
objects of the variable that holds the receiver of a method, if no statement of the method assigns to it,
have arrived in the context of the method: this is the heap context of the object with one more token, the
object or its container, cut to the number of tokens that are kept. So if contexts are made of at least
one object, all receivers in a context are the same object. -/
theorem receivers_determine_contexts (hp : (Program.build d).1 = .ok p) (o : Options) (k : Nat)
    (entry : MethodId) (hthis : p.KeepsThis m this) :
    (∀ j, Passes ⟨p, o, .object k, .allocationSite⟩ entry j → ∀ c i,
      (j.state.elements.objectsOf (.var c this)).contains i = true →
        ∃ r x, j.state.HasObject c this i r x ∧
          c = Context.lastK (r.context ++ [.object r.object]) k) ∧
    (∀ j, Passes ⟨p, o, .type k, .allocationSite⟩ entry j → ∀ c i,
      (j.state.elements.objectsOf (.var c this)).contains i = true →
        ∃ r x, j.state.HasObject c this i r x ∧
          c = Context.lastK (r.context ++ [.type x.container]) k) ∧
    (1 ≤ k → ∀ j, Passes ⟨p, o, .object k, .allocationSite⟩ entry j → ∀ c i r x i' r' x',
      j.state.HasObject c this i r x → j.state.HasObject c this i' r' x' →
        r.object = r'.object ∧ x = x') := by
  have hobject {j : Machine Extension} (hj : Passes ⟨p, o, .object k, .allocationSite⟩ entry j)
      {c : Context} {i : CsObjectId}
      (hi : (j.state.elements.objectsOf (.var c this)).contains i = true) :
      ∃ r x, j.state.HasObject c this i r x ∧
        c = Context.lastK (r.context ++ [.object r.object]) k := by
    obtain ⟨r, x, hr, -, site, hc⟩ := hj.receiver_context hp hthis hi
    exact ⟨r, x, hr, hc.trans (Context.extend_eq_lastK _ _ k)⟩
  refine ⟨fun j hj c i => hobject hj, fun j hj c i hi => ?_,
    fun hk j hj c i r x i' r' x' hr hr' => ?_⟩
  · obtain ⟨r, x, hr, hcontainer, site, hc⟩ := hj.receiver_context hp hthis hi
    refine ⟨r, x, hr, hc.trans ?_⟩
    rw [← hcontainer]
    exact Context.extend_eq_lastK _ _ k
  -- both receivers are in the same context, so its last token names both of them
  · have hcontext {i : CsObjectId} {r : CsObject} {x : Object} (hr : j.state.HasObject c this i r x) :
        c = Context.lastK (r.context ++ [.object r.object]) k := by
      obtain ⟨q, hq, hi⟩ := hr.pointer
      rw [← hq.objectsOf] at hi
      obtain ⟨r₀, x₀, hr₀, hc⟩ := hobject hj hi
      obtain rfl : r = r₀ := Option.some.inj (hr.object.symm.trans hr₀.object)
      exact hc
    have hsame := Token.object.inj
      (Context.eq_of_lastK_append_eq hk ((hcontext hr).symm.trans (hcontext hr')))
    exact ⟨hsame, Option.some.inj (hr.heap.symm.trans (hsame ▸ hr'.heap))⟩

/-- In the sample, the object that the first statement allocates arrives as the receiver of the method
that is called on it, in the context that consists of the object. -/
theorem receivers_determine_contexts_sample : ∃ p r entry j, (Program.build .sample).1 = .ok p ∧
    p.KeepsThis ⟨1⟩ ⟨3⟩ ∧
    (solveWith ⟨p, ⟨.insensitive, none, true⟩, .object 1, .allocationSite⟩ []).result = .ok r ∧
    Passes ⟨p, ⟨.insensitive, none, true⟩, .object 1, .allocationSite⟩ entry j ∧
    j.state.Agrees r.state ∧ ∃ o x, j.state.HasObject [.object ⟨0⟩] ⟨3⟩ ⟨0⟩ o x ∧
      [.object ⟨0⟩] = Context.lastK (o.context ++ [.object o.object]) 1 ∧
      ∀ i o' x', j.state.HasObject [.object ⟨0⟩] ⟨3⟩ i o' x' → x' = x := by
  -- The receiver of the called method arrives, and no statement of the method assigns to it.
  have hrun : ((Program.build .sample).1.toOption.bind fun p =>
      (solveWith ⟨p, ⟨.insensitive, none, true⟩, .object 1, .allocationSite⟩ []).result.toOption.map
        fun r => decide (p.KeepsThis ⟨1⟩ ⟨3⟩) &&
          (r.state.elements.objectsOf (.var [.object ⟨0⟩] ⟨3⟩)).contains ⟨0⟩) = some true := by
    decide +kernel
  obtain ⟨p, r, hp, hr⟩ := ProgramDef.sample_solved true
  rw [hp, Except.toOption, Option.bind_some, hr, Except.toOption, Option.map_some, Option.some.injEq,
    Bool.and_eq_true, decide_eq_true_eq] at hrun
  obtain ⟨hthis, harrived⟩ := hrun
  obtain ⟨entry, j, -, hj, -, hagrees⟩ := passes_of_solveWith (Program.build_wellFormed hp) rfl hr
  obtain ⟨hobject, -, hsame⟩ :=
    receivers_determine_contexts hp ⟨.insensitive, none, true⟩ 1 entry hthis
  rw [hagrees.elements] at harrived
  obtain ⟨o, x, ho, hcontext⟩ := hobject j hj _ _ harrived
  refine ⟨p, r, entry, j, hp, hthis, hr, hj, hagrees, o, x, ho, hcontext, fun i o' x' ho' => ?_⟩
  exact (hsame (Nat.le_refl 1) j hj _ _ _ _ _ _ _ ho' ho).2

end Analysis

end PointsTo
