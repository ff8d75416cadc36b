import PointsTo.Proofs.Solver.Exactness
import PointsTo.Proofs.Solver.Growth
import PointsTo.Proofs.Solver.Truncation

/-! # Contexts of call sites

If contexts are made of call sites, the context of a callee is that of its caller with one more token,
cut to the number of tokens that are kept. Seen from the entry method, contexts are the ends of the
sequences of call sites that lead there: what is cut off on the way would be cut off at the end as well.
-/

namespace PointsTo

/-! ## Cutting at each step -/

namespace Context

/-- A token that is cut off before another one is added would be cut off afterwards. -/
theorem lastK_lastK_append (c : Context) (x : Token) (k : Nat) :
    Context.lastK (c.lastK k ++ [x]) k = Context.lastK (c ++ [x]) k := by
  rw [← extend_eq_lastK, ← extend_eq_lastK, extend_lastK x (Nat.sub_le k 1)]

end Context

/-! ## Paths -/

/-- A path of calls between methods in their contexts, by the statements that call. -/
inductive CallPath (p : Program) (F : Fact → Prop) (m : CsMethod) :
    List StmtId → CsMethod → Prop where
  | nil : CallPath p F m [] m
  | snoc {path : List StmtId} {kind : CallKind} {site : CsCallSite} {callee : CsMethod}
      (h : CallPath p F m path (p.callerOf site)) (call : F (.call kind site callee)) :
      CallPath p F m (path ++ [site.stmt]) callee

namespace CallPath

variable {p : Program} {F G : Fact → Prop} {m m' : CsMethod} {path : List StmtId}

/-- A path of calls is one for every larger set of facts. -/
theorem mono (hFG : ∀ q, F q → G q) (h : CallPath p F m path m') : CallPath p G m path m' := by
  induction h with
  | nil => exact .nil
  | snoc _ call ih => exact ih.snoc (hFG _ call)

/-- If each call cuts the string of call sites, the context at the end of a path is what is left when
the whole string is cut. -/
theorem context {k : Nat} (hF : ∀ kind site callee, F (.call kind site callee) →
      callee.context = Context.lastK (site.context ++ [.callSite site.stmt]) k)
    (h : CallPath p F m path m') (hm : m.context = []) :
    m'.context = Context.lastK (path.map .callSite) k := by
  induction h with
  | nil => exact hm.trans List.drop_nil.symm
  | @snoc path kind site callee _ call ih =>
      -- the context of the caller was cut when the caller was reached
      have hcaller : site.context = Context.lastK (path.map .callSite) k := ih
      rw [hF _ _ _ call, hcaller, Context.lastK_lastK_append, List.map_append]
      rfl

end CallPath

/-! ## What can be derived -/

section Derivations

variable {p : Program} {sel : Selector} {names : Origin → Option ObjectId} {entry : MethodId}
  {mocked : Bool}

/-- The context of a callee is that of the caller with the call site, cut to `k` tokens. -/
theorem Derivable.callee_context {k : Nat} {kind : CallKind} {site : CsCallSite} {callee : CsMethod}
    (h : Derivable (Rule p (.callSite k) names (Given p entry mocked)) (.call kind site callee)) :
    callee.context = Context.lastK (site.context ++ [.callSite site.stmt]) k := by
  cases h with
  | intro rule _ =>
      cases rule with
      | given h => cases h
      | staticCall => exact Context.extend_eq_lastK _ _ k
      | dispatch d =>
          obtain ⟨i, -, hcontext⟩ := d.context
          rw [hcontext]
          exact Context.extend_eq_lastK _ _ k

/-- A fact about a method is about one at the end of a path from the entry method. -/
def Fact.Rooted (p : Program) (F : Fact → Prop) (entry : MethodId) : Fact → Prop
  | .reach m => ∃ path, CallPath p F ⟨[], entry⟩ path m
  | .call _ site _ => ∃ path, CallPath p F ⟨[], entry⟩ path (p.callerOf site)
  | .pointsTo _ _ => True

/-- A method can be reached only along a path of calls that can be derived. -/
theorem Derivable.rooted (wf : p.WellFormed) {q : Fact}
    (h : Derivable (Rule p sel names (Given p entry mocked)) q) :
    q.Rooted p (Derivable (Rule p sel names (Given p entry mocked))) entry := by
  -- by induction on the derivation; the path grows where a callee is reached
  induction h with
  | intro rule premises ih =>
      cases rule with
      | given h =>
          cases h with
          | entry => exact ⟨[], .nil⟩
          | array => trivial
          | element => trivial
      | new => trivial
      | inclusion => trivial
      | @staticCall c m s call callee stmt =>
          obtain ⟨path, hpath⟩ := ih (.reach ⟨c, m⟩) (by simp)
          obtain ⟨-, rfl⟩ := wf.mem_stmtsOf_iff.1 stmt
          exact ⟨path, hpath⟩
      | @dispatch caller s call base o callee d =>
          obtain ⟨c, m⟩ := caller
          obtain ⟨path, hpath⟩ := ih (.reach ⟨c, m⟩) (by simp)
          obtain ⟨-, rfl⟩ := wf.mem_stmtsOf_iff.1 d.stmt
          exact ⟨path, hpath⟩
      | receiver => trivial
      | @callee kind site m =>
          obtain ⟨path, hpath⟩ := ih (.call kind site m) (by simp)
          exact ⟨path ++ [site.stmt], hpath.snoc (premises (.call kind site m) (by simp))⟩

/-- If no arguments are mocked, all objects are allocated by statements of methods that can be reached,
in heap contexts that are chosen for the contexts of these methods. -/
theorem Derivable.allocation {x : Place} {y : HeapObject}
    (h : Derivable (Rule p sel names (Given p entry false)) (.pointsTo x y)) :
    ∃ c m s v t, s ∈ p.stmtsOf m ∧ (p.stmtAt s).kind = .new v t ∧
      Derivable (Rule p sel names (Given p entry false)) (.reach ⟨c, m⟩) ∧
      y = ⟨sel.heapContext ⟨c, m⟩, p.allocated s t⟩ := by
  -- an inclusion or a receiver passes an object on, so its allocation is that of the premise
  generalize hq : Fact.pointsTo x y = q at h
  induction h generalizing x with
  | intro rule premises ih =>
      cases rule with
      | given h =>
          subst hq
          cases h with
          | array hmock => cases hmock
          | element hmock => cases hmock
      | @new c m s v t stmt kind =>
          cases hq
          exact ⟨c, m, s, v, t, stmt, kind, premises _ (by simp), rfl⟩
      | @inclusion ps z _ _ o =>
          cases hq
          exact ih (.pointsTo z y) (by simp) rfl
      | @receiver caller s call base o =>
          cases hq
          exact ih (.pointsTo (.var caller.context base) y) (by simp) rfl
      | _ => cases hq

end Derivations

/-! ## The main result -/

section Main

variable {d : ProgramDef} {p : Program} {o : Options} {r : Solution}

/-- In a result for contexts of at most `k` call sites, an edge leads from a context to that context with
the call site, cut to `k` tokens. Each reachable method is at the end of a path of calls from the entry
method, and its context is what is left of the call sites of the path. Without mock arguments, objects
are allocated by statements of reachable methods, and have all tokens of the context of the method but
the first one as heap context, if there are `k` of them. -/
theorem Solution.contexts_are_callStrings (hp : (Program.build d).1 = .ok p) {k : Nat}
    (hr : (Analysis.solveWith ⟨p, o, .callSite k, .allocationSite⟩ []).result = .ok r) :
    ∃ entry, Analysis.entryMethod ⟨p, o, .callSite k, .allocationSite⟩ = .ok entry ∧
      (∀ kind site callee, r.Holds (.call kind site callee) →
        callee.context = Context.lastK (site.context ++ [.callSite site.stmt]) k) ∧
      (∀ m, r.Holds (.reach m) → ∃ path, CallPath p r.Holds ⟨[], entry⟩ path m ∧
        m.context = Context.lastK (path.map .callSite) k) ∧
      (o.mockMainArgs = false → ∀ x y, r.Holds (.pointsTo x y) →
        ∃ c m s v t, s ∈ p.stmtsOf m ∧ (p.stmtAt s).kind = .new v t ∧ r.Holds (.reach ⟨c, m⟩) ∧
          y.object = p.allocated s t ∧ y.object.method? = some m ∧ y.context = c.lastK (k - 1)) := by
  have wf := Program.build_wellFormed hp
  obtain ⟨entry, hentry, -, -, hfinished, hgiven⟩ :=
    Analysis.finished_of_solveWith (a := ⟨p, o, .callSite k, .allocationSite⟩) wf rfl hr
  -- A result holds what can be derived and nothing else, so the three parts are shown of derivations.
  have hholds {q : Fact} (hq : Derivable (Rule p (.callSite k) r.state.heap.find?
      (Given p entry o.mockMainArgs)) q) : r.Holds q := hq.least (hfinished.closed wf hgiven)
  have hderivable {q : Fact} (hq : r.Holds q) : Derivable (Rule p (.callSite k) r.state.heap.find?
      (Given p entry o.mockMainArgs)) q := hfinished.sound.admits hq
  have hcalls (kind : CallKind) (site : CsCallSite) (callee : CsMethod)
      (hcall : r.Holds (.call kind site callee)) := (hderivable hcall).callee_context
  refine ⟨entry, hentry, hcalls, fun m hm => ?_, fun hmock x y hxy => ?_⟩
  · obtain ⟨path, hpath⟩ := (hderivable hm).rooted wf
    have hpath := hpath.mono fun _ => hholds
    exact ⟨path, hpath, hpath.context hcalls rfl⟩
  -- Without mock objects, all objects come from allocations.
  · have hxy := hderivable hxy
    rw [hmock] at hholds hxy
    obtain ⟨c, m, s, v, t, hs, hkind, hreach, rfl⟩ := hxy.allocation
    refine ⟨c, m, s, v, t, hs, hkind, hholds hreach, rfl, ?_, rfl⟩
    rw [← (wf.mem_stmtsOf_iff.1 hs).2]
    rfl

/-- In the sample without mock arguments, the method that is called by the last statement of the entry
method has that statement as context, and objects have no heap contexts. -/
theorem Solution.contexts_are_callStrings_sample : ∃ p r entry,
    (Program.build .sample).1 = .ok p ∧
    (Analysis.solveWith ⟨p, ⟨.insensitive, none, false⟩, .callSite 1, .allocationSite⟩ []).result =
      .ok r ∧
    (∃ path, CallPath p r.Holds ⟨[], entry⟩ path ⟨[.callSite ⟨4⟩], ⟨1⟩⟩ ∧
      [.callSite ⟨4⟩] = Context.lastK (path.map .callSite) 1) ∧
    ∀ x y, r.Holds (.pointsTo x y) → y.context = [] := by
  -- The second method is called from the first one, and has the call in its context.
  have hrun : ((Program.build .sample).1.toOption.bind fun p =>
      (Analysis.solveWith ⟨p, ⟨.insensitive, none, false⟩, .callSite 1,
        .allocationSite⟩ []).result.toOption.map fun r =>
          r.state.calls.reachable.toList.map r.state.elements.method) =
      some [⟨[], ⟨0⟩⟩, ⟨[.callSite ⟨4⟩], ⟨1⟩⟩] := by
    decide +kernel
  obtain ⟨p, r₀, hp, hr₀⟩ := ProgramDef.sample_solved false
  obtain ⟨r, hr⟩ :=
    Analysis.exists_result_of_selector (Program.build_wellFormed hp) hr₀ (.callSite 1)
  rw [hp, Except.toOption, Option.bind_some, hr, Except.toOption, Option.map_some,
    Option.some.injEq] at hrun
  have hreached : r.Holds (.reach ⟨[.callSite ⟨4⟩], ⟨1⟩⟩) := by
    obtain ⟨i, hi, him⟩ := List.mem_map.1 (hrun ▸ List.mem_cons_of_mem _ (List.mem_singleton_self _))
    exact ⟨i, Array.mem_toList_iff.1 hi, him⟩
  obtain ⟨entry, -, -, hpaths, hheap⟩ := contexts_are_callStrings hp hr
  refine ⟨p, r, entry, hp, hr, hpaths _ hreached, fun x y hxy => ?_⟩
  obtain ⟨c, m, s, v, t, -, -, -, -, -, hcontext⟩ := hheap rfl x y hxy
  rw [hcontext]
  exact Context.lastK_zero c

end Main

end PointsTo
