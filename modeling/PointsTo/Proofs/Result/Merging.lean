import PointsTo.Proofs.Result.CallGraph
import PointsTo.Proofs.Result.Derivation

/-! # Call graphs without contexts

The call graph of a result merges the contexts of methods and call sites. It leaves out calls unless both of
their ends are among its methods; but callers and callees of a result are reachable, so nothing is left out.
Two methods are joined exactly if some call leads from the one to the other, in whatever contexts, and the
call between them lists the statements and the kinds of all such calls.
-/

namespace PointsTo

/-! ## The order of first occurrences -/

section Order

variable {α : Type} [DecidableEq α]

/-- What comes earlier among some members of a list comes earlier in the list. -/
theorem idxOf_lt_of_filter {p : α → Bool} {l : List α} {x y : α} (hy : p y = true)
    (h : (l.filter p).idxOf x < (l.filter p).idxOf y) : l.idxOf x < l.idxOf y := by
  induction l with
  | nil => exact absurd h (Nat.lt_irrefl _)
  | cons a l ih =>
      -- The head of the list is one of the two members or neither. It stays in front if it is the
      -- first, and contradicts the assumption if it is the second.
      by_cases hax : a = x
      · subst hax
        have hay : a ≠ y := by
          rintro rfl
          exact Nat.lt_irrefl _ h
        rw [List.idxOf_cons_self, List.idxOf_cons_ne _ hay]
        exact Nat.succ_pos _
      · by_cases hay : a = y
        · subst hay
          -- what is left would start with the second member
          rw [List.filter_cons_of_pos hy, List.idxOf_cons_self] at h
          exact absurd h (Nat.not_lt_zero _)
        · rw [List.idxOf_cons_ne _ hax, List.idxOf_cons_ne _ hay]
          refine Nat.succ_lt_succ (ih ?_)
          by_cases ha : p a = true
          · rw [List.filter_cons_of_pos ha, List.idxOf_cons_ne _ hax, List.idxOf_cons_ne _ hay] at h
            exact Nat.lt_of_succ_lt_succ h
          · rwa [List.filter_cons_of_neg ha] at h

/-- Members are listed in the order of their first occurrences. -/
theorem pairwise_idxOf_eraseDups (l : List α) :
    l.eraseDups.Pairwise fun x y => l.idxOf x < l.idxOf y := by
  refine CallGraph.eraseDups_induction
    (P := fun l l' => l'.Pairwise fun x y => l.idxOf x < l.idxOf y) .nil (fun a l l' hl hmem => ?_) l
  refine List.pairwise_cons.2 ⟨fun b hb => ?_, hl.imp_of_mem fun {x y} hx hy h => ?_⟩
  · rw [List.idxOf_cons_self, List.idxOf_cons_ne _ (hmem b hb).2.symm]
    exact Nat.succ_pos _
  · rw [List.idxOf_cons_ne _ (hmem x hx).2.symm, List.idxOf_cons_ne _ (hmem y hy).2.symm]
    exact Nat.succ_lt_succ (idxOf_lt_of_filter (by simpa using (hmem y hy).2) h)

end Order

/-! ## Calls that edges make -/

namespace CallGraph

variable {g : CallGraph} {edges : List Projection} {a b : MethodId} {call : Call}

theorem position?_inj {i : Nat} (ha : g.position? a = some i) (hb : g.position? b = some i) : a = b := by
  obtain ⟨-, rfl⟩ := g.position?_eq_some_iff.1 ha
  exact (g.position?_eq_some_iff.1 hb).2

/-- The ends of an edge are the positions of the methods that it joins. -/
theorem ends?_eq_some_iff {e : Projection} {ends : Nat × Nat} : g.ends? e = some ends ↔
    g.position? e.caller = some ends.1 ∧ g.position? e.callee = some ends.2 := by
  obtain ⟨i, j⟩ := ends
  simp only [ends?, Option.bind_eq_bind, Option.bind_eq_some_iff, Option.pure_def, Option.some.injEq,
    Prod.mk.injEq]
  constructor
  · rintro ⟨i', hi, j', hj, rfl, rfl⟩
    exact ⟨hi, hj⟩
  · rintro ⟨hi, hj⟩
    exact ⟨i, hi, j, hj, rfl, rfl⟩

/-- The edges at two positions, found through the positions of all edges. -/
theorem map_filter_placed (g : CallGraph) (edges : List Projection) (i j : Nat) :
    (((edges.filterMap fun e => (g.ends? e).map (·, e)).filter (·.1.1 = i)).filter (·.1.2 = j)).map (·.2) =
      edges.filter fun e => g.ends? e = some (i, j) := by
  rw [List.filter_filter]
  induction edges with
  | nil => rfl
  | cons e edges ih =>
      cases hends : g.ends? e with
      | none => simp [hends, ih]
      | some ends =>
          obtain ⟨i', j'⟩ := ends
          by_cases hi : i' = i
          · by_cases hj : j' = j
            · simp [hends, hi, hj, ih]
            · simp [hends, hj, ih]
          · simp [hends, hi, ih]

/-- A call joins two positions exactly if it is the one that the edges there make. -/
theorem mem_arcsOf {c : CallArc} : c ∈ g.arcsOf edges ↔
    (c.source < g.methods.length ∧ c.target < g.methods.length) ∧
      callOf? (edges.filter fun e => g.ends? e = some c.ends) = some c.call := by
  simp only [arcsOf, List.mem_flatMap, List.mem_filterMap, mem_indices, map_filter_placed,
    Option.map_eq_some_iff]
  constructor
  · rintro ⟨i, hi, j, hj, call, hcall, rfl⟩
    exact ⟨⟨hi, hj⟩, hcall⟩
  · rintro ⟨⟨hi, hj⟩, hcall⟩
    exact ⟨_, hi, _, hj, _, hcall, rfl⟩

/-- The call that edges make has their statements in order and their kinds in order, and there is one
unless there are no edges. -/
theorem callOf?_eq_some_iff {es : List Projection} : callOf? es = some call ↔
    es ≠ [] ∧ sortedSet (·.idx) (es.map (·.stmt)) = call.callSites ∧
      CallKind.all.filter (· ∈ es.map (·.kind)) = call.kinds := by
  cases es with
  | nil => simp [callOf?]
  | cons e es =>
      obtain ⟨callSites, kinds⟩ := call
      simp [callOf?]

/-- If all edges join methods of the graph, the call between two methods is the one that all edges between
them make. -/
theorem call?_withCalls
    (h : ∀ e ∈ edges, e.caller ∈ g.methodIds ∧ e.callee ∈ g.methodIds) :
    (g.withCalls edges).call? a b = callOf? (edges.filter fun e => e.caller = a ∧ e.callee = b) := by
  -- Positions tell methods apart, so edges with the same ends are those between the same methods.
  have hends {i j : Nat} (hi : g.position? a = some i) (hj : g.position? b = some j) (e : Projection) :
      g.ends? e = some (i, j) ↔ e.caller = a ∧ e.callee = b := by
    rw [ends?_eq_some_iff]
    constructor
    · rintro ⟨hi', hj'⟩
      exact ⟨position?_inj hi' hi, position?_inj hj' hj⟩
    · rintro ⟨rfl, rfl⟩
      exact ⟨hi, hj⟩
  refine Option.ext fun call => call?_eq_some_iff.trans ⟨?_, fun hcall => ?_⟩
  · rintro ⟨c, hc, hi, hj, rfl⟩
    obtain ⟨-, hcall⟩ := mem_arcsOf.1 hc
    rw [← hcall]
    refine congrArg callOf? (List.filter_congr fun e _ => ?_)
    exact decide_eq_decide.2 (hends hi hj e).symm
  · -- the first one of the edges tells the positions
    obtain ⟨e, he⟩ := List.exists_mem_of_ne_nil _ (callOf?_eq_some_iff.1 hcall).1
    obtain ⟨hmem, hab⟩ := List.mem_filter.1 he
    obtain ⟨rfl, rfl⟩ := of_decide_eq_true hab
    obtain ⟨i, hi⟩ := mem_methodIds.1 (h e hmem).1
    obtain ⟨j, hj⟩ := mem_methodIds.1 (h e hmem).2
    refine ⟨⟨i, j, call⟩, mem_arcsOf.2 ⟨⟨?_, ?_⟩, ?_⟩, hi, hj, rfl⟩
    · exact (g.position?_eq_some_iff.1 hi).1
    · exact (g.position?_eq_some_iff.1 hj).1
    · rw [← hcall]
      refine congrArg callOf? (List.filter_congr fun e _ => ?_)
      exact decide_eq_decide.2 (hends hi hj e)

end CallGraph

/-! ## The graph of a result -/

/-- The statement belongs to the first method, and in some contexts it calls the second one in the given
way. -/
def Solution.CallsVia (r : Solution) (a b : MethodId) (s : StmtId) (k : CallKind) : Prop :=
  (r.program.stmtAt s).method = a ∧ ∃ c c', r.Holds (.call k ⟨c, s⟩ ⟨c', b⟩)

/-- The edges of a result from a method to another, without their contexts. -/
def CallGraph.edgesBetween (r : Solution) (a b : MethodId) : List Projection :=
  (projections r).filter fun e => e.caller = a ∧ e.callee = b

/-- The methods that were discovered, in order and once for each context. -/
def Solution.discovered (r : Solution) : List MethodId :=
  r.reachableCsMethods.map fun m => (r.state.elements.method m).method

/-- The graph is the one that is left of the call graph of a result when contexts are forgotten. -/
structure CallGraph.Merges (g : CallGraph) (r : Solution) (entry : MethodId) : Prop where
  mem_methodIds_iff : ∀ m, m ∈ g.methodIds ↔ m ∈ r.reachableMethods
  /-- Methods are in the order in which they were first discovered, each once. -/
  order : g.methodIds.Pairwise fun a b => r.discovered.idxOf a < r.discovered.idxOf b
  isEntry_iff : ∀ n ∈ g.methods, n.isEntry = true ↔ n.id = entry
  /-- No edge is left out: both of its ends are methods of the graph. -/
  placed : ∀ e ∈ projections r, ∃ ends, g.ends? e = some ends
  calls_iff : ∀ a b, g.Calls a b ↔ ∃ s k, r.CallsVia a b s k
  mem_callSites_iff : ∀ a b call, g.call? a b = some call →
    ∀ s, s ∈ call.callSites ↔ ∃ k, r.CallsVia a b s k
  callSites_sorted : ∀ a b call, g.call? a b = some call → call.callSites.Pairwise (·.idx < ·.idx)
  mem_kinds_iff : ∀ a b call, g.call? a b = some call →
    ∀ k, k ∈ call.kinds ↔ ∃ s, r.CallsVia a b s k
  kinds_sorted : ∀ a b call, g.call? a b = some call → call.kinds.Sublist CallKind.all
  mem_calleesOf_iff_mem_callersOf : ∀ a b, b ∈ g.calleesOf a ↔ a ∈ g.callersOf b
  mem_calleesOf_iff : ∀ a b, b ∈ g.calleesOf a ↔ ∃ s ∈ r.program.stmtsOf a, b ∈ r.calleesOf s

/-- The edges without contexts are the calls between methods that hold in some contexts. -/
theorem CallGraph.mem_projections {r : Solution} {e : Projection} :
    e ∈ projections r ↔ r.CallsVia e.caller e.callee e.stmt e.kind := by
  obtain ⟨caller, callee, stmt, kind⟩ := e
  simp only [projections, List.mem_map, Array.mem_toList_iff, Projection.mk.injEq, Solution.CallsVia,
    Solution.Holds, State.Holds]
  constructor
  · rintro ⟨e, he, rfl, rfl, rfl, rfl⟩
    exact ⟨rfl, _, _, e, he, rfl, rfl, rfl⟩
  · rintro ⟨rfl, c, c', e, he, rfl, hsite, hcallee⟩
    exact ⟨e, he, by rw [hsite], by rw [hcallee], by rw [hsite], rfl⟩

/-- The methods of the graph stand in the order in which they were discovered first. -/
theorem CallGraph.methodIds_ofSolution (r : Solution) :
    (ofSolution r).methodIds = r.discovered.eraseDups :=
  List.map_map.trans (List.map_id _)

namespace Solution.Answers

variable {a : Analysis} {r : Solution} {entry caller callee : MethodId} {call : Call}
  (h : r.Answers a entry)

include h

/-- What was discovered is what is reachable. -/
theorem mem_discovered_iff {m : MethodId} : m ∈ r.discovered ↔ m ∈ r.reachableMethods := by
  show m ∈ r.discovered ↔ m ∈ r.program.methodSet r.discovered
  rw [Program.mem_methodSet]
  refine ⟨fun hm => ⟨?_, hm⟩, And.right⟩
  obtain ⟨i, hi, rfl⟩ := List.mem_map.1 hm
  exact h.reach_lt ⟨i, Array.mem_toList_iff.1 hi, rfl⟩

/-- The methods of the graph are the reachable ones. -/
theorem mem_methodIds_ofSolution_iff {m : MethodId} :
    m ∈ (CallGraph.ofSolution r).methodIds ↔ m ∈ r.reachableMethods := by
  rw [CallGraph.methodIds_ofSolution, List.mem_eraseDups, h.mem_discovered_iff]

/-- Both ends of a call are reachable, so both are methods of the graph. -/
theorem mem_methodIds_of_projection {e : CallGraph.Projection} (he : e ∈ CallGraph.projections r) :
    e.caller ∈ (CallGraph.ofSolution r).methodIds ∧ e.callee ∈ (CallGraph.ofSolution r).methodIds := by
  obtain ⟨hcaller, c, c', hcall⟩ := CallGraph.mem_projections.1 he
  rw [h.mem_methodIds_ofSolution_iff, h.mem_methodIds_ofSolution_iff, h.mem_reachableMethods_iff,
    h.mem_reachableMethods_iff, ← hcaller, h.program]
  exact ⟨⟨c, (h.caller hcall).2⟩, ⟨c', h.callee hcall⟩⟩

/-- The call between two methods is made by all edges between them. -/
theorem call?_ofSolution : (CallGraph.ofSolution r).call? caller callee =
    CallGraph.callOf? (CallGraph.edgesBetween r caller callee) :=
  CallGraph.call?_withCalls fun _ => h.mem_methodIds_of_projection

omit h in
/-- Edges between two methods are the ways in which the first one calls the second one. -/
theorem exists_edgesBetween_iff {P : StmtId → CallKind → Prop} :
    (∃ e ∈ CallGraph.edgesBetween r caller callee, P e.stmt e.kind) ↔
      ∃ s k, r.CallsVia caller callee s k ∧ P s k := by
  simp only [CallGraph.edgesBetween, List.mem_filter, CallGraph.mem_projections, decide_eq_true_eq]
  constructor
  · rintro ⟨e, ⟨hvia, rfl, rfl⟩, hP⟩
    exact ⟨_, _, hvia, hP⟩
  · rintro ⟨s, k, hvia, hP⟩
    exact ⟨⟨caller, callee, s, k⟩, ⟨hvia, rfl, rfl⟩, hP⟩

/-- In the graph a method calls another exactly if it does so in some contexts. -/
theorem calls_ofSolution_iff :
    (CallGraph.ofSolution r).Calls caller callee ↔ ∃ s k, r.CallsVia caller callee s k := by
  have hedge := @exists_edgesBetween_iff r caller callee fun _ _ => True
  simp only [and_true] at hedge
  rw [← hedge, CallGraph.Calls, h.call?_ofSolution]
  simp only [CallGraph.callOf?_eq_some_iff]
  constructor
  · rintro ⟨call, hne, -⟩
    exact List.exists_mem_of_ne_nil _ hne
  · rintro ⟨e, he⟩
    exact ⟨⟨_, _⟩, List.ne_nil_of_mem he, rfl, rfl⟩

section Lists

variable (hcall : (CallGraph.ofSolution r).call? caller callee = some call)

include hcall

/-- A call has the statements of the edges between its ends, in order. -/
theorem callSites_eq : call.callSites =
    CallGraph.sortedSet (·.idx) ((CallGraph.edgesBetween r caller callee).map (·.stmt)) := by
  rw [h.call?_ofSolution] at hcall
  exact (CallGraph.callOf?_eq_some_iff.1 hcall).2.1.symm

/-- A call has the kinds of the edges between its ends, in order. -/
theorem kinds_eq : call.kinds =
    CallKind.all.filter (· ∈ (CallGraph.edgesBetween r caller callee).map (·.kind)) := by
  rw [h.call?_ofSolution] at hcall
  exact (CallGraph.callOf?_eq_some_iff.1 hcall).2.2.symm

/-- Statements of a call are those that call its target in some way. -/
theorem mem_callSites_iff {s : StmtId} : s ∈ call.callSites ↔ ∃ k, r.CallsVia caller callee s k := by
  rw [h.callSites_eq hcall, CallGraph.mem_sortedSet, List.mem_map,
    exists_edgesBetween_iff (P := fun s' _ => s' = s)]
  constructor
  · rintro ⟨s', k, hvia, rfl⟩
    exact ⟨k, hvia⟩
  · rintro ⟨k, hvia⟩
    exact ⟨s, k, hvia, rfl⟩

/-- Kinds of a call are those in which some statement calls its target. -/
theorem mem_kinds_iff {k : CallKind} : k ∈ call.kinds ↔ ∃ s, r.CallsVia caller callee s k := by
  have hall : k ∈ CallKind.all := by cases k <;> decide
  rw [h.kinds_eq hcall, List.mem_filter, decide_eq_true_eq, List.mem_map,
    exists_edgesBetween_iff (P := fun _ k' => k' = k), and_iff_right hall]
  constructor
  · rintro ⟨s, k', hvia, rfl⟩
    exact ⟨s, hvia⟩
  · rintro ⟨s, hvia⟩
    exact ⟨s, k, hvia, rfl⟩

end Lists

/-- The methods that a method calls in the graph are those that its statements call. -/
theorem exists_via_iff : (∃ s k, r.CallsVia caller callee s k) ↔
    ∃ s ∈ r.program.stmtsOf caller, callee ∈ r.calleesOf s := by
  constructor
  · rintro ⟨s, k, rfl, c, c', hcall⟩
    have hstmt := (h.caller hcall).1
    rw [← h.program] at hstmt
    exact ⟨s, hstmt, h.mem_calleesOf_iff.2 ⟨k, c, c', hcall⟩⟩
  · rintro ⟨s, hs, hcallee⟩
    obtain ⟨k, c, c', hcall⟩ := h.mem_calleesOf_iff.1 hcallee
    rw [h.program] at hs
    obtain ⟨-, rfl⟩ := h.wf.mem_stmtsOf_iff.1 hs
    exact ⟨s, k, by rw [h.program], c, c', hcall⟩

/-- The nodes of the graph know the entry method. -/
theorem isEntry_ofSolution_iff {n : CallNode} (hn : n ∈ (CallGraph.ofSolution r).methods) :
    n.isEntry = true ↔ n.id = entry := by
  obtain ⟨i, hentries, hi⟩ := h.entries
  obtain ⟨m, -, rfl⟩ := List.mem_map.1 hn
  simp [CallGraph.nodeOf, hentries, hi.method]

/-- The call graph of a result is the result without contexts. -/
theorem merges_ofSolution : (CallGraph.ofSolution r).Merges r entry where
  mem_methodIds_iff _ := h.mem_methodIds_ofSolution_iff
  order := by
    rw [CallGraph.methodIds_ofSolution]
    exact pairwise_idxOf_eraseDups _
  isEntry_iff _ := h.isEntry_ofSolution_iff
  placed e he := by
    obtain ⟨hcaller, hcallee⟩ := h.mem_methodIds_of_projection he
    obtain ⟨i, hi⟩ := CallGraph.mem_methodIds.1 hcaller
    obtain ⟨j, hj⟩ := CallGraph.mem_methodIds.1 hcallee
    exact ⟨(i, j), CallGraph.ends?_eq_some_iff.2 ⟨hi, hj⟩⟩
  calls_iff _ _ := h.calls_ofSolution_iff
  mem_callSites_iff _ _ _ hcall _ := h.mem_callSites_iff hcall
  callSites_sorted _ _ _ hcall := by
    rw [h.callSites_eq hcall]
    exact CallGraph.pairwise_sortedSet (fun _ _ => congrArg StmtId.mk) _
  mem_kinds_iff _ _ _ hcall _ := h.mem_kinds_iff hcall
  kinds_sorted _ _ _ hcall := by
    rw [h.kinds_eq hcall]
    exact List.filter_sublist
  mem_calleesOf_iff_mem_callersOf _ _ := CallGraph.mem_calleesOf.trans CallGraph.mem_callersOf.symm
  mem_calleesOf_iff _ _ := CallGraph.mem_calleesOf.trans (h.calls_ofSolution_iff.trans h.exists_via_iff)

end Solution.Answers

/-! ## The main result -/

/-- An entry method that calls the same method on two objects. -/
def ProgramDef.twofold : ProgramDef :=
  ⟨none, [⟨"A", none, [], false, false, [], [
    ⟨"main", [⟨"args", "[LA;"⟩], "V", true, false, false, [⟨"x", "LA;"⟩, ⟨"y", "LA;"⟩], [
      .new "x" "LA;",
      .new "y" "LA;",
      .invoke .virtual (some "x") "LA;->run()V" [] none,
      .invoke .virtual (some "y") "LA;->run()V" [] none]⟩,
    ⟨"run", [], "V", false, false, false, [], []⟩]⟩]⟩

/-- The call graph of a result has one node for each reachable method, in the order of discovery, and marks
the entry method. It joins two methods exactly if some call leads from a statement of the one to the other in
some contexts, and lists the statements and the kinds of these calls; no call is left out. Callees and
callers are converse to each other, and callees are those of the statements of the caller. -/
theorem Solution.callGraph_exact {d : ProgramDef} {p : Program} {o : Options} {sel : Selector}
    {r : Solution} (hp : (Program.build d).1 = .ok p)
    (hr : (Analysis.solveWith ⟨p, o, sel, .allocationSite⟩ []).result = .ok r) :
    ∃ entry, Analysis.entryMethod ⟨p, o, sel, .allocationSite⟩ = .ok entry ∧
      (CallGraph.ofSolution r).Merges r entry := by
  obtain ⟨entry, hentry, hanswers⟩ := Analysis.answers_of_solveWith (Program.build_wellFormed hp) rfl hr
  exact ⟨entry, hentry, hanswers.merges_ofSolution⟩

/-- Both calls of the entry method become one call with two statements. -/
theorem Solution.callGraph_exact_twofold : ∃ p r entry, (Program.build .twofold).1 = .ok p ∧
    (Analysis.solveWith ⟨p, ⟨.insensitive, none, false⟩, .object 1, .allocationSite⟩ []).result =
      .ok r ∧
    r.discovered = [⟨0⟩, ⟨1⟩, ⟨1⟩] ∧ (CallGraph.ofSolution r).methodIds = [⟨0⟩, ⟨1⟩] ∧
    (CallGraph.projections r).map (·.stmt) = [⟨2⟩, ⟨3⟩] ∧ (CallGraph.ofSolution r).calls.length = 1 ∧
    (CallGraph.ofSolution r).Merges r entry := by
  have hrun : ∃ p, (Program.build .twofold).1 = .ok p ∧ ∃ r,
      (Analysis.solveWith ⟨p, ⟨.insensitive, none, false⟩, .object 1, .allocationSite⟩ []).result =
        .ok r ∧
      r.discovered = [⟨0⟩, ⟨1⟩, ⟨1⟩] ∧ (CallGraph.ofSolution r).methodIds = [⟨0⟩, ⟨1⟩] ∧
      (CallGraph.projections r).map (·.stmt) = [⟨2⟩, ⟨3⟩] ∧
      (CallGraph.ofSolution r).calls.length = 1 := by
    decide +kernel
  obtain ⟨p, hp, r, hr, hdiscovered, hmethods, hstmts, hcalls⟩ := hrun
  obtain ⟨entry, -, hmerges⟩ := Solution.callGraph_exact hp hr
  exact ⟨p, r, entry, hp, hr, hdiscovered, hmethods, hstmts, hcalls, hmerges⟩

end PointsTo
