import PointsTo.Proofs.Solver.Grounding

/-! # Results of runs

What the result of a run without further extensions is about: its program, the method that the run started
from, and the facts that can be derived from there by the rules, all of them and no others. So what can be
said about the last step of a derivation can be said about results.
-/

namespace PointsTo

/-- The result holds what can be derived in an analysis that starts from the entry method. -/
structure Solution.Answers (r : Solution) (a : Analysis) (entry : MethodId) : Prop where
  wf : a.program.WellFormed
  entry_lt : entry.idx < a.program.methods.size
  program : r.program = a.program
  sound : Sound (a.theory wf entry) r.state
  holds_iff : ∀ q, r.Holds q ↔ a.Derives entry r.state.heap q
  /-- There is one entry, the entry method in the empty context. -/
  entries : ∃ i, r.state.calls.entries = #[i] ∧ r.state.IsMethod i ⟨[], entry⟩

variable {a : Analysis} {r : Solution} {entry : MethodId}

/-- The result of a run answers its analysis. -/
theorem Analysis.answers_of_solveWith (wf : a.program.WellFormed)
    (hmodel : a.heapModel = .allocationSite) (hr : (a.solveWith []).result = .ok r) :
    ∃ entry, a.entryMethod = .ok entry ∧ r.Answers a entry := by
  obtain ⟨entry, hentry, -, hprogram, hfinished, hgiven⟩ := finished_of_solveWith wf hmodel hr
  obtain ⟨entry', k, hentry', hk, -, hagrees⟩ := passes_of_solveWith wf hmodel hr
  obtain rfl : entry = entry' := Except.ok.inj (hentry.symm.trans hentry')
  obtain ⟨i, hentries, hi, -⟩ := (hk.running wf hmodel).started.entries
  refine ⟨entry, hentry, wf, entryMethod_lt wf hentry, hprogram, hfinished.sound, fun q => ?_, i, ?_, ?_⟩
  · exact ⟨hfinished.sound.admits, fun hq => hq.least (hfinished.closed wf hgiven)⟩
  · rw [← hentries]
    exact hagrees.entries
  · exact hagrees.extends.isMethod hi

namespace Solution.Answers

variable (h : r.Answers a entry)

include h

/-- Callees are reachable. -/
theorem callee {k : CallKind} {site : CsCallSite} {m : CsMethod} (hcall : r.Holds (.call k site m)) :
    r.Holds (.reach m) := by
  have hrule : Rule a.program a.selector r.state.heap.find?
      (Given a.program entry a.options.mockMainArgs) [.call k site m] (.reach m) := .callee
  refine (h.holds_iff _).2 (.intro hrule fun q hq => ?_)
  obtain rfl := List.mem_singleton.1 hq
  exact (h.holds_iff _).1 hcall

/-- Calls are made by statements of reachable methods. -/
theorem caller {k : CallKind} {site : CsCallSite} {m : CsMethod} (hcall : r.Holds (.call k site m)) :
    site.stmt ∈ a.program.stmtsOf (a.program.stmtAt site.stmt).method ∧
      r.Holds (.reach ⟨site.context, (a.program.stmtAt site.stmt).method⟩) := by
  obtain ⟨m, _, hstmt, -, -, hreach⟩ := Derivable.caller ((h.holds_iff _).1 hcall)
  obtain ⟨-, rfl⟩ := h.wf.mem_stmtsOf_iff.1 hstmt
  exact ⟨hstmt, (h.holds_iff _).2 hreach⟩

/-- A call leads to the method of a static call, or to what some object of its base variable has. -/
theorem callee_resolves {k : CallKind} {c : Context} {s : StmtId} {m : CsMethod} {call : Invoke}
    (hkind : (a.program.stmtAt s).kind = .invoke call) (hcall : r.Holds (.call k ⟨c, s⟩ m)) :
    call.binding = .static ∧ a.program.resolveCallee? none call = some m.method ∨
      ∃ base y, call.binding.base? = some base ∧ r.Holds (.pointsTo (.var c base) y) ∧
        a.program.resolveCallee? (some y.object.type) call = some m.method := by
  cases (h.holds_iff _).1 hcall with
  | intro rule premises =>
      cases rule with
      | given hgiven => cases hgiven
      | staticCall stmt kind binding target =>
          cases hkind.symm.trans kind
          exact Or.inl ⟨binding, target⟩
      | dispatch d =>
          cases hkind.symm.trans d.kind
          exact Or.inr ⟨_, _, d.base, (h.holds_iff _).2 (premises _ (by simp)), d.target⟩

/-- Reachable methods are methods of the program. -/
theorem reach_lt {m : CsMethod} (hreach : r.Holds (.reach m)) :
    m.method.idx < r.program.methods.size := by
  rw [h.program]
  exact (h.sound.inRange h.entry_lt ((h.holds_iff _).1 hreach)).2

/-- Whatever is pointed to is made of an object of the heap. -/
theorem object_mem {x : Place} {y : HeapObject} (hy : r.Holds (.pointsTo x y)) :
    y.object ∈ r.state.heap.objects := by
  obtain ⟨i, p, o, -, -, ⟨id, -, hid⟩, -⟩ := h.sound.holds_pointsTo_iff.1 hy
  exact Array.mem_of_getElem? hid

/-- A method is listed if it is reachable in some context. -/
theorem mem_reachableMethods_iff {m : MethodId} :
    m ∈ r.reachableMethods ↔ ∃ c, r.Holds (.reach ⟨c, m⟩) := by
  rw [Solution.mem_reachableMethods]
  exact and_iff_right_of_imp fun ⟨_, hc⟩ => h.reach_lt hc

/-- A callee is listed if the call site calls it in some context. -/
theorem mem_calleesOf_iff {s : StmtId} {m : MethodId} :
    m ∈ r.calleesOf s ↔ ∃ k c c', r.Holds (.call k ⟨c, s⟩ ⟨c', m⟩) := by
  rw [Solution.mem_calleesOf]
  exact and_iff_right_of_imp fun ⟨_, _, _, hcall⟩ => h.reach_lt (h.callee hcall)

end Solution.Answers

end PointsTo
