import PointsTo.Proofs.Program.Dispatch
import PointsTo.Proofs.Solver.Failures
import PointsTo.Solver.Session

/-! # Dispatch in a session

Whatever a program is asked for, it remembers nothing but answers that it would give again. So a dispatched
call reaches the same method at any time of a session, and that is the one that the declarative relation
describes.
-/

namespace PointsTo

/-- A class whose interface inherits a method from an interface above it, while the interface of its
superclass declares it. -/
def ProgramDef.defaults : ProgramDef :=
  ⟨none, [⟨"A", some "B", ["I"], false, false, [], []⟩, ⟨"B", none, ["J"], false, false, [], []⟩,
    ⟨"I", none, ["K"], true, false, [], []⟩,
    ⟨"J", none, [], true, false, [], [⟨"get", [], "V", false, false, false, [], []⟩]⟩,
    ⟨"K", none, [], true, false, [], [⟨"get", [], "V", false, false, false, [], []⟩]⟩]⟩

namespace Program

variable {d : ProgramDef} {p : Program}

/-- A question is answered as if nothing were remembered. -/
theorem ask_answers (p : Program) (q : Question) : Memo.Answers p (p.ask q) (p.answer q) := by
  cases q with
  | dispatch c s => exact (Memo.dispatch_answers p c s).map Answer.callee
  | callee receiver call => exact (Memo.resolveCallee_answers p receiver call).map Answer.callee
  | callees call => exact (Memo.resolveAll_answers p call).map Answer.callees
  | solution o sel model react extensions =>
      exact Memo.Answers.map (Checked.solve_gives ⟨p, o, sel, model⟩ react extensions) Answer.solution

/-- Whatever questions were asked before, what is remembered is right. -/
theorem remembered_valid (p : Program) (session : List Question) : (p.remembered session).Valid p :=
  List.foldlRecOn session _ Memo.valid_nil fun memo hmemo q _ => (ask_answers p q memo hmemo).2

/-- At any time of a session on a loaded program, a dispatched call reaches the method that the nearest
superclass offers, or else the first interface in breadth-first order, and it reaches nothing if there is
no such method. The method is that of an ancestor, and every question is answered as if it were the first
one. -/
theorem dispatch_exact (hp : (build d).1 = .ok p) (session : List Question) :
    (∀ c ∈ p.classIds, ∀ s, ∃ r, (Memo.dispatch p c s (p.remembered session)).1 = r ∧
      (∀ r', p.DispatchesTo c s r' ↔ r' = r) ∧
      ∀ m, r = some m → p.isSubtype c (p.methodAt m).owner = true) ∧
    (∀ c e, p.superclass? c = some e ↔ ⟨c, e, .extends⟩ ∈ p.links) ∧
    (∀ c e, e ∈ p.interfaces c ↔ ⟨c, e, .implements⟩ ∈ p.links) ∧
    (∀ c, (p.interfaces c).Pairwise (·.idx ≤ ·.idx)) ∧
    ∀ q, (p.ask q (p.remembered session)).1 = p.answer q := by
  have h := (build_underway hp).consistent (build_wellFormed hp)
  have hmemo := remembered_valid p session
  refine ⟨fun c hc s => ⟨p.dispatch? c s, (Memo.dispatch_answers p c s _ hmemo).1, fun r => ?_,
    fun m hm => ?_⟩, fun c e => superclass?_eq_some_iff hp, fun c e => mem_interfaces_iff,
    p.pairwise_interfaces, fun q => (ask_answers p q _ hmemo).1⟩
  · rw [dispatchesTo_iff h.link h.acyclic h.toDeclared (mem_classIds.1 hc), eq_comm]
  · obtain ⟨e, hinherits, hdeclared, -⟩ := inherits_of_lookup? hm
    obtain ⟨-, rfl, -⟩ := (h.method e s m).1 hdeclared
    rw [isSubtype, Bool.or_eq_true, decide_eq_true_eq, decide_eq_true_eq]
    exact Or.inr ((mem_allParents_iff h.link (mem_classIds.1 hc)).2 hinherits)

/-- With questions asked before, the class reaches the method of the interface of its superclass, its
own interface the one above it, and a method that is nowhere declared is not found. -/
theorem dispatch_exact_defaults : ∃ p, (build .defaults).1 = .ok p ∧
    p.DispatchesTo ⟨0⟩ ⟨"get", [], .void⟩ (some ⟨0⟩) ∧ p.DispatchesTo ⟨2⟩ ⟨"get", [], .void⟩ (some ⟨1⟩) ∧
    p.DispatchesTo ⟨1⟩ ⟨"set", [], .void⟩ none := by
  let session : List Question := [.dispatch ⟨2⟩ ⟨"get", [], .void⟩, .dispatch ⟨1⟩ ⟨"set", [], .void⟩]
  -- what the questions come to is computed; the theorem turns it into what they ask for
  have hrun : (match (build .defaults).1 with
      | .ok p => decide (p.classes.size = 6 ∧
          (Memo.dispatch p ⟨0⟩ ⟨"get", [], .void⟩ (p.remembered session)).1 = some ⟨0⟩ ∧
          (Memo.dispatch p ⟨2⟩ ⟨"get", [], .void⟩ (p.remembered session)).1 = some ⟨1⟩ ∧
          (Memo.dispatch p ⟨1⟩ ⟨"set", [], .void⟩ (p.remembered session)).1 = none)
      | .error _ => false) = true := by
    decide +kernel
  obtain ⟨p, hp⟩ : ∃ p, (build .defaults).1 = .ok p := exists_ok_of_toBool (by decide +kernel)
  rw [hp] at hrun
  obtain ⟨hsize, hA, hI, hB⟩ := of_decide_eq_true hrun
  obtain ⟨hexact, -⟩ := dispatch_exact hp session
  have hreach {c : ClassId} (hc : c.idx < 6) {s : Subsignature} {r : Option MethodId}
      (hr : (Memo.dispatch p c s (p.remembered session)).1 = r) : p.DispatchesTo c s r := by
    obtain ⟨r', hr', hiff, -⟩ := hexact c (mem_classIds.2 (hsize ▸ hc)) s
    exact (hiff r).2 (hr.symm.trans hr')
  exact ⟨p, hp, hreach (by decide) hA, hreach (by decide) hI, hreach (by decide) hB⟩

end Program

end PointsTo
