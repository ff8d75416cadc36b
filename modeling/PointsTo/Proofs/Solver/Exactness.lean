import PointsTo.Proofs.Result.Queries
import PointsTo.Proofs.Solver.Runs

/-! # Solutions are exact

The solution of a loaded program satisfies every constraint of the program, and it holds nothing but
what can be derived from them. Together the two say that a run computes the least set of facts that is
closed under the rules.
-/

namespace PointsTo

/-- The calls that are checked are all calls of the program that are bound without a receiver. -/
theorem Analysis.mem_staticCalls_iff {p : Program} {s : StmtId} {call : Invoke} :
    (s, call) ∈ staticCalls p ↔
      (p.stmtAt s).kind = .invoke call ∧ call.binding.kind.isStaticallyBound = true := by
  unfold staticCalls
  rw [List.mem_filterMap]
  constructor
  · rintro ⟨t, -, ht⟩
    cases hkind : (p.stmtAt t).kind with
    | invoke call' =>
        simp only [Stmt.invoke?, hkind, Option.ite_none_right_eq_some, Option.some.injEq,
          Prod.mk.injEq] at ht
        obtain ⟨hbound, rfl, rfl⟩ := ht
        exact ⟨hkind, hbound⟩
    | _ => simp [Stmt.invoke?, hkind] at ht
  · rintro ⟨hkind, hbound⟩
    have hlt : s.idx < p.stmts.size := by
      refine Program.lt_size_of_kind ?_
      rw [hkind]
      exact StmtKind.noConfusion
    refine ⟨s, List.mem_map.2 ⟨s.idx, List.mem_range.2 hlt, rfl⟩, ?_⟩
    simp only [Stmt.invoke?, hkind, hbound, if_true]

/-- Every statically bound call of a program that passes the check has a method. -/
theorem Analysis.resolved_of_check {a : Analysis} (h : a.checkStaticCalls = .ok ()) {s : StmtId}
    {call : Invoke} (hkind : (a.program.stmtAt s).kind = .invoke call)
    (hbound : call.binding.kind.isStaticallyBound = true) :
    ∃ m, a.program.resolveCallee? none call = some m := by
  unfold checkStaticCalls at h
  split at h
  · cases h
  · rename_i hnone
    have hsome := List.find?_eq_none.1 hnone (s, call) (mem_staticCalls_iff.2 ⟨hkind, hbound⟩)
    cases hr : a.program.resolveCallee? none call with
    | none => simp [hr] at hsome
    | some m => exact ⟨m, rfl⟩

/-- A program passes the check exactly if every statically bound call has a method. -/
theorem Analysis.checkStaticCalls_ok_iff {a : Analysis} :
    a.checkStaticCalls = .ok () ↔ ∀ s call, (a.program.stmtAt s).kind = .invoke call →
      call.binding.kind.isStaticallyBound = true → ∃ m, a.program.resolveCallee? none call = some m := by
  refine ⟨fun h s call => resolved_of_check h, fun h => ?_⟩
  unfold checkStaticCalls
  split
  · rename_i s call hfind
    have hmem := List.mem_of_find?_eq_some hfind
    have hnone := List.find?_some hfind
    obtain ⟨hkind, hbound⟩ := mem_staticCalls_iff.1 hmem
    obtain ⟨m, hm⟩ := h s call hkind hbound
    simp [hm] at hnone
  · rfl

/-- A result that is none of the errors is a value. -/
theorem exists_ok_of_toBool {ε α : Type} {x : Except ε α} (h : x.toBool = true) :
    ∃ v, x = .ok v := by
  cases x with
  | error e => cases h
  | ok v => exact ⟨v, rfl⟩

/-- Whether a result has a property is decided on the result. -/
instance decidableExistsOk {ε α : Type} {x : Except ε α} {P : α → Prop} [DecidablePred P] :
    Decidable (∃ v, x = .ok v ∧ P v) :=
  match x with
  | .ok v => decidable_of_iff (P v) (by simp)
  | .error _ => isFalse (by simp)

/-- A class whose objects hold each other, with an entry method that links some of them and calls
one. -/
def ProgramDef.sample : ProgramDef :=
  ⟨none, [⟨"A", none, [], false, false, [⟨"next", "LA;", false⟩], [
    ⟨"main", [⟨"args", "[LA;"⟩], "V", true, false, false, [⟨"x", "LA;"⟩, ⟨"y", "LA;"⟩], [
      .new "x" "LA;",
      .loadArray "y" "args",
      .storeField (some "x") "LA;->next" "y",
      .storeField (some "x") "LA;->next" "x",
      .invoke .virtual (some "x") "LA;->rest()LA;" [] (some "y")]⟩,
    ⟨"rest", [], "LA;", false, false, false, [⟨"z", "LA;"⟩], [
      .loadField "z" (some "this") "LA;->next",
      .ret (some "z")]⟩]⟩]⟩

/-- The sample is loaded and analysed, with a context for each receiver, with or without mock
arguments. -/
theorem ProgramDef.sample_solved (mock : Bool) : ∃ p r, (Program.build sample).1 = .ok p ∧
    (Analysis.solveWith ⟨p, ⟨.insensitive, none, mock⟩, .object 1, .allocationSite⟩ []).result =
      .ok r := by
  have hrun : (match (Program.build sample).1 with
      | .ok p => (Analysis.solveWith ⟨p, ⟨.insensitive, none, mock⟩, .object 1,
          .allocationSite⟩ []).result.toBool
      | .error _ => false) = true := by
    cases mock <;> decide +kernel
  obtain ⟨p, hp⟩ : ∃ p, (Program.build sample).1 = .ok p := exists_ok_of_toBool (by decide +kernel)
  rw [hp] at hrun
  obtain ⟨r, hr⟩ := exists_ok_of_toBool hrun
  exact ⟨p, r, hp, hr⟩

section Exact

variable {d : ProgramDef} {p : Program} {o : Options} {sel : Selector} {r : Solution}

/-- The solution of a loaded program is closed under the rules of the program: what it holds satisfies
every constraint, with the contexts that the selector computes. Objects that it holds have names, so
no call on them is left out, and every static call has a method. -/
theorem Solution.closed_under_rules (hp : (Program.build d).1 = .ok p)
    (hr : (Analysis.solveWith ⟨p, o, sel, .allocationSite⟩ []).result = .ok r) :
    ∃ entry, Analysis.entryMethod ⟨p, o, sel, .allocationSite⟩ = .ok entry ∧
      Closed (Rule p sel r.state.heap.find? (Given p entry o.mockMainArgs)) r.Holds ∧
      (∀ x y, r.Holds (.pointsTo x y) → ∃ i, r.state.heap.find? y.object.origin = some i) ∧
      ∀ s call, (p.stmtAt s).kind = .invoke call → call.binding = .static →
        ∃ m, p.resolveCallee? none call = some m := by
  have wf := Program.build_wellFormed hp
  obtain ⟨entry, hentry, hcheck, -, hfinished, hgiven⟩ :=
    Analysis.finished_of_solveWith (a := ⟨p, o, sel, .allocationSite⟩) wf rfl hr
  refine ⟨entry, hentry, hfinished.closed wf hgiven, fun x y hxy => hfinished.sound.named hxy,
    fun s call hkind hstatic => Analysis.resolved_of_check hcheck hkind ?_⟩
  rw [hstatic]
  rfl

/-- The result of the sample is closed under the rules. -/
theorem Solution.closed_under_rules_sample : ∃ p r entry,
    (Program.build .sample).1 = .ok p ∧
    (Analysis.solveWith ⟨p, ⟨.insensitive, none, true⟩, .object 1, .allocationSite⟩ []).result =
      .ok r ∧
    Closed (Rule p (.object 1) r.state.heap.find? (Given p entry true)) r.Holds := by
  obtain ⟨p, r, hp, hr⟩ := ProgramDef.sample_solved true
  obtain ⟨entry, -, hclosed, -⟩ := Solution.closed_under_rules hp hr
  exact ⟨p, r, entry, hp, hr, hclosed⟩

/-- Whatever the solution of a loaded program holds has a finite derivation by the rules, hence is in
every set of facts that is closed under them. -/
theorem Solution.derivable_of_holds (hp : (Program.build d).1 = .ok p)
    (hr : (Analysis.solveWith ⟨p, o, sel, .allocationSite⟩ []).result = .ok r) :
    ∃ entry, Analysis.entryMethod ⟨p, o, sel, .allocationSite⟩ = .ok entry ∧
      ∀ q, r.Holds q →
        Derivable (Rule p sel r.state.heap.find? (Given p entry o.mockMainArgs)) q ∧
        ∀ F, Closed (Rule p sel r.state.heap.find? (Given p entry o.mockMainArgs)) F → F q := by
  have wf := Program.build_wellFormed hp
  obtain ⟨entry, hentry, -, -, hfinished, -⟩ :=
    Analysis.finished_of_solveWith (a := ⟨p, o, sel, .allocationSite⟩) wf rfl hr
  refine ⟨entry, hentry, fun q hq => ?_⟩
  have hq' : Derivable _ q := hfinished.sound.admits hq
  exact ⟨hq', fun F hF => hq'.least hF⟩

/-- Whatever holds in the result of the sample has a derivation. -/
theorem Solution.derivable_of_holds_sample : ∃ p r entry,
    (Program.build .sample).1 = .ok p ∧
    (Analysis.solveWith ⟨p, ⟨.insensitive, none, true⟩, .object 1, .allocationSite⟩ []).result =
      .ok r ∧
    ∀ q, r.Holds q →
      Derivable (Rule p (.object 1) r.state.heap.find? (Given p entry true)) q := by
  obtain ⟨p, r, hp, hr⟩ := ProgramDef.sample_solved true
  obtain ⟨entry, -, hderivable⟩ := Solution.derivable_of_holds hp hr
  exact ⟨p, r, entry, hp, hr, fun q hq => (hderivable q hq).1⟩

end Exact

end PointsTo
