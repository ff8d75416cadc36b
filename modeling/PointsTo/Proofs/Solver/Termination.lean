import PointsTo.Proofs.Solver.Exactness
import PointsTo.Proofs.Solver.Measure
import Mathlib.Tactic.GCongr
import Mathlib.Tactic.Linarith

/-! # Runs end

The measure of the work that is left goes down with every step that finds something to do, so both
loops of a run end, from whatever state they are entered in. The measure of the first state is far
below the number of steps that the budget allows, so that the budget is never used up.
-/

namespace PointsTo

/-! ## Loops that end -/

/-- Steps keep the property, and make the measure smaller as long as the work is not done. -/
def Descends {σ : Type} (isDone : σ → Bool) (step : σ → σ) (P : σ → Prop) (μ : σ → Nat) : Prop :=
  ∀ s, P s → P (step s) ∧ (isDone s = false → μ (step s) < μ s)

namespace Descends

variable {σ : Type} {isDone : σ → Bool} {step : σ → σ} {P : σ → Prop} {μ : σ → Nat}
  (h : Descends isDone step P μ)

include h

/-- After some steps the work is done, or the measure has gone down with each of them. -/
theorem steps_done_or {s : σ} (hs : P s) (n : Nat) :
    isDone (steps isDone step n s) = true ∨ μ (steps isDone step n s) + n ≤ μ s := by
  induction n generalizing s with
  | zero => exact Or.inr (Nat.le_refl _)
  | succ n ih =>
      rw [steps]
      split
      · rename_i hdone
        exact Or.inl hdone
      · rename_i hbusy
        obtain ⟨hnext, hless⟩ := h s hs
        -- the remaining steps start from a smaller measure
        have hless := hless (by simpa using hbusy)
        refine (ih hnext).imp id fun hle => ?_
        omega

/-- A loop ends after finitely many steps. -/
theorem exists_steps_done {s : σ} (hs : P s) : ∃ n, isDone (steps isDone step n s) = true := by
  refine ⟨μ s + 1, (h.steps_done_or hs (μ s + 1)).resolve_right fun hle => ?_⟩
  omega

/-- Rounds end if all steps together outnumber the measure. -/
theorem rounds_done {s : σ} (hs : P s) {levels n : Nat} (hn : μ s + n ≤ n * 2 ^ levels) :
    -- each level doubles the steps, so the induction is on the levels, for every number of steps
    isDone (rounds isDone step levels n s) = true := by
  induction levels generalizing s n with
  | zero =>
      -- nothing is left to go down
      have hzero : μ s = 0 := by
        rw [pow_zero] at hn
        omega
      rw [rounds]
      refine Bool.eq_true_of_not_eq_false fun hbusy => ?_
      have hless := (h s hs).2 hbusy
      omega
  | succ levels ih =>
      rw [rounds]
      split
      · rename_i hdone
        exact hdone
      · have hnext : P (steps isDone step n s) := steps_induction (fun s hs => (h s hs).1) hs n
        -- a round that does not finish the work has made all its steps
        rcases h.steps_done_or hs n with hdone | hle
        · cases levels with
          | zero => exact hdone
          | succ levels => rwa [rounds, if_pos hdone]
        · refine ih hnext ?_
          rw [pow_succ, Nat.mul_comm _ 2, ← Nat.mul_assoc, Nat.mul_comm n 2] at hn
          omega

end Descends

/-! ## Machines of a run -/

section Runs

variable {a : Analysis} {wf : a.program.WellFormed} {entry : MethodId} {k : Machine Extension}

/-- Machines that a run without further extensions comes to: it begins with the entry method, makes
steps, and tells the extensions of its start once all methods are visited. -/
inductive Analysis.Passes (a : Analysis) (entry : MethodId) : Machine Extension → Prop where
  | start {s : State} (h : State.initial.Agrees s) : Passes a entry ⟨start entry s, a.options.stock⟩
  | step {k : Machine Extension} (h : Passes a entry k) :
      Passes a entry (a.step (Extension.react a.program a.options) k)
  | notify {k : Machine Extension} (h : Passes a entry k) (visited : isVisited k = true) :
      Passes a entry (k.notify (Extension.react a.program a.options) .started)

/-- The extensions of a machine are those of the options, and its state is one of a run. -/
structure Analysis.Running (a : Analysis) (wf : a.program.WellFormed) (entry : MethodId)
    (k : Machine Extension) : Prop where
  extensions : k.extensions = a.options.stock
  started : Started (a.theory wf entry) entry k.state

/-- Machines of a run are quiet. -/
theorem Analysis.Running.quiet (h : a.Running wf entry k) :
    Quiet (Extension.react a.program a.options) k.extensions := by
  rw [h.extensions]
  exact Extension.quiet_stock a.program a.options

/-- A step of a running machine is one of the solver. -/
theorem Analysis.Running.step (hmodel : a.heapModel = .allocationSite) (h : a.Running wf entry k) :
    a.Running wf entry (a.step (Extension.react a.program a.options) k) ∧
      StepTo (a.theory wf entry) k.state
        (a.step (Extension.react a.program a.options) k).state := by
  obtain ⟨hext, hstep⟩ := a.step_stepTo wf hmodel h.started.sound (h.quiet.tame _) rfl
  exact ⟨⟨hext.trans h.extensions, h.started.steps (.single hstep)⟩, hstep⟩

/-- Telling the extensions of the start pushes twice at most: the array of mock arguments, and its
element. -/
theorem Analysis.Running.notify (h : a.Running wf entry k) :
    a.Running wf entry (k.notify (Extension.react a.program a.options) .started) ∧
      Moves (a.theory wf entry) 2 k.state
        (k.notify (Extension.react a.program a.options) .started).state := by
  obtain ⟨t, ht, hmoves, -⟩ := a.notify_started h.started h.extensions
  rw [ht]
  exact ⟨⟨h.extensions, h.started.moves hmoves⟩, hmoves⟩

variable (wf) in
/-- Whatever a run passes is a machine of that run. -/
theorem Analysis.Passes.running (hmodel : a.heapModel = .allocationSite) (h : a.Passes entry k) :
    a.Running wf entry k := by
  induction h with
  | start h => exact ⟨rfl, a.started_theory wf h entry⟩
  | step _ ih => exact (ih.step hmodel).1
  | notify _ _ ih => exact ih.notify.1

/-- The measure goes down with every step that is not idle, whichever of the two loops it is in. -/
theorem Analysis.descends (hmodel : a.heapModel = .allocationSite)
    (hentry : entry.idx < a.program.methods.size) {isDone : Machine Extension → Bool}
    (hidle : ∀ k : Machine Extension, k.state.pending.toList = [] → k.state.work.toList = [] →
      isDone k = true) :
    Descends isDone (a.step (Extension.react a.program a.options)) (a.Running wf entry)
      fun k => k.state.potential a.program a.selector.bound := by
  intro k hk
  obtain ⟨hnext, hstep⟩ := hk.step hmodel
  refine ⟨hnext, fun hbusy => ?_⟩
  refine (hstep.potential_lt_or_idle hentry hk.started.sound).resolve_right ?_
  rintro ⟨-, hpending, hwork⟩
  rw [hidle k hpending hwork] at hbusy
  cases hbusy

/-- If nothing is left to be done, then all methods are visited. -/
theorem Analysis.isVisited_of_idle (k : Machine Extension) (hpending : k.state.pending.toList = [])
    (_ : k.state.work.toList = []) : isVisited k = true :=
  (Queue.isEmpty_eq_true_iff _).2 hpending

/-- If nothing is left to be done, then the work is done. -/
theorem Analysis.isDone_of_idle (k : Machine Extension) (hpending : k.state.pending.toList = [])
    (hwork : k.state.work.toList = []) : isDone k = true :=
  isDone_iff.2 ⟨hpending, hwork⟩

/-- The measure does not grow in a loop. -/
theorem Analysis.Running.advance (hmodel : a.heapModel = .allocationSite)
    (hentry : entry.idx < a.program.methods.size) (isDone : Machine Extension → Bool)
    (h : a.Running wf entry k) :
    a.Running wf entry (a.advance (Extension.react a.program a.options) isDone k) ∧
      (a.advance (Extension.react a.program a.options) isDone k).state.potential a.program
        a.selector.bound ≤ k.state.potential a.program a.selector.bound := by
  refine rounds_induction (P := fun k' => a.Running wf entry k' ∧
    k'.state.potential a.program a.selector.bound ≤ k.state.potential a.program a.selector.bound)
    ?_ ⟨h, Nat.le_refl _⟩ _ _
  rintro k' ⟨hk', hle⟩
  obtain ⟨hnext, hstep⟩ := hk'.step hmodel
  refine ⟨hnext, Nat.le_trans ?_ hle⟩
  rcases hstep.potential_lt_or_idle hentry hk'.started.sound with hless | ⟨hsame, -⟩
  · exact Nat.le_of_lt hless
  · rw [hsame]

/-- A loop is done before the budget is used up. -/
theorem Analysis.Running.advance_done (hmodel : a.heapModel = .allocationSite)
    (hentry : entry.idx < a.program.methods.size) {isDone : Machine Extension → Bool}
    (hidle : ∀ k : Machine Extension, k.state.pending.toList = [] → k.state.work.toList = [] →
      isDone k = true) (h : a.Running wf entry k)
    (hbudget : k.state.potential a.program a.selector.bound < 2 ^ a.budget) :
    isDone (a.advance (Extension.react a.program a.options) isDone k) = true := by
  refine (a.descends hmodel hentry hidle).rounds_done h ?_
  rwa [Nat.one_mul]

end Runs

/-! ## The budget -/

section Budget

variable {p : Program} {k : Nat}

/-- The number of contexts is at most exponential in their length. -/
theorem Program.contextBound_le (p : Program) (k : Nat) :
    p.contextBound k ≤ 2 ^ ((p.size + 3) * k) := by
  have hbase : 2 * p.stmts.size + p.classes.size + 3 ≤ 2 ^ (p.size + 3) := by
    have hpow : p.size + 2 < 2 ^ (p.size + 2) := Nat.lt_two_pow_self
    rw [pow_succ]
    simp only [size] at hpow ⊢
    omega
  rw [contextBound, pow_mul]
  exact Nat.pow_le_pow_left hbase k

/-- A number that is not below the bounds of all tables. -/
def Program.roof (p : Program) (k : Nat) : Nat := p.contextBound k * (p.size + 2) ^ 2

theorem Program.objectBound_le_roof : p.objectBound k ≤ p.roof k := by
  refine Nat.mul_le_mul_left _ ?_
  rw [pow_two, size]
  nlinarith

theorem Program.methodBound_le_roof : p.methodBound k ≤ p.roof k := by
  refine Nat.mul_le_mul_left _ ?_
  rw [pow_two, size]
  nlinarith

/-- The roof is above the number of pointers. -/
theorem Program.pointerBound_le_roof : p.pointerBound k ≤ p.roof k := by
  have hone := Nat.le_mul_of_pos_left p.fields.size (p.one_le_contextBound k)
  calc p.pointerBound k
      ≤ p.contextBound k * p.vars.size + p.contextBound k * p.fields.size +
          p.objectBound k * p.fields.size + p.objectBound k := by
        rw [pointerBound]
        omega
    _ = p.contextBound k *
          (p.vars.size + p.fields.size + (p.stmts.size + 2) * (p.fields.size + 1)) := by
        rw [objectBound]
        ring
    _ ≤ p.roof k := by
        refine Nat.mul_le_mul_left _ ?_
        rw [pow_two, size]
        nlinarith

/-- The roof is above the number of statements. -/
theorem Program.stmts_le_roof : p.stmts.size + 1 ≤ p.roof k := by
  have hone := Nat.le_mul_of_pos_left ((p.size + 2) ^ 2) (p.one_le_contextBound k)
  refine Nat.le_trans ?_ hone
  rw [pow_two, size]
  nlinarith

theorem Program.four_le_roof : 4 ≤ p.roof k := by
  have hone := Nat.le_mul_of_pos_left ((p.size + 2) ^ 2) (p.one_le_contextBound k)
  exact Nat.le_trans (Nat.pow_le_pow_left (Nat.le_add_left 2 p.size) 2) hone

/-- The budget is large. -/
theorem Program.roof_le (p : Program) (k : Nat) :
    4 * p.roof k ^ 3 ≤ 2 ^ (64 * (k + 2) * (p.size + 2)) := by
  have hcontexts := p.contextBound_le k
  have hsize : p.size + 2 ≤ 2 ^ (p.size + 2) := Nat.le_of_lt Nat.lt_two_pow_self
  calc 4 * p.roof k ^ 3
      ≤ 4 * (2 ^ ((p.size + 3) * k) * (2 ^ (p.size + 2)) ^ 2) ^ 3 := by
        rw [roof]
        gcongr
    _ = 2 ^ (2 + ((p.size + 3) * k + (p.size + 2) * 2) * 3) := by
        rw [← pow_mul, ← pow_add, ← pow_mul, pow_add]
        rfl
    _ ≤ 2 ^ (64 * (k + 2) * (p.size + 2)) := by
        refine Nat.pow_le_pow_right (by omega) ?_
        nlinarith

/-- A state with at most one method to visit is far from using up the budget. -/
theorem State.potential_lt_budget {s : State} (hwork : s.work.size = 0)
    (hpending : s.pending.size ≤ 1) :
    s.potential p k + 3 ≤ 2 ^ (64 * (k + 2) * (p.size + 2)) := by
  have hpointers := p.pointerBound_le_roof (k := k)
  have hobjects := p.objectBound_le_roof (k := k)
  have hmethods := p.methodBound_le_roof (k := k)
  have hstmts := p.stmts_le_roof (k := k)
  have hfour := p.four_le_roof (k := k)
  have hflow := s.flow.card_missing_le (p.pointerBound k)
  have hreach := s.calls.card_missing_le (p.methodBound k)
  have hsets := s.elements.card_missing_le (p.pointerBound k) (p.objectBound k)
  refine Nat.le_trans ?_ (p.roof_le k)
  -- each of the three counts is at most a product of bounds
  rw [potential, weight, hwork]
  calc 0 + (s.flow.missing (p.pointerBound k)).card +
          (p.stmts.size + 1) * (s.pending.size + (s.calls.missing (p.methodBound k)).card) +
          (p.pointerBound k + p.stmts.size) *
            (s.elements.missing (p.pointerBound k) (p.objectBound k)).card + 3
      ≤ 0 + p.roof k * p.roof k + p.roof k * (1 + p.roof k) +
          (p.roof k + p.roof k) * (p.roof k * p.roof k) + 3 := by
        have hflow' := hflow.trans (Nat.mul_le_mul hpointers hpointers)
        have hreach' := hreach.trans hmethods
        have hsets' := hsets.trans (Nat.mul_le_mul hpointers hobjects)
        gcongr
        omega
    _ ≤ 4 * p.roof k ^ 3 := by
        generalize p.roof k = y at hfour
        nlinarith [Nat.mul_le_mul hfour hfour, Nat.mul_le_mul_right (y * y) hfour]

end Budget

/-! ## Whole runs -/

section Whole

variable {a : Analysis} {entry : MethodId}

/-- At the start of a run the work list is empty, and only the entry method is to be visited. -/
theorem Analysis.size_start {s : State} (hs : State.initial.Agrees s) (entry : MethodId) :
    (start entry s).work.size = 0 ∧ (start entry s).pending.size ≤ 1 := by
  cases hintern : s.internMethod ⟨[], entry⟩ with
  | mk i t =>
      -- A new identifier changes nothing but the elements.
      have ht : t = { s with elements := t.elements } := by
        rw [State.internMethod] at hintern
        cases hintern
        rfl
      have hwork : t.work = .empty := by
        rw [ht]
        exact hs.work
      have hpending : t.pending = .empty := by
        rw [ht]
        exact hs.pending
      have hentries : t.calls.entries = #[] := by
        rw [ht]
        exact hs.entries
      rw [start_eq entry s hintern hentries, State.reachMethod]
      split
      · simp only [hwork, hpending]
        decide
      · simp only [hwork, hpending]
        exact ⟨rfl, Nat.le_refl 1⟩

/-- The main part of a run without further extensions gives a result. -/
theorem Analysis.exists_solveFrom (wf : a.program.WellFormed)
    (hmodel : a.heapModel = .allocationSite) (hentry : entry.idx < a.program.methods.size)
    {s : State} (hs : State.initial.Agrees s) :
    ∃ r, (a.solveFrom (Extension.react a.program a.options) entry a.options.stock s).result =
      .ok r := by
  obtain ⟨hwork, hpending⟩ := size_start hs entry
  have hbudget : (start entry s).potential a.program a.selector.bound + 3 ≤ 2 ^ a.budget :=
    State.potential_lt_budget hwork hpending
  have hfirst : a.Running wf entry ⟨start entry s, a.options.stock⟩ :=
    (Passes.start hs).running wf hmodel
  -- the first loop visits the methods that are reachable by static calls
  have hvisited := hfirst.advance_done hmodel hentry isVisited_of_idle
    (Nat.lt_of_lt_of_le (Nat.lt_add_of_pos_right (by omega)) hbudget)
  obtain ⟨hrunning, hle⟩ := hfirst.advance hmodel hentry isVisited
  simp only [solveFrom] at hle ⊢
  generalize a.advance _ isVisited _ = k₁ at *
  -- mocking the arguments pushes two facts
  obtain ⟨hstarted, hmoves⟩ := hrunning.notify
  have hmocked := hmoves.potential_le hentry hrunning.started.sound
  have hdone := hstarted.advance_done hmodel hentry isDone_of_idle (by omega)
  obtain ⟨hfinal, -⟩ := hstarted.advance hmodel hentry isDone
  generalize a.advance _ isDone _ = k₂ at *
  obtain ⟨t, ht, -⟩ := a.finish_agrees hfinal.quiet
  refine ⟨⟨a.program, t⟩, ?_⟩
  simpa [hvisited, hdone] using ht

/-- A run without further extensions gives a result whenever it has an entry method and all its static
calls have methods. -/
theorem Analysis.exists_solveWith (wf : a.program.WellFormed)
    (hmodel : a.heapModel = .allocationSite) (hentry : a.entryMethod = .ok entry)
    (hcheck : a.checkStaticCalls = .ok ()) : ∃ r, (a.solveWith []).result = .ok r := by
  have hlt := a.entryMethod_lt wf hentry
  simp only [solveWith, solve, hentry, hcheck, List.append_nil]
  exact a.exists_solveFrom wf hmodel hlt
    ((State.agrees_report _ _ _).trans (State.agrees_report _ _ _))

/-- Whether a run without further extensions gives a result does not depend on the selector. -/
theorem Analysis.exists_result_of_selector {p : Program} (wf : p.WellFormed) {o : Options}
    {sel : Selector} {r : Solution}
    (hr : (solveWith ⟨p, o, sel, .allocationSite⟩ []).result = .ok r) (sel' : Selector) :
    ∃ r', (solveWith ⟨p, o, sel', .allocationSite⟩ []).result = .ok r' := by
  obtain ⟨entry, hentry, hcheck, -⟩ :=
    finished_of_solveWith (a := ⟨p, o, sel, .allocationSite⟩) wf rfl hr
  exact exists_solveWith (a := ⟨p, o, sel', .allocationSite⟩) wf rfl hentry hcheck

/-- Runs of a loaded program without further extensions end. From every machine that such a run comes
to, the loop that visits methods ends, and so does the main loop, after which nothing is left to be
done; the budget is large enough for both. -/
theorem Analysis.run_ends {d : ProgramDef} {p : Program} (hp : (Program.build d).1 = .ok p)
    (o : Options) (sel : Selector) {entry : MethodId}
    (hentry : entryMethod ⟨p, o, sel, .allocationSite⟩ = .ok entry) :
    (∀ k, Passes ⟨p, o, sel, .allocationSite⟩ entry k →
      (∃ n, isVisited (steps isVisited
        (step ⟨p, o, sel, .allocationSite⟩ (Extension.react p o)) n k) = true) ∧
      ∃ n, isDone (steps isDone
        (step ⟨p, o, sel, .allocationSite⟩ (Extension.react p o)) n k) = true) ∧
    (checkStaticCalls ⟨p, o, sel, .allocationSite⟩ = .ok () →
      ∃ r, (solveWith ⟨p, o, sel, .allocationSite⟩ []).result = .ok r) := by
  have wf := Program.build_wellFormed hp
  have hlt := entryMethod_lt (a := ⟨p, o, sel, .allocationSite⟩) wf hentry
  refine ⟨fun k hk => ?_, exists_solveWith wf rfl hentry⟩
  have hrunning := hk.running wf rfl
  exact ⟨(descends rfl hlt isVisited_of_idle).exists_steps_done hrunning,
    (descends rfl hlt isDone_of_idle).exists_steps_done hrunning⟩

/-- The run of the sample ends, step by step and within its budget. -/
theorem Analysis.run_ends_sample : ∃ p entry, (Program.build .sample).1 = .ok p ∧
    entryMethod ⟨p, ⟨.insensitive, none, true⟩, .object 1, .allocationSite⟩ = .ok entry ∧
    (∃ n, isDone (steps isDone (step ⟨p, ⟨.insensitive, none, true⟩, .object 1, .allocationSite⟩
      (Extension.react p ⟨.insensitive, none, true⟩)) n
      ⟨start entry .initial, [.mainArgs]⟩) = true) ∧
    ∃ r, (solveWith ⟨p, ⟨.insensitive, none, true⟩, .object 1, .allocationSite⟩ []).result =
      .ok r := by
  obtain ⟨p, r, hp, hr⟩ := ProgramDef.sample_solved true
  obtain ⟨entry, hentry, hcheck, -⟩ := finished_of_solveWith (Program.build_wellFormed hp) rfl hr
  obtain ⟨hends, hok⟩ := run_ends hp ⟨.insensitive, none, true⟩ (.object 1) hentry
  exact ⟨p, entry, hp, hentry,
    (hends _ (.start (State.Agrees.refl _))).2, hok hcheck⟩

end Whole

end PointsTo
