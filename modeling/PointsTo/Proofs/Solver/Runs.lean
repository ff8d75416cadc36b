import PointsTo.Proofs.Solver.Start
import PointsTo.Proofs.Program.Loading

/-! # Runs of the solver

A run is a sequence of steps, so whatever every step keeps holds at the end of a run. A run without
further extensions that gives a result ends in a finished state, in which the given facts hold.
-/

namespace PointsTo

/-! ## Loops -/

section Loops

variable {σ : Type} {isDone : σ → Bool} {step : σ → σ} {P : σ → Prop}

/-- What a step keeps is kept by a loop. -/
theorem steps_induction (h : ∀ s, P s → P (step s)) {s : σ} (hs : P s) (n : Nat) :
    P (steps isDone step n s) := by
  induction n generalizing s with
  | zero => exact hs
  | succ n ih =>
      rw [steps]
      split
      · exact hs
      · exact ih (h s hs)

/-- Rounds keep what a step keeps. -/
theorem rounds_induction (h : ∀ s, P s → P (step s)) {s : σ} (hs : P s) (levels n : Nat) :
    P (rounds isDone step levels n s) := by
  induction levels generalizing s n with
  | zero => exact hs
  | succ levels ih =>
      rw [rounds]
      split
      · exact hs
      · exact ih (steps_induction h hs n) (2 * n)

end Loops

section Morphisms

variable {σ τ : Type} {f : σ → τ} {isDone : σ → Bool} {isDone' : τ → Bool} {step : σ → σ}
  {step' : τ → τ} (hdone : ∀ x, isDone' (f x) = isDone x) (hstep : ∀ x, f (step x) = step' (f x))

include hdone hstep

/-- A map that commutes with the step, and with the test for the end, commutes with a number of steps.
-/
theorem steps_hom (n : Nat) (x : σ) : f (steps isDone step n x) = steps isDone' step' n (f x) := by
  induction n generalizing x with
  | zero => rfl
  | succ n ih =>
      rw [steps, steps, hdone]
      split
      · rfl
      · rw [ih, hstep]

/-- It commutes with rounds of steps, too. -/
theorem rounds_hom (levels n : Nat) (x : σ) :
    f (rounds isDone step levels n x) = rounds isDone' step' levels n (f x) := by
  induction levels generalizing n x with
  | zero => rfl
  | succ levels ih =>
      rw [rounds, rounds, hdone]
      split
      · rfl
      · rw [ih, steps_hom hdone hstep]

end Morphisms

/-- Two loops are the same if their steps are the same wherever the first one comes to. -/
theorem rounds_congr {σ : Type} {isDone : σ → Bool} {step step' : σ → σ} {P : σ → Prop}
    (hkeep : ∀ s, P s → P (step s)) (hstep : ∀ s, P s → step s = step' s) {s : σ} (hs : P s)
    (levels n : Nat) : rounds isDone step levels n s = rounds isDone step' levels n s := by
  -- both are the loop over the states of which `P` holds
  have hloop {g : σ → σ} (hg : ∀ x : { s // P s }, step x.1 = g x.1) :
      (rounds (fun x : { s // P s } => isDone x.1) (fun x => ⟨step x.1, hkeep x.1 x.2⟩) levels n
        ⟨s, hs⟩).1 = rounds isDone g levels n s :=
    rounds_hom (f := Subtype.val) (fun _ => rfl) hg levels n ⟨s, hs⟩
  exact (hloop fun _ => rfl).symm.trans (hloop fun x => hstep x.1 x.2)

/-! ## Sequences of steps -/

section Steps

variable {a : Analysis} {given : Fact → Prop} {T : Theory a given} {π : Type} {react : Reaction π}
  {s t : State}

/-- A step forgets nothing. -/
theorem StepTo.extends (h : StepTo T s t) : s.Extends t := by
  cases h with
  | @visit j m rest _ _ _ moves _ =>
      have hext : s.Extends { s with pending := rest } := { State.Extends.refl s with }
      exact hext.trans moves.extends
  | fact absorbs moves _ => exact absorbs.extends.trans moves.extends
  | idle => exact State.Extends.refl s

/-- A step adds no entry method. -/
theorem StepTo.entries (h : StepTo T s t) : t.calls.entries = s.calls.entries := by
  cases h with
  | visit _ _ moves _ => exact moves.entries
  | fact absorbs moves _ =>
      rw [moves.entries]
      obtain ⟨_, _, _, rfl⟩ := absorbs.shape
      rfl
  | idle => rfl

/-- A sequence of steps. -/
abbrev StepsTo (T : Theory a given) : State → State → Prop := Relation.ReflTransGen (StepTo T)

/-- Steps keep a state sound. -/
theorem StepsTo.sound (h : StepsTo T s t) (hs : Sound T s) : Sound T t := by
  induction h with
  | refl => exact hs
  | tail _ hstep ih => exact hstep.sound ih

/-- Steps leave nothing open that was not open before. -/
theorem StepsTo.saturated (h : StepsTo T s t) (hs : Sound T s)
    (hsat : Saturated a s (fun _ => False) fun _ _ => False) :
    Saturated a t (fun _ => False) fun _ _ => False := by
  induction h with
  | refl => exact hsat
  | tail hrest hstep ih => exact hstep.saturated (StepsTo.sound hrest hs) ih

/-- Steps forget nothing. -/
theorem StepsTo.extends (h : StepsTo T s t) : s.Extends t := by
  induction h with
  | refl => exact State.Extends.refl s
  | tail _ hstep ih => exact ih.trans hstep.extends

/-- Steps add no entry method. -/
theorem StepsTo.entries (h : StepsTo T s t) : t.calls.entries = s.calls.entries := by
  induction h with
  | refl => rfl
  | tail _ hstep ih => exact hstep.entries.trans ih

/-- The main loop makes steps. -/
theorem Analysis.advance_stepsTo (wf : a.program.WellFormed)
    (hmodel : a.heapModel = .allocationSite) (isDone : Machine π → Bool) {k : Machine π}
    (hs : Sound T k.state) {E : List π → State → Prop} (htame : Tame T react E)
    (hE : E k.extensions k.state) :
    E (a.advance react isDone k).extensions (a.advance react isDone k).state ∧
      StepsTo T k.state (a.advance react isDone k).state := by
  refine rounds_induction (P := fun k' : Machine π =>
    E k'.extensions k'.state ∧ StepsTo T k.state k'.state) ?_ ⟨hE, .refl⟩ _ _
  rintro k' ⟨hE', hsteps⟩
  obtain ⟨hE'', hstep⟩ := a.step_stepTo wf hmodel (StepsTo.sound hsteps hs) htame hE'
  exact ⟨hE'', hsteps.tail hstep⟩

/-- What was so at the start stays so during the steps. -/
theorem Started.steps {entry : MethodId} (h : Started T entry s) (hst : StepsTo T s t) :
    Started T entry t := by
  obtain ⟨i, hentries, hi, hmem⟩ := h.entries
  have hext := StepsTo.extends hst
  exact ⟨hst.sound h.sound, hst.saturated h.sound h.saturated, i, hst.entries.trans hentries,
    hext.isMethod hi, hext.reachable i hmem⟩

/-- It stays so when extensions are told something and only make moves. -/
theorem Started.moves {entry : MethodId} (h : Started T entry s) {n : Nat} (hst : Moves T n s t) :
    Started T entry t := by
  obtain ⟨i, hentries, hi, hmem⟩ := h.entries
  have hext := hst.extends
  exact ⟨hst.sound h.sound, h.saturated.evolve h.sound hst.evolves, i, hst.entries.trans hentries,
    hext.isMethod hi, hext.reachable i hmem⟩

end Steps

/-! ## Runs without further extensions -/

/-- The extensions of a run to which none are added. -/
def Options.stock (o : Options) : List Extension := if o.mockMainArgs then [.mainArgs] else []

/-- The extensions of the options react to nothing but the start. -/
theorem Extension.quiet_stock (p : Program) (o : Options) : Quiet (react p o) o.stock := by
  intro e he n hn
  unfold Options.stock at he
  split at he
  · rw [List.mem_singleton] at he
    subst he
    cases n with
    | started => exact absurd rfl hn
    | _ => rfl
  · cases he

section Plain

variable {a : Analysis} {wf : a.program.WellFormed} {entry : MethodId}

/-- The only entry method is the one whose arguments are mocked. -/
theorem Extension.run_mockEntries {p : Program} {s : State} {i : CsMethodId} {m : CsMethod}
    (hentries : s.calls.entries = #[i]) (hi : s.IsMethod i m) {arrivals arrivals' : List Extension}
    {t : State} (hrun : (mockArguments p m).run s arrivals = ((), t, arrivals')) :
    (mockEntries p).run s arrivals = ((), t, arrivals') := by
  simp only [mockEntries, Script.run, hentries]
  change ((mockArguments p (s.elements.method i)).bind fun _ => .done ()).run s arrivals = _
  rw [Script.run_bind, hi.method, hrun]
  rfl

/-- The extensions of the options answer the notice of the start by mocking the arguments of the entry
method, if that is asked for. -/
theorem Analysis.notify_mocking {k : Machine Extension} (hext : k.extensions = a.options.stock)
    (hmock : a.options.mockMainArgs = true) {i : CsMethodId} {m : CsMethod}
    (hentries : k.state.calls.entries = #[i]) (hi : k.state.IsMethod i m) {t : State}
    (hrun : (Extension.mockArguments a.program m).run k.state [] = ((), t, [])) :
    k.notify (Extension.react a.program a.options) .started = ⟨t, k.extensions⟩ := by
  rw [Options.stock, if_pos hmock] at hext
  have hentry := Extension.run_mockEntries hentries hi hrun
  have hreact : ((Extension.react a.program a.options .started .mainArgs).run k.state []) =
      (.mainArgs, t, []) := by
    change ((Extension.mockEntries a.program).bind fun _ =>
      .done Extension.mainArgs).run k.state [] = _
    rw [Script.run_bind, hentry]
    rfl
  simp [Machine.notify, hext, Machine.round, hreact]

/-- Without mock arguments, the notice of the start changes nothing. -/
theorem Analysis.notify_not_mocking {k : Machine Extension} (hext : k.extensions = a.options.stock)
    (hmock : ¬a.options.mockMainArgs = true) :
    k.notify (Extension.react a.program a.options) .started = k := by
  rw [Options.stock, if_neg hmock] at hext
  cases k
  cases hext
  rfl

/-- At the start the arguments of the entry method are mocked, if that is asked for. -/
theorem Analysis.notify_started {k : Machine Extension}
    (hk : Started (a.theory wf entry) entry k.state) (hext : k.extensions = a.options.stock) :
    ∃ t, k.notify (Extension.react a.program a.options) .started = ⟨t, k.extensions⟩ ∧
      Moves (a.theory wf entry) 2 k.state t ∧
      (a.options.mockMainArgs = true → t.Mocks a.program entry) := by
  by_cases hmock : a.options.mockMainArgs = true
  · obtain ⟨i, hentries, hi, -⟩ := hk.entries
    obtain ⟨t, hrun, hmoves, hmocks⟩ := a.moves_mockArguments wf hmock hk.sound []
    exact ⟨t, a.notify_mocking hext hmock hentries hi hrun, hmoves, fun _ => hmocks⟩
  · exact ⟨k.state, a.notify_not_mocking hext hmock, .refl _ _, fun h => absurd h hmock⟩

theorem State.agrees_log (s : State) (log : Log) : s.Agrees { s with log := log } :=
  ⟨rfl, rfl, rfl, rfl, rfl, rfl, rfl, rfl, rfl, rfl⟩

/-- At the end of a run the extensions are told so. Before and after that, something is reported. -/
theorem Analysis.finish_result {π : Type} (a : Analysis) (react : Reaction π) (k : Machine π) :
    ∃ before after, (a.finish react k).result = .ok ⟨a.program,
      { (Machine.notify react .finished ⟨{ k.state with log := before }, k.extensions⟩).state with
        log := after }⟩ := by
  unfold finish
  generalize hk : k.modify _ = k'
  refine ⟨k'.state.log, ?_⟩
  -- the report before the notice is the only change of the state
  have hreport : (⟨{ k.state with log := k'.state.log }, k.extensions⟩ : Machine π) = k' := by
    rw [← hk]
    rfl
  rw [hreport]
  dsimp only
  split
  · exact ⟨_, rfl⟩
  · exact ⟨_, rfl⟩

/-- If nobody listens, the end of a run changes nothing that matters. -/
theorem Analysis.finish_agrees {π : Type} {react : Reaction π} {k : Machine π}
    (hq : Quiet react k.extensions) :
    ∃ t, (a.finish react k).result = .ok ⟨a.program, t⟩ ∧ k.state.Agrees t := by
  obtain ⟨before, after, hresult⟩ := a.finish_result react k
  rw [Machine.notify_of_quiet (m := ⟨{ k.state with log := before }, k.extensions⟩) hq
    Notice.noConfusion] at hresult
  exact ⟨_, hresult, (k.state.agrees_log before).trans (State.agrees_log _ after)⟩

/-- A finished state stays finished when something is reported. -/
theorem Finished.agrees {given : Fact → Prop} {T : Theory a given} {s t : State}
    (h : Finished T s) (hst : s.Agrees t) : Finished T t where
  sound := (Move.silent hst).sound h.sound
  saturated := h.saturated.evolve h.sound (hst.evolves _)
  pending := by rw [hst.pending, h.pending]
  work := by rw [hst.work, h.work]

/-- In a finished state that extends one with the given facts on their way, they have arrived. -/
theorem Finished.given {s : State} (h : Finished (a.theory wf entry) s)
    (hentry : ∃ i, s.IsMethod i ⟨[], entry⟩ ∧ i ∈ s.calls.reachable)
    (hmocks : a.options.mockMainArgs = true → s.Mocks a.program entry) (q : Fact)
    (hq : Given a.program entry a.options.mockMainArgs q) : s.Holds q := by
  -- the entry method was reachable at the start; what was pushed then was taken from the work list
  -- since
  cases hq with
  | entry =>
      obtain ⟨i, hi, hmem⟩ := hentry
      exact h.sound.holds_reach_iff.2 ⟨i, hmem, hi⟩
  | array hmock arg =>
      obtain ⟨i, j, hi, -, hparam, -⟩ := hmocks hmock _ _ _ arg
      exact h.holds_of_promises hparam (.var _ _) hi
  | element hmock arg =>
      obtain ⟨i, j, hi, hj, -, hslot⟩ := hmocks hmock _ _ _ arg
      exact h.holds_of_promises hslot (.arrayIndex hi) hj

/-- The run is done when no method waits for its visit and the work list is empty. -/
theorem Analysis.isDone_iff {π : Type} {k : Machine π} :
    isDone k = true ↔ k.state.pending.toList = [] ∧ k.state.work.toList = [] := by
  simp [isDone]

/-- A run starts from the first state with the entry method reachable. -/
theorem Analysis.started_first {given : Fact → Prop} (T : Theory a given) {s : State}
    (hs : State.initial.Agrees s) (hentry : T.Admits s.heap (.reach ⟨[], entry⟩)) :
    Started T entry (start entry s) := by
  have hmove : Move T State.initial s := .silent hs
  have hinitial := Sound.initial T
  exact started_start (hmove.sound hinitial)
    ((Saturated.initial a).evolve hinitial hmove.evolves) hs.entries hentry

variable (wf) in
/-- The first state of a run without further extensions. -/
theorem Analysis.started_theory {s : State} (hs : State.initial.Agrees s) (entry : MethodId) :
    Started (a.theory wf entry) entry (start entry s) :=
  started_first _ hs ((a.theory wf entry).closed _ [] _ (.given .entry) (by simp))

variable (wf) in
/-- The main part of a run that gives a result ends in a finished state with the given facts. -/
theorem Analysis.finished_of_solveFrom (hmodel : a.heapModel = .allocationSite) {s : State}
    (hs : State.initial.Agrees s) {r : Solution}
    (hr : (a.solveFrom (Extension.react a.program a.options) entry a.options.stock s).result =
      .ok r) :
    r.program = a.program ∧ Finished (a.theory wf entry) r.state ∧
      ∀ q, Given a.program entry a.options.mockMainArgs q → r.state.Holds q := by
  have hquiet := Extension.quiet_stock a.program a.options
  have hfirst := a.started_theory wf hs entry
  simp only [solveFrom] at hr
  obtain ⟨hext₁, hsteps₁⟩ := a.advance_stepsTo wf hmodel isVisited (k := ⟨start entry s, a.options.stock⟩)
    hfirst.sound (hquiet.tame _) rfl
  generalize a.advance _ isVisited _ = k₁ at *
  -- the methods that static calls reach are visited before the arguments are mocked
  have hstarted₁ := hfirst.steps hsteps₁
  have hquiet₁ : Quiet (Extension.react a.program a.options) k₁.extensions := by rwa [hext₁]
  split at hr
  · cases hr
  -- the extensions of the options are told of the start, and mock the arguments if they are to
  · obtain ⟨t, hnotify, hmoves, hmocks⟩ := a.notify_started hstarted₁ hext₁
    have hstarted₂ := hstarted₁.moves hmoves
    obtain ⟨hext₃, hsteps₃⟩ := a.advance_stepsTo wf hmodel isDone (k := ⟨t, k₁.extensions⟩)
      hstarted₂.sound (hquiet₁.tame _) rfl
    rw [hnotify] at hr
    generalize a.advance _ isDone _ = k₃ at *
    have hstarted₃ := hstarted₂.steps hsteps₃
    split at hr
    · cases hr
    · rename_i hdone
      obtain ⟨hpending, hwork⟩ := isDone_iff.1 (by simpa using hdone)
      have hfinished : Finished (a.theory wf entry) k₃.state :=
        ⟨hstarted₃.sound, hstarted₃.saturated, hpending, hwork⟩
      have hquiet₃ : Quiet (Extension.react a.program a.options) k₃.extensions := by rwa [hext₃]
      obtain ⟨u, hu, hagrees⟩ := a.finish_agrees hquiet₃
      cases hu.symm.trans hr
      -- the reports at the end change nothing, and what was given at the start is still there
      have hfinal := hfinished.agrees hagrees
      obtain ⟨i, -, hi, hmem⟩ := hstarted₃.entries
      refine ⟨rfl, hfinal, hfinal.given ⟨i, ?_, ?_⟩ fun hmock => ?_⟩
      · exact hagrees.extends.isMethod hi
      · exact hagrees.extends.reachable i hmem
      · exact ((hmocks hmock).mono (StepsTo.extends hsteps₃)).mono hagrees.extends

variable (wf) in
/-- A run that gives a result ends in a finished state with the given facts. -/
theorem Analysis.finished_of_solveWith (hmodel : a.heapModel = .allocationSite) {r : Solution}
    (hr : (a.solveWith []).result = .ok r) :
    ∃ entry, a.entryMethod = .ok entry ∧ a.checkStaticCalls = .ok () ∧ r.program = a.program ∧
      Finished (a.theory wf entry) r.state ∧
      ∀ q, Given a.program entry a.options.mockMainArgs q → r.state.Holds q := by
  unfold solveWith solve at hr
  rw [List.append_nil] at hr
  split at hr
  · cases hr
  · rename_i entry hentry
    split at hr
    · cases hr
    · rename_i hcheck
      refine ⟨entry, hentry, hcheck, a.finished_of_solveFrom wf hmodel ?_ hr⟩
      exact (State.agrees_report _ _ _).trans (State.agrees_report _ _ _)

end Plain

end PointsTo
