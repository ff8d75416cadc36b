import PointsTo.Proofs.Solver.Steps

/-! # Saturation

Nothing that follows from what a state knows gets lost: it is in place already, or the work list or
the queue of pending methods still has it. `Saturated` is this invariant. It is stated up to a set of
methods and a set of objects whose consequences are being worked out, which lets a step break it and
restore it; between steps both sets are empty.

Once nothing is left to be done, a saturated state is closed under the rules of the program.
-/

namespace PointsTo

variable {a : Analysis} {given : Fact → Prop} {T : Theory a given} {s t u : State}

/-! ## How states evolve -/

/-- What moves do, as far as saturation is concerned: the objects of pointers stay, a method that is
new is pending, the objects of the source of a new edge are awaited by its target, and a new call is
linked. -/
structure Evolves (p : Program) (s t : State) : Prop extends s.Extends t where
  pointsTo : ∀ i, t.elements.pointsTo i = s.elements.pointsTo i
  pending : ∀ j ∈ s.pending.toList, j ∈ t.pending.toList
  reached : ∀ j ∈ t.calls.reachable, j ∈ s.calls.reachable ∨ j ∈ t.pending.toList
  carried : ∀ i j, t.flow.hasEdge i j = true → s.flow.hasEdge i j = true ∨
    ∀ o, (s.elements.pointsTo i).contains o = true → t.Awaits j o
  called : ∀ e ∈ t.calls.edges, e ∈ s.calls.edges ∨ t.Wired p e

/-- A state evolves into itself. -/
theorem Evolves.refl (p : Program) (s : State) : Evolves p s s where
  toExtends := State.Extends.refl s
  pointsTo _ := rfl
  pending _ := id
  reached _ := Or.inl
  carried _ _ := Or.inl
  called _ := Or.inl

/-- Evolution is transitive: what the first part leaves to be done is still to be done, or was done by
the second part. -/
theorem Evolves.trans {p : Program} (hst : Evolves p s t) (htu : Evolves p t u) :
    Evolves p s u where
  toExtends := hst.toExtends.trans htu.toExtends
  pointsTo i := (htu.pointsTo i).trans (hst.pointsTo i)
  pending j hj := htu.pending j (hst.pending j hj)
  reached j hj := by
    rcases htu.reached j hj with hj | hj
    · exact (hst.reached j hj).imp id (htu.pending j)
    · exact Or.inr hj
  carried i j hij := by
    rcases htu.carried i j hij with hij | hij
    · exact (hst.carried i j hij).imp id fun h o ho => htu.awaits j o (h o ho)
    · exact Or.inr fun o ho => hij o (by rwa [hst.pointsTo])
  called e he := by
    rcases htu.called e he with he | he
    · exact (hst.called e he).imp id fun h => h.mono htu.toExtends
    · exact Or.inr he

/-- A state with the same elements, call graph and work evolves. -/
theorem State.Agrees.evolves (h : s.Agrees t) (p : Program) : Evolves p s t where
  toExtends := h.extends
  pointsTo i := by rw [h.elements]
  pending j hj := by rwa [h.pending]
  reached j hj := Or.inl (by rwa [h.reachable] at hj)
  carried i j hij := Or.inl (by rwa [h.flow] at hij)
  called e he := Or.inl (by rwa [h.edges] at he)

/-- A new flow edge has the objects of its source pushed to its target, so they are awaited there. -/
theorem State.evolves_addFlow (p : Program) (s : State) (i j : PointerId) :
    Evolves p s (s.addFlow i j) := by
  have hext := s.extends_addFlow i j
  have hcarried : ∀ k l, (s.addFlow i j).flow.hasEdge k l = true → s.flow.hasEdge k l = true ∨
      ∀ o, (s.elements.pointsTo k).contains o = true → (s.addFlow i j).Awaits l o := by
    intro k l hkl
    rcases (s.hasEdge_addFlow i j k l).1 hkl with hkl | ⟨rfl, rfl⟩
    · exact Or.inl hkl
    · cases hnew : s.flow.hasEdge k l with
      | true => exact Or.inl rfl
      | false => exact Or.inr fun o ho => State.awaits_addFlow hnew ho
  obtain ⟨flow, work, heq⟩ := s.addFlow_with i j
  rw [heq] at hext hcarried ⊢
  exact ⟨hext, fun _ => rfl, fun _ => id, fun _ => Or.inl, hcarried, fun _ => Or.inl⟩

/-- A method that is reached for the first time becomes pending. -/
theorem State.evolves_reachMethod (p : Program) (s : State) (j : CsMethodId) :
    Evolves p s (s.reachMethod j) := by
  have hext := s.extends_reachMethod j
  by_cases hj : s.calls.isReachable j = true
  · rw [reachMethod, if_pos hj]
    exact Evolves.refl p s
  · rw [reachMethod, if_neg hj] at hext ⊢
    refine { Evolves.refl p s with
      toExtends := hext
      pending := fun k hk => by simp [hk]
      reached := fun k hk => ?_
      called := fun e he => Or.inl (by rwa [CsCallGraph.edges_addReachable] at he) }
    rcases CsCallGraph.mem_reachable_addReachable.1 hk with hk | rfl
    · exact Or.inl hk
    · exact Or.inr (by simp)

/-- One move evolves a state. -/
theorem Move.evolves (h : Move T s t) : Evolves a.program s t := by
  have hext := h.extends
  cases h with
  -- only new flow edges and newly reached methods leave anything to be done
  | silent h => exact h.evolves _
  | pointer h =>
      exact ⟨hext, congrFun (s.pointsTo_internPointer _), fun _ => id, fun _ => Or.inl,
        fun _ _ => Or.inl, fun _ => Or.inl⟩
  | flow h => exact s.evolves_addFlow _ _ _
  | reach h => exact s.evolves_reachMethod _ _
  | @unresolved stmt h =>
      unfold State.markUnresolved at hext ⊢
      split
      · exact Evolves.refl _ _
      · rename_i hnew
        rw [if_neg hnew] at hext
        exact { Evolves.refl a.program s with toExtends := hext }
  | _ => exact ⟨hext, fun _ => rfl, fun _ => id, fun _ => Or.inl, fun _ _ => Or.inl, fun _ => Or.inl⟩

/-- Moves that push nothing evolve a state. -/
theorem Links.evolves (h : Links T s t) : Evolves a.program s t := by
  induction h with
  | refl => exact Evolves.refl _ _
  | tail _ h ih => exact ih.trans h.evolves

/-- Moves evolve states. -/
theorem Moves.evolves {n : Nat} (h : Moves T n s t) : Evolves a.program s t := by
  induction h with
  | refl => exact Evolves.refl _ _
  | move h _ ih => exact h.evolves.trans ih
  | push _ _ ih =>
      exact Evolves.trans ⟨State.extends_push _ _ _, fun _ => rfl, fun _ => id, fun _ => Or.inl,
        fun _ _ => Or.inl, fun _ => Or.inl⟩ ih
  -- a new edge of the call graph comes with moves that link it; until these are made it is not wired
  | @call n s t u e _ links wired _ ih =>
      refine Evolves.trans ?_ ih
      have hlinks := Links.evolves links
      refine { hlinks with
        toExtends := (State.extends_addEdge s e).trans hlinks.toExtends
        reached := fun j hj => (hlinks.reached j hj).imp (fun hj => ?_) id
        called := fun e' he' => ?_ }
      · rwa [CsCallGraph.reachable_addEdge] at hj
      · rcases hlinks.called e' he' with he' | he'
        · rcases CsCallGraph.mem_edges_addEdge he' with he' | rfl
          · exact Or.inl he'
          · exact Or.inr wired
        · exact Or.inr he'

/-! ## The invariant -/

/-- Whatever follows from what the state knows is in place or still to be done, but for the statements
of the methods that are being visited, and the objects that are being processed. -/
structure Saturated (a : Analysis) (s : State) (visiting : CsMethodId → Prop)
    (processing : PointerId → CsObjectId → Prop) : Prop where
  flow : ∀ i j, s.flow.hasEdge i j = true → ∀ o, (s.elements.pointsTo i).contains o = true →
    s.Awaits j o
  visited : ∀ j ∈ s.calls.reachable, j ∈ s.pending.toList ∨ visiting j ∨
    ∃ m, s.IsMethod j m ∧ ∀ stmt ∈ a.program.stmtsOf m.method, s.Visited a m stmt
  processed : ∀ i c v, s.IsPointer i (.var c v) → ∀ o, (s.elements.pointsTo i).contains o = true →
    processing i o ∨ s.Processed a c v o
  wired : ∀ e ∈ s.calls.edges, s.Wired a.program e

section Saturated

variable {visiting visiting' : CsMethodId → Prop} {processing processing' : PointerId → CsObjectId → Prop}

/-- Saturation is kept as states evolve. -/
theorem Saturated.evolve (h : Saturated a s visiting processing) (hs : Sound T s)
    (hst : Evolves a.program s t) : Saturated a t visiting processing where
  -- the old flow edges are saturated by assumption, and new ones come with their objects awaited
  flow i j hij o ho := by
    rw [hst.pointsTo] at ho
    rcases hst.carried i j hij with hij | hij
    · exact hst.awaits j o (h.flow i j hij o ho)
    · exact hij o ho
  visited j hj := by
    rcases hst.reached j hj with hj | hj
    · rcases h.visited j hj with hj | hj | ⟨m, hm, hv⟩
      · exact Or.inl (hst.pending j hj)
      · exact Or.inr (Or.inl hj)
      · exact Or.inr (Or.inr ⟨m, hst.isMethod hm, fun stmt hstmt => (hv stmt hstmt).mono hst.toExtends⟩)
    · exact Or.inl hj
  processed i c v hi o ho := by
    rw [hst.pointsTo] at ho
    -- a pointer that has objects had its identifier before
    obtain ⟨p, -, -, hp, -⟩ := hs.pointsTo i o ho
    cases (hst.isPointer hp).symm.trans hi
    exact (h.processed i c v hp o ho).imp id fun hv => hv.mono hst.toExtends
  wired e he := by
    rcases hst.called e he with he | he
    · exact (h.wired e he).mono hst.toExtends
    · exact he

/-- What was visited and processed is no longer an exception. -/
theorem Saturated.discharge (h : Saturated a s visiting processing)
    (hvisit : ∀ j, visiting j → visiting' j ∨
      ∃ m, s.IsMethod j m ∧ ∀ stmt ∈ a.program.stmtsOf m.method, s.Visited a m stmt)
    (hprocess : ∀ i c v, s.IsPointer i (.var c v) → ∀ o, processing i o →
      processing' i o ∨ s.Processed a c v o) : Saturated a s visiting' processing' where
  flow := h.flow
  visited j hj := by
    rcases h.visited j hj with hj | hj | hj
    · exact Or.inl hj
    · exact Or.inr (hvisit j hj)
    · exact Or.inr (Or.inr hj)
  processed i c v hi o ho := by
    rcases h.processed i c v hi o ho with ho | ho
    · exact hprocess i c v hi o ho
    · exact Or.inr ho
  wired := h.wired

/-- Taking a pending method leaves its statements to be visited. -/
theorem Saturated.take (h : Saturated a s visiting processing) {j : CsMethodId}
    {rest : Queue CsMethodId} (hpending : s.pending.toList.Perm (j :: rest.toList)) :
    Saturated a { s with pending := rest } (fun i => i = j ∨ visiting i) processing where
  flow := h.flow
  visited i hi := by
    -- Who was still to be visited is visited now or later.
    rcases h.visited i hi with hi | hi | hi
    · rw [hpending.mem_iff, List.mem_cons] at hi
      rcases hi with hi | hi
      · exact Or.inr (Or.inl (Or.inl hi))
      · exact Or.inl hi
    · exact Or.inr (Or.inl (Or.inr hi))
    · obtain ⟨m, hm, hv⟩ := hi
      have hext : s.Extends { s with pending := rest } := { State.Extends.refl s with }
      exact Or.inr (Or.inr ⟨m, hm, fun stmt hstmt => (hv stmt hstmt).mono hext⟩)
  processed i c v hi o ho := by
    have hext : s.Extends { s with pending := rest } := { State.Extends.refl s with }
    exact (h.processed i c v hi o ho).imp id fun hv => hv.mono hext
  wired e he := by
    have hext : s.Extends { s with pending := rest } := { State.Extends.refl s with }
    exact (h.wired e he).mono hext

/-- Absorbing an entry of the work list leaves its new objects to be processed. -/
theorem Saturated.absorb (h : Saturated a s visiting processing) {i : PointerId}
    {objects : ObjectSet} (habsorbs : s.Absorbs i objects t) :
    Saturated a t visiting fun j o => (j = i ∧
      (objects.difference (s.elements.pointsTo i)).contains o = true) ∨ processing j o := by
  have hext := habsorbs.extends
  have hcases {j o} := habsorbs.cases_contains (j := j) (o := o)
  have hnew {j} hj o := habsorbs.awaits_successor (j := j) hj (o := o)
  obtain ⟨sets, work, n, rfl⟩ := habsorbs.shape
  refine ⟨fun j k hjk o ho => ?_, fun j hj => ?_, fun j c v hj o ho => ?_, fun e he => ?_⟩
  -- an object of a pointer was one before, or is new and comes from the entry; each field splits so
  · rcases hcases ho with ho | ⟨rfl, -, ho⟩
    · exact hext.awaits k o (h.flow j k hjk o ho)
    · exact hnew hjk o ho
  · rcases h.visited j hj with hj | hj | ⟨m, hm, hv⟩
    · exact Or.inl hj
    · exact Or.inr (Or.inl hj)
    · exact Or.inr (Or.inr ⟨m, hm, fun stmt hstmt => (hv stmt hstmt).mono hext⟩)
  · rcases hcases ho with ho | ⟨rfl, -, ho⟩
    · rcases h.processed j c v hj o ho with ho | ho
      · exact Or.inl (Or.inr ho)
      · exact Or.inr (ho.mono hext)
    · exact Or.inl (Or.inl ⟨rfl, ho⟩)
  · exact (h.wired e he).mono hext

end Saturated

/-- Steps keep states saturated. -/
theorem StepTo.saturated (h : StepTo T s t) (hs : Sound T s)
    (hsat : Saturated a s (fun _ => False) fun _ _ => False) :
    Saturated a t (fun _ => False) fun _ _ => False := by
  cases h with
  | @visit j m rest _ pending method moves visited =>
      -- all that the visit has done came after the method was taken, so it evolves the state without it
      have htaken := (hsat.take pending).evolve (hs.take pending) moves.evolves
      refine htaken.discharge (fun k hk => Or.inr ?_) fun _ _ _ _ _ => False.elim
      obtain rfl := hk.resolve_right id
      exact ⟨m, moves.extends.isMethod method, visited⟩
  | @fact i objects _ _ absorbs moves processed =>
      have habsorbed := (hsat.absorb absorbs).evolve (absorbs.sound hs) moves.evolves
      refine habsorbed.discharge (fun _ => False.elim) fun k c v hk o ho => Or.inr ?_
      obtain ⟨rfl, ho⟩ := ho.resolve_right id
      -- the entry was justified, so the pointer had its identifier before
      obtain ⟨rest, hwork, -⟩ := absorbs.work
      obtain ⟨p, -, -, hp, -⟩ := hs.work k objects (hwork.mem_iff.2 (by simp)) o
        (by rw [ObjectSet.contains_difference, Bool.and_eq_true] at ho; exact ho.1)
      cases ((absorbs.extends.trans moves.extends).isPointer hp).symm.trans hk
      exact processed c v hp o ho
  | idle => exact hsat

end PointsTo
