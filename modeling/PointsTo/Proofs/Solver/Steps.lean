import PointsTo.Proofs.Solver.Processing

/-! # Steps of the solver

A step of the solver takes the first pending method, or else the first entry of the work list. A turn
may take any of them, and may go through statements, successors and new objects in any order; a step
that finds something to do is a turn.

`StepTo` says all that a turn can do, in terms of moves: it visits a pending method, or it absorbs an
entry of the work list and processes what is new. Every invariant of runs is shown for `StepTo`; that a
turn is one is shown here, once.
-/

namespace PointsTo

/-! ## Entries of the work list -/

/-- The second state has absorbed an entry of the work list of the first one: its objects are objects
of the pointer, and those that are new are passed on to the successors. -/
structure State.Absorbs (s : State) (i : PointerId) (objects : ObjectSet) (t : State) : Prop where
  shape : ∃ sets work n,
    t = { s with elements := { s.elements with sets := sets }, work := work, processed := n }
  work : ∃ rest, s.work.toList.Perm ((i, objects) :: rest) ∧ t.work.toList.Perm (rest ++
    if (objects.difference (s.elements.pointsTo i)).isEmpty then []
    else (s.flow.successors i).toList.map fun q => (q, objects.difference (s.elements.pointsTo i)))
  pointsTo : ∀ j o, (t.elements.pointsTo j).contains o =
    ((s.elements.pointsTo j).contains o || (decide (j = i) && objects.contains o))

section Absorbs

variable {s t : State} {i : PointerId} {objects : ObjectSet} (h : s.Absorbs i objects t)

include h

/-- An object of a pointer was one before, or it is new and comes from the entry. -/
theorem State.Absorbs.cases_contains {j : PointerId} {o : CsObjectId}
    (ho : (t.elements.pointsTo j).contains o = true) :
    (s.elements.pointsTo j).contains o = true ∨ j = i ∧ objects.contains o = true ∧
      (objects.difference (s.elements.pointsTo i)).contains o = true := by
  rw [h.pointsTo, Bool.or_eq_true, Bool.and_eq_true, decide_eq_true_eq] at ho
  cases hold : (s.elements.pointsTo j).contains o with
  | true => exact Or.inl rfl
  | false =>
      rw [hold] at ho
      obtain ⟨rfl, hin⟩ := ho.resolve_left Bool.noConfusion
      exact Or.inr ⟨rfl, hin, by simp [hin, hold]⟩

/-- What was awaited still is, or has arrived. -/
theorem State.Absorbs.extends : s.Extends t := by
  obtain ⟨sets, work, n, rfl⟩ := h.shape
  obtain ⟨rest, hs, ht⟩ := h.work
  -- an entry that is taken off the work list has arrived; every other entry is still on it
  refine { State.Extends.refl s with awaits := fun j o ho => ?_ }
  rcases ho with ho | ⟨set, hmem, ho⟩
  · refine Or.inl ?_
    rw [h.pointsTo, ho]
    rfl
  · rw [hs.mem_iff, List.mem_cons, Prod.mk.injEq] at hmem
    rcases hmem with ⟨rfl, rfl⟩ | hmem
    · refine Or.inl ?_
      rw [h.pointsTo, ho]
      simp
    · exact Or.inr ⟨set, ht.mem_iff.2 (List.mem_append_left _ hmem), ho⟩

/-- New objects of the pointer are awaited by its successors. -/
theorem State.Absorbs.awaits_successor {j : PointerId} (hj : s.flow.hasEdge i j = true) {o : CsObjectId}
    (ho : (objects.difference (s.elements.pointsTo i)).contains o = true) : t.Awaits j o := by
  obtain ⟨rest, -, ht⟩ := h.work
  have hempty : (objects.difference (s.elements.pointsTo i)).isEmpty = false := by
    refine Bool.eq_false_iff.2 fun hempty => ?_
    rw [(ObjectSet.isEmpty_iff _).1 hempty o] at ho
    cases ho
  refine Or.inr ⟨_, ht.mem_iff.2 (List.mem_append_right _ ?_), ho⟩
  rw [hempty]
  refine List.mem_map.2 ⟨j, ?_, rfl⟩
  exact Array.mem_toList_iff.2 (Array.contains_iff_mem.1 hj)

/-- Absorbing an entry keeps a state sound: its objects were justified when they were pushed, and the
successors of the pointer inherit the justification through their flow. -/
theorem State.Absorbs.sound {a : Analysis} {given : Fact → Prop} {T : Theory a given} (hs : Sound T s) :
    Sound T t := by
  obtain ⟨rest, hwork, hpassed⟩ := h.work
  have hext := h.extends
  obtain ⟨sets, work, n, rfl⟩ := h.shape
  have hentry : T.Justified s i objects := hs.work i objects (hwork.mem_iff.2 (by simp))
  have hnew : T.Justified s i (objects.difference (s.elements.pointsTo i)) := by
    intro o ho
    rw [ObjectSet.contains_difference, Bool.and_eq_true] at ho
    exact hentry o ho.1
  -- only the work list and the points-to sets change, so these are the only fields to prove
  refine Gains.sound { hext with
    distinct := hs.distinct
    simple := hs.simple
    work := fun j set hj => ?_
    pointsTo := fun j => Or.inr fun o ho => ?_ } hs
  · -- an entry is an old one, or passes on what is new to a successor
    rw [hpassed.mem_iff, List.mem_append] at hj
    rcases hj with hj | hj
    · exact Or.inl (hwork.mem_iff.2 (List.mem_cons_of_mem _ hj))
    · split at hj
      · cases hj
      · obtain ⟨q, hq, heq⟩ := List.mem_map.1 hj
        cases heq
        have hflow := hs.flow i j (Array.contains_iff_mem.2 (Array.mem_toList_iff.1 hq))
        exact Or.inr ((hflow.justified hs.distinct hnew).mono hext hs.distinct)
  · rcases h.cases_contains ho with ho | ⟨rfl, ho, -⟩
    · exact (hs.pointsTo j).mono hext hs.distinct o ho
    · exact hentry.mono hext hs.distinct o ho

end Absorbs

variable {a : Analysis} {given : Fact → Prop} {T : Theory a given} {π : Type} {react : Reaction π}
  {E : List π → State → Prop}

/-- Taking an entry of the work list, and passing on what is new in it to the successors of the
pointer, in whatever order. -/
theorem State.absorbs_propagate {s : State} {i : PointerId} {objects : ObjectSet}
    {rest : Queue (PointerId × ObjectSet)} (hwork : s.work.toList.Perm ((i, objects) :: rest.toList))
    {new : ObjectSet} (hnew : new = objects.difference (s.elements.pointsTo i)) {n : Nat}
    {targets : List PointerId} (htargets : targets.Perm (s.flow.successors i).toList) {t : State}
    (ht : t = if new.isEmpty then { s with work := rest, processed := n }
      else targets.foldl (fun s q => s.push q new)
        { s with work := rest, processed := n, elements := s.elements.addObjects i new }) :
    s.Absorbs i objects t := by
  subst hnew
  -- the successors are passed something only when the entry brings something new
  by_cases hempty : (objects.difference (s.elements.pointsTo i)).isEmpty = true
  · -- nothing is new, so the objects of the entry were objects of the pointer before
    rw [if_pos hempty] at ht
    subst ht
    refine ⟨⟨s.elements.sets, rest, n, rfl⟩, ⟨rest.toList, hwork, ?_⟩, fun j o => ?_⟩
    · rw [if_pos hempty, List.append_nil]
    have hdiff := (ObjectSet.isEmpty_iff _).1 hempty o
    rw [ObjectSet.contains_difference] at hdiff
    by_cases hj : j = i
    · subst hj
      cases ho : objects.contains o
      · simp
      · rw [ho] at hdiff
        simpa using hdiff
    · simp [hj]
  · rw [if_neg hempty] at ht
    obtain ⟨work, heq, hlist⟩ := State.foldl_push_eq targets
      (objects.difference (s.elements.pointsTo i)) { s with
        work := rest, processed := n,
        elements := s.elements.addObjects i (objects.difference (s.elements.pointsTo i)) }
    rw [heq] at ht
    subst ht
    refine ⟨⟨_, work, n, rfl⟩, ⟨rest.toList, hwork, ?_⟩, fun j o => ?_⟩
    · rw [if_neg hempty, hlist]
      exact (htargets.map _).append_left _
    · simp only [Elements.pointsTo, Elements.addObjects, Family.get_update]
      have hidx : j.idx = i.idx ↔ j = i := by
        cases i
        cases j
        simp
      by_cases hj : j = i
      · subst hj
        simp only [if_true, ObjectSet.contains_union, ObjectSet.contains_difference]
        cases (s.elements.sets.get j.idx).contains o <;> simp
      · simp [hidx, hj]

/-! ## Steps -/

/-- What a step can do. -/
inductive StepTo (T : Theory a given) (s : State) : State → Prop where
  /-- A pending method is visited. -/
  | visit {j : CsMethodId} {m : CsMethod} {rest : Queue CsMethodId} {u : State}
      (pending : s.pending.toList.Perm (j :: rest.toList)) (method : s.IsMethod j m)
      (moves : Moves T a.program.stmts.size { s with pending := rest } u)
      (visited : ∀ stmt ∈ a.program.stmtsOf m.method, u.Visited a m stmt) : StepTo T s u
  /-- An entry of the work list is absorbed, and what is new in it is processed. -/
  | fact {i : PointerId} {objects : ObjectSet} {t u : State}
      (absorbs : s.Absorbs i objects t)
      (moves : Moves T (a.program.stmts.size *
        (objects.difference (s.elements.pointsTo i)).toList.length) t u)
      (processed : ∀ c v, s.IsPointer i (.var c v) → ∀ o,
        (objects.difference (s.elements.pointsTo i)).contains o = true → u.Processed a c v o) :
      StepTo T s u
  /-- Nothing is left to be done. -/
  | idle (pending : s.pending.toList = []) (work : s.work.toList = []) : StepTo T s s

/-- A state stays sound when a pending method is taken. -/
theorem Sound.take {s : State} (hs : Sound T s) {j : CsMethodId} {rest : Queue CsMethodId}
    (h : s.pending.toList.Perm (j :: rest.toList)) : Sound T { s with pending := rest } :=
  Gains.sound { State.Extends.refl s with
    distinct := hs.distinct
    simple := hs.simple
    pending := fun i hi => Or.inl (h.mem_iff.2 (List.mem_cons_of_mem _ hi)) } hs

/-- A step keeps a state sound. -/
theorem StepTo.sound {s t : State} (h : StepTo T s t) (hs : Sound T s) : Sound T t := by
  cases h with
  | visit pending _ moves _ => exact moves.sound (hs.take pending)
  | fact absorbs moves _ => exact moves.sound (absorbs.sound hs)
  | idle => exact hs

/-- If something is new in an entry of the work list, then the entry is justified, so that its pointer
has an identifier. -/
theorem Sound.isPointer_of_new {s : State} (hs : Sound T s) {i : PointerId} {objects : ObjectSet}
    (hwork : (i, objects) ∈ s.work.toList)
    (hnew : (objects.difference (s.elements.pointsTo i)).isEmpty = false) :
    ∃ p, s.IsPointer i p := by
  obtain ⟨o, ho⟩ : ∃ o, (objects.difference (s.elements.pointsTo i)).contains o = true := by
    refine Classical.byContradiction fun hno => ?_
    rw [(ObjectSet.isEmpty_iff _).2 fun o => Bool.eq_false_iff.2 fun ho => hno ⟨o, ho⟩] at hnew
    cases hnew
  rw [ObjectSet.contains_difference, Bool.and_eq_true] at ho
  obtain ⟨p, x, y, hp, -⟩ := hs.work i objects hwork o ho.1
  exact ⟨p, hp⟩

/-- What is new in an entry that was absorbed are objects of the pointer. -/
theorem State.Absorbs.contains_of_new {s t : State} {i : PointerId} {objects : ObjectSet}
    (h : s.Absorbs i objects t) {o : CsObjectId}
    (ho : (objects.difference (s.elements.pointsTo i)).contains o = true) :
    (t.elements.pointsTo i).contains o = true := by
  rw [ObjectSet.contains_difference, Bool.and_eq_true] at ho
  rw [h.pointsTo, ho.1]
  simp

/-! ## Turns -/

/-- Takes account of a fact from the work list. What is new is passed on to the given pointers, and the
given pairs of objects and statements are attended to, both in the given order. -/
def Analysis.absorbInOrder (a : Analysis) (react : Reaction π) (targets : List PointerId)
    (tasks : List (CsObjectId × StmtId)) (i : PointerId) (objects : ObjectSet) (k : Machine π) :
    Machine π :=
  let k := k.modify fun s => { s with processed := s.processed + 1 }
  let new := objects.difference (k.state.elements.pointsTo i)
  if new.isEmpty then k
  else a.processInOrder react tasks i new (k.modify fun s =>
    targets.foldl (fun s q => s.push q new) { s with elements := s.elements.addObjects i new })

/-- A step that takes any pending method or any entry of the work list, leaves the others in any order,
and goes through all that it has to do in any order. -/
inductive Analysis.Turn (a : Analysis) (react : Reaction π) : Machine π → Machine π → Prop where
  | visit {k : Machine π} {j : CsMethodId} {rest : Queue CsMethodId} {stmts : List StmtId}
      (pending : k.state.pending.toList.Perm (j :: rest.toList))
      (order : stmts.Perm (a.program.stmtsOf (k.state.elements.method j).method)) :
      Turn a react k
        (a.visitInOrder react stmts j (k.modify fun s => { s with pending := rest }))
  | absorb {k : Machine π} {i : PointerId} {objects : ObjectSet}
      {rest : Queue (PointerId × ObjectSet)} {targets : List PointerId}
      {tasks : List (CsObjectId × StmtId)}
      (work : k.state.work.toList.Perm ((i, objects) :: rest.toList))
      (successors : targets.Perm (k.state.flow.successors i).toList)
      (order : tasks.Perm (a.program.tasks (objects.difference (k.state.elements.pointsTo i))
        (k.state.elements.pointer i))) :
      Turn a react k
        (a.absorbInOrder react targets tasks i objects (k.modify fun s => { s with work := rest }))

/-- The solver passes on what is new in the order of the flow edges, and attends to one object after
the other. -/
theorem Analysis.processFact_eq (wf : a.program.WellFormed) (i : PointerId) (objects : ObjectSet)
    (k : Machine π) :
    a.processFact react i objects k = a.absorbInOrder react (k.state.flow.successors i).toList
      (a.program.tasks (objects.difference (k.state.elements.pointsTo i))
        (k.state.elements.pointer i)) i objects k := by
  unfold processFact absorbInOrder
  simp only [processObjects_eq wf, Machine.modify, State.propagate, ← Array.foldl_toList]
  obtain ⟨work, heq, -⟩ := State.foldl_push_eq (k.state.flow.successors i).toList
    (objects.difference (k.state.elements.pointsTo i)) { k.state with
      processed := k.state.processed + 1,
      elements := k.state.elements.addObjects i (objects.difference (k.state.elements.pointsTo i)) }
  rw [heq]
  rfl

/-- A step of the solver is a turn, unless nothing is left to be done. -/
theorem Analysis.step_turn (wf : a.program.WellFormed) (k : Machine π) :
    a.Turn react k (a.step react k) ∨
      a.step react k = k ∧ k.state.pending.toList = [] ∧ k.state.work.toList = [] := by
  -- pending methods come first, then the entries of the work list
  unfold step
  split
  · rename_i j rest hpop
    rw [visitMethod_eq]
    exact Or.inl (.visit (.of_eq (Queue.toList_of_pop? hpop)) (.refl _))
  · rename_i hpending
    split
    · rename_i i objects rest hpop
      rw [processFact_eq wf]
      exact Or.inl (.absorb (.of_eq (Queue.toList_of_pop? hpop)) (.refl _) (.refl _))
    · rename_i hwork
      exact Or.inr ⟨rfl, (Queue.pop?_eq_none_iff _).1 hpending, (Queue.pop?_eq_none_iff _).1 hwork⟩

/-- Taking account of an entry of the work list absorbs it and processes what is new. -/
theorem Analysis.absorbInOrder_stepTo (wf : a.program.WellFormed) {k : Machine π}
    (hs : Sound T k.state) (htame : Tame T react E) (hE : E k.extensions k.state) {i : PointerId}
    {objects : ObjectSet} {rest : Queue (PointerId × ObjectSet)} {targets : List PointerId}
    {tasks : List (CsObjectId × StmtId)}
    (hwork : k.state.work.toList.Perm ((i, objects) :: rest.toList))
    (htargets : targets.Perm (k.state.flow.successors i).toList)
    (htasks : tasks.Perm (a.program.tasks (objects.difference (k.state.elements.pointsTo i))
      (k.state.elements.pointer i))) {k' : Machine π}
    (hk : k' = a.absorbInOrder react targets tasks i objects
      (k.modify fun s => { s with work := rest })) :
    E k'.extensions k'.state ∧ StepTo T k.state k'.state := by
  have habsorbs := State.absorbs_propagate hwork rfl (n := k.state.processed + 1) htargets rfl
  have hs' := habsorbs.sound hs
  -- an entry with nothing new is dropped without a notice
  cases hempty : (objects.difference (k.state.elements.pointsTo i)).isEmpty with
  | true =>
    rw [if_pos hempty] at habsorbs
    simp only [absorbInOrder, Machine.modify, hempty, if_true] at hk
    subst hk
    refine ⟨htame.mono habsorbs.extends hE, .fact habsorbs (.refl _ _) fun c v _ o ho => ?_⟩
    rw [(ObjectSet.isEmpty_iff _).1 hempty o] at ho
    cases ho
  | false =>
    rw [if_neg (by simp [hempty])] at habsorbs hs'
    simp only [absorbInOrder, Machine.modify, hempty, Bool.false_eq_true, if_false] at hk
    obtain ⟨p, hp⟩ := hs.isPointer_of_new (hwork.mem_iff.2 (List.mem_cons_self ..)) hempty
    rw [hp.pointer] at htasks
    -- from here on, all that matters about the propagated state is that it has absorbed the entry
    generalize List.foldl _ _ _ = t at hk habsorbs hs'
    have hacts := a.acts_processInOrder wf (k := ⟨t, k.extensions⟩) hs' htame
      (htame.mono habsorbs.extends hE) (habsorbs.extends.isPointer hp)
      (fun o => habsorbs.contains_of_new) htasks
    rw [← hk] at hacts
    refine ⟨hacts.extensions, .fact habsorbs hacts.moves fun c v hv o ho => ?_⟩
    cases hp.symm.trans hv
    exact hacts.done c v rfl o ho

/-- A turn from a sound state does what a step can do. -/
theorem Analysis.Turn.stepTo (wf : a.program.WellFormed) (hmodel : a.heapModel = .allocationSite)
    {k k' : Machine π} (h : a.Turn react k k') (hs : Sound T k.state) (htame : Tame T react E)
    (hE : E k.extensions k.state) : E k'.extensions k'.state ∧ StepTo T k.state k'.state := by
  cases h with
  | @visit j rest stmts pending order =>
      obtain ⟨m, hm⟩ := hs.reachable j (hs.pending j (pending.mem_iff.2 (List.mem_cons_self ..)))
      have hext : k.state.Extends { k.state with pending := rest } :=
        { State.Extends.refl k.state with }
      rw [hm.method] at order
      have hvisit := a.acts_visitInOrder wf hmodel (k := k.modify fun s => { s with pending := rest })
        (hs.take pending) htame (htame.mono hext hE) hm order
      exact ⟨hvisit.extensions, .visit pending hm
        (hvisit.moves.weaken (wf.length_stmtsOf_le m.method)) hvisit.done⟩
  | absorb work successors order =>
      exact a.absorbInOrder_stepTo wf hs htame hE work successors order rfl

/-- A step of the solver from a sound state does what a step can do. -/
theorem Analysis.step_stepTo (wf : a.program.WellFormed) (hmodel : a.heapModel = .allocationSite)
    {k : Machine π} (hs : Sound T k.state) (htame : Tame T react E) (hE : E k.extensions k.state) :
    E (a.step react k).extensions (a.step react k).state ∧
      StepTo T k.state (a.step react k).state := by
  rcases a.step_turn wf k with hturn | ⟨heq, hpending, hwork⟩
  · exact hturn.stepTo wf hmodel hs htame hE
  · rw [heq]
    exact ⟨hE, .idle hpending hwork⟩

end PointsTo
