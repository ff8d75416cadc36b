import PointsTo.Proofs.Solver.Runs
import PointsTo.Proofs.Solver.Universe
import Mathlib.Data.Finset.Card
import Mathlib.Data.Finset.Prod

/-! # A measure of the work that is left

Every step makes progress: it takes an entry off one of the two queues, and what it adds to them is
paid for by something that can happen only once, namely a new flow edge, a new reachable method or a
new object of a pointer. All of these belong to the universe of the run, so a measure that counts what
is missing, weighted by what it can cause, goes down with every step.
-/

namespace PointsTo

/-! ## Sizes of collections -/

theorem Queue.size_push {α : Type} (q : Queue α) (x : α) : (q.push x).size = q.size + 1 := by
  rw [← length_toList, toList_push, List.length_append, length_toList]
  rfl

/-! ## What is missing -/

/-- Pairs of the first `n` pointers without a flow edge. -/
def FlowGraph.missing (g : FlowGraph) (n : Nat) : Finset (Nat × Nat) :=
  (Finset.range n ×ˢ Finset.range n).filter fun e => g.hasEdge ⟨e.1⟩ ⟨e.2⟩ = false

/-- Those of the first `n` methods that are not reachable. -/
def CsCallGraph.missing (g : CsCallGraph) (n : Nat) : Finset Nat :=
  (Finset.range n).filter fun i => ⟨i⟩ ∉ g.reachable

/-- Pairs of one of the first `n` pointers and one of the first `m` objects that it does not have. -/
def Elements.missing (e : Elements) (n m : Nat) : Finset (Nat × Nat) :=
  (Finset.range n ×ˢ Finset.range m).filter fun x => (e.pointsTo ⟨x.1⟩).contains ⟨x.2⟩ = false

/-- No more flow edges are missing than there are pairs of pointers. -/
theorem FlowGraph.card_missing_le (g : FlowGraph) (n : Nat) : (g.missing n).card ≤ n * n := by
  refine (Finset.card_filter_le _ _).trans ?_
  rw [Finset.card_product, Finset.card_range]

/-- No more methods are missing than there are methods. -/
theorem CsCallGraph.card_missing_le (g : CsCallGraph) (n : Nat) : (g.missing n).card ≤ n := by
  refine (Finset.card_filter_le _ _).trans ?_
  rw [Finset.card_range]

/-- No more objects are missing than there are pairs of a pointer and an object. -/
theorem Elements.card_missing_le (e : Elements) (n m : Nat) : (e.missing n m).card ≤ n * m := by
  refine (Finset.card_filter_le _ _).trans ?_
  rw [Finset.card_product, Finset.card_range, Finset.card_range]

/-- A new flow edge is missing no longer. -/
theorem FlowGraph.card_missing_addEdge {g : FlowGraph} {n : Nat} {i j : PointerId} (hi : i.idx < n)
    (hj : j.idx < n) (hnew : g.hasEdge i j = false) :
    ((g.addEdge i j).missing n).card < (g.missing n).card := by
  refine Finset.card_lt_card
    ((Finset.ssubset_iff_of_subset fun e he => ?_).2 ⟨(i.idx, j.idx), ?_, ?_⟩)
  · rw [missing, Finset.mem_filter] at he ⊢
    refine ⟨he.1, Bool.eq_false_iff.2 fun hold => ?_⟩
    rw [hasEdge_addEdge.2 (Or.inl hold)] at he
    exact Bool.noConfusion he.2
  · simp only [missing, Finset.mem_filter, Finset.mem_product, Finset.mem_range]
    exact ⟨⟨hi, hj⟩, hnew⟩
  · rw [missing, Finset.mem_filter]
    rintro ⟨-, hedge⟩
    rw [hasEdge_addEdge.2 (Or.inr ⟨rfl, rfl⟩)] at hedge
    cases hedge

/-- A method that has become reachable is missing no longer. -/
theorem CsCallGraph.card_missing_addReachable {g : CsCallGraph} {n : Nat} {i : CsMethodId}
    (hi : i.idx < n) (hnew : i ∉ g.reachable) :
    ((g.addReachable i).missing n).card < (g.missing n).card := by
  refine Finset.card_lt_card
    ((Finset.ssubset_iff_of_subset fun j hj => ?_).2 ⟨i.idx, ?_, ?_⟩)
  · rw [missing, Finset.mem_filter] at hj ⊢
    exact ⟨hj.1, fun hold => hj.2 (mem_reachable_addReachable.2 (Or.inl hold))⟩
  · rw [missing, Finset.mem_filter, Finset.mem_range]
    exact ⟨hi, hnew⟩
  · rw [missing, Finset.mem_filter]
    exact fun h => h.2 (mem_reachable_addReachable.2 (Or.inr rfl))

/-! ## The measure -/

namespace State

variable (p : Program) (k : Nat)

/-- The work that is left, as far as moves are concerned. A pending method may push once for each
statement. -/
def weight (s : State) : Nat :=
  s.work.size + (s.flow.missing (p.pointerBound k)).card +
    (p.stmts.size + 1) * (s.pending.size + (s.calls.missing (p.methodBound k)).card)

/-- The work that is left. A new object of a pointer is passed on to all its successors, and may push
once for each call on it. -/
def potential (s : State) : Nat :=
  s.weight p k + (p.pointerBound k + p.stmts.size) *
    (s.elements.missing (p.pointerBound k) (p.objectBound k)).card

variable {p k} {s t : State}

/-- The weight depends on the work, the flow edges and the call graph only. -/
theorem Agrees.weight_eq (h : s.Agrees t) : t.weight p k = s.weight p k := by
  rw [weight, weight, h.work, h.flow, h.pending, CsCallGraph.missing, CsCallGraph.missing,
    h.reachable]

/-- A push weighs one more. -/
theorem weight_push (i : PointerId) (objects : ObjectSet) :
    (s.push i objects).weight p k = s.weight p k + 1 := by
  have hsize := s.work.size_push (i, objects)
  rw [weight, weight, push]
  dsimp only
  omega

/-- A new flow edge pays for the facts that it passes on. -/
theorem weight_addFlow_le {i j : PointerId} (hi : i.idx < p.pointerBound k)
    (hj : j.idx < p.pointerBound k) : (s.addFlow i j).weight p k ≤ s.weight p k := by
  have hedge (hnew : s.flow.hasEdge i j = false) :
      { s with flow := s.flow.addEdge i j }.weight p k < s.weight p k := by
    have hcard := FlowGraph.card_missing_addEdge hi hj hnew
    rw [weight, weight]
    dsimp only
    omega
  rcases s.addFlow_eq i j with ⟨heq, -⟩ | ⟨hnew, ⟨heq, -⟩ | heq⟩
  · rw [heq]
  · rw [heq]
    exact Nat.le_of_lt (hedge hnew)
  · rw [heq, weight_push]
    exact hedge hnew

/-- A method that becomes reachable pays for being pending. -/
theorem weight_reachMethod_le {i : CsMethodId} (hi : i.idx < p.methodBound k) :
    (s.reachMethod i).weight p k ≤ s.weight p k := by
  by_cases hr : s.calls.isReachable i = true
  · rw [reachMethod, if_pos hr]
  · have hcard := CsCallGraph.card_missing_addReachable (g := s.calls) hi
      fun hmem => hr (Array.contains_iff_mem.2 hmem)
    have hsize := s.pending.size_push i
    -- one method less is unreached, and one more is pending
    rw [reachMethod, if_neg hr, weight, weight]
    dsimp only
    refine Nat.add_le_add_left (Nat.mul_le_mul_left _ ?_) _
    omega

end State

/-! ## Moves -/

section Moves

variable {a : Analysis} {wf : a.program.WellFormed} {entry : MethodId} {s t : State}
  (hentry : entry.idx < a.program.methods.size)

/-- Identifiers of pointers are below the bound of their table. -/
theorem Bounded.pointer_lt {p : Program} {k : Nat} (h : Bounded p k s) {i : PointerId} {q : Pointer}
    (hi : s.IsPointer i q) : i.idx < p.pointerBound k :=
  Nat.lt_of_lt_of_le (Table.lt_size_of_getElem? hi) h.pointers

include hentry

/-- A move costs nothing. -/
theorem Move.weight_le (h : Move (a.theory wf entry) s t) (hs : Sound (a.theory wf entry) s) :
    t.weight a.program a.selector.bound ≤ s.weight a.program a.selector.bound := by
  have hbounded := hs.bounded hentry
  cases h with
  | silent h => exact Nat.le_of_eq h.weight_eq
  | flow h =>
      obtain ⟨p, q, -, -, hi, hj, -⟩ := h
      exact State.weight_addFlow_le (hbounded.pointer_lt hi) (hbounded.pointer_lt hj)
  | reach h =>
      exact State.weight_reachMethod_le
        (Nat.lt_of_lt_of_le (Table.lt_size_of_getElem? h) hbounded.methods)
  | unresolved h =>
      unfold State.markUnresolved
      split <;> exact Nat.le_refl _
  | inject hopen _ => exact hopen.elim
  | _ => exact Nat.le_refl _

/-- Moves that push nothing do not add weight: a pending method or a push is paid for by what is missing
no longer. -/
theorem Links.weight_le (h : Links (a.theory wf entry) s t) (hs : Sound (a.theory wf entry) s) :
    t.weight a.program a.selector.bound ≤ s.weight a.program a.selector.bound := by
  induction h with
  | refl => exact Nat.le_refl _
  | tail hrest hmove ih => exact (hmove.weight_le hentry (Links.sound hrest hs)).trans ih

/-- Moves cost as much as they push. -/
theorem Moves.weight_le {n : Nat} (h : Moves (a.theory wf entry) n s t)
    (hs : Sound (a.theory wf entry) s) :
    t.weight a.program a.selector.bound ≤ s.weight a.program a.selector.bound + n := by
  -- moves are paid for by the weight, and each push counts one; edges of the call graph are free
  induction h with
  | refl => exact Nat.le_add_right _ _
  | move h _ ih => exact (ih (h.sound hs)).trans (Nat.add_le_add_right (h.weight_le hentry hs) _)
  | @push n s t i objects h _ ih =>
      have hrest := ih ((State.push_gains hs h).sound hs)
      rw [State.weight_push] at hrest
      omega
  | @call n s t u e h links _ _ ih =>
      have hedge := (State.addEdge_gains hs h).sound hs
      have hlinks := Links.weight_le hentry links hedge
      have hsame : { s with calls := s.calls.addEdge e }.weight a.program a.selector.bound =
          s.weight a.program a.selector.bound := by
        rw [State.weight, State.weight, CsCallGraph.missing, CsCallGraph.missing,
          CsCallGraph.reachable_addEdge]
      have hrest := ih (Links.sound links hedge)
      omega

/-- Moves add no more to the potential than they push, as they change no set of objects. -/
theorem Moves.potential_le {n : Nat} (h : Moves (a.theory wf entry) n s t)
    (hs : Sound (a.theory wf entry) s) :
    t.potential a.program a.selector.bound ≤ s.potential a.program a.selector.bound + n := by
  have hweight := h.weight_le hentry hs
  have hsame : ∀ n m, t.elements.missing n m = s.elements.missing n m := fun n m => by
    simp only [Elements.missing, h.evolves.pointsTo]
  rw [State.potential, State.potential, hsame]
  omega

end Moves

/-! ## Steps -/

section Steps

variable {s t : State} {i : PointerId} {objects : ObjectSet}

/-- What is new in an entry is no longer missing. -/
theorem State.Absorbs.card_missing_le (h : s.Absorbs i objects t) {n m : Nat}
    (hrange : ∀ o, objects.contains o = true → i.idx < n ∧ o.idx < m) :
    (t.elements.missing n m).card + (objects.difference (s.elements.pointsTo i)).toList.length ≤
      (s.elements.missing n m).card := by
  -- the new objects, as pairs that are missing before and are not missing afterwards
  let found : List (Nat × Nat) :=
    (objects.difference (s.elements.pointsTo i)).toList.map fun o => (i.idx, o.idx)
  have hnodup : found.Nodup := by
    refine List.Nodup.map (fun o o' heq => ?_) (ObjectSet.nodup_toList _)
    cases o
    cases o'
    simpa using heq
  have hlength : found.toFinset.card =
      (objects.difference (s.elements.pointsTo i)).toList.length := by
    rw [List.toFinset_card_of_nodup hnodup, List.length_map]
  have hmem : ∀ x ∈ found.toFinset, ∃ o : CsObjectId, x = (i.idx, o.idx) ∧
      objects.contains o = true ∧ (s.elements.pointsTo i).contains o = false := by
    intro x hx
    obtain ⟨o, hnew, rfl⟩ := List.mem_map.1 (List.mem_toFinset.1 hx)
    rw [ObjectSet.mem_toList, ObjectSet.contains_difference, Bool.and_eq_true,
      Bool.not_eq_true'] at hnew
    exact ⟨o, rfl, hnew⟩
  have hdisjoint : Disjoint (t.elements.missing n m) found.toFinset := by
    refine Finset.disjoint_left.2 fun x hx hfound => ?_
    obtain ⟨o, rfl, hin, -⟩ := hmem x hfound
    have hgone := (Finset.mem_filter.1 hx).2
    rw [h.pointsTo] at hgone
    simp [hin] at hgone
  rw [← hlength, ← Finset.card_union_of_disjoint hdisjoint]
  refine Finset.card_le_card (Finset.union_subset (fun x hx => ?_) fun x hx => ?_)
  · obtain ⟨hx, hgone⟩ := Finset.mem_filter.1 hx
    rw [h.pointsTo, Bool.or_eq_false_iff] at hgone
    exact Finset.mem_filter.2 ⟨hx, hgone.1⟩
  · obtain ⟨o, rfl, hin, hold⟩ := hmem x hx
    obtain ⟨hi, ho⟩ := hrange o hin
    exact Finset.mem_filter.2 ⟨Finset.mem_product.2
      ⟨Finset.mem_range.2 hi, Finset.mem_range.2 ho⟩, hold⟩

variable {a : Analysis} {wf : a.program.WellFormed} {entry : MethodId}
  (hentry : entry.idx < a.program.methods.size) (hs : Sound (a.theory wf entry) s)

include hentry hs

/-- A pointer has no more successors than there are pointers, as each of them occurs once. -/
theorem Sound.length_successors_le (i : PointerId) :
    (s.flow.successors i).toList.length ≤ a.program.pointerBound a.selector.bound := by
  have hbounded := hs.bounded hentry
  have hnodup : ((s.flow.successors i).toList.map PointerId.idx).Nodup := by
    refine List.Nodup.map (fun q q' heq => ?_) (hs.simple i)
    cases q
    cases q'
    simpa using heq
  have hsub : (s.flow.successors i).toList.map PointerId.idx ⊆
      List.range (a.program.pointerBound a.selector.bound) := by
    intro n hn
    obtain ⟨q, hq, rfl⟩ := List.mem_map.1 hn
    obtain ⟨-, p, -, -, -, hp, -⟩ := hs.flow i q
      (Array.contains_iff_mem.2 (Array.mem_toList_iff.1 hq))
    exact List.mem_range.2 (hbounded.pointer_lt hp)
  have hlength := (List.subperm_of_subset hnodup hsub).length_le
  rwa [List.length_map, List.length_range] at hlength

/-- The successors of a pointer are told of what is new, if there is something. -/
theorem State.Absorbs.size_work_le (h : s.Absorbs i objects t) :
    t.work.size + 1 ≤ s.work.size + a.program.pointerBound a.selector.bound *
      (objects.difference (s.elements.pointsTo i)).toList.length := by
  obtain ⟨rest, hwork, hpassed⟩ := h.work
  rw [← Queue.length_toList, ← Queue.length_toList, hwork.length_eq, hpassed.length_eq,
    List.length_append, List.length_cons]
  split
  · rw [List.length_nil]
    omega
  · -- something is new, so the product is at least the number of successors
    rename_i hempty
    have hsome : 1 ≤ (objects.difference (s.elements.pointsTo i)).toList.length := by
      refine List.length_pos_iff.2 fun hnil => hempty ((ObjectSet.isEmpty_iff _).2 fun o => ?_)
      refine Bool.eq_false_iff.2 fun ho => ?_
      rw [← ObjectSet.mem_toList, hnil] at ho
      cases ho
    have hsuccessors := hs.length_successors_le hentry i
    have hpaid := Nat.le_mul_of_pos_right (a.program.pointerBound a.selector.bound) hsome
    rw [List.length_map]
    omega

/-- An entry that is absorbed pays for what is new in it. -/
theorem State.Absorbs.potential_lt (h : s.Absorbs i objects t) :
    t.potential a.program a.selector.bound +
        a.program.stmts.size * (objects.difference (s.elements.pointsTo i)).toList.length <
      s.potential a.program a.selector.bound := by
  have hsize := h.size_work_le hentry hs
  have hcard : (t.elements.missing (a.program.pointerBound a.selector.bound)
      (a.program.objectBound a.selector.bound)).card + _ ≤ _ := h.card_missing_le fun o ho => by
    obtain ⟨rest, hwork, -⟩ := h.work
    obtain ⟨p, _, _, hi, _, ⟨x, hx, _⟩, _⟩ :=
      hs.work i objects (hwork.mem_iff.2 (List.mem_cons_self ..)) o ho
    exact ⟨(hs.bounded hentry).pointer_lt hi,
      Nat.lt_of_lt_of_le (Table.lt_size_of_getElem? hx) (hs.bounded hentry).objects⟩
  -- each new object pays for the successors of the pointer and for the statements of the program
  have hscaled := Nat.mul_le_mul_left
    (a.program.pointerBound a.selector.bound + a.program.stmts.size) hcard
  obtain ⟨sets, work, n, rfl⟩ := h.shape
  rw [Nat.mul_add, Nat.add_mul _ _ (List.length _)] at hscaled
  simp only [State.potential, State.weight] at hsize hscaled ⊢
  omega

/-- A step makes progress, unless nothing is left to be done. -/
theorem StepTo.potential_lt_or_idle (h : StepTo (a.theory wf entry) s t) :
    t.potential a.program a.selector.bound < s.potential a.program a.selector.bound ∨
      t = s ∧ s.pending.toList = [] ∧ s.work.toList = [] := by
  cases h with
  | @visit j m rest _ pending _ moves _ =>
      -- the method that is taken pays for a push for each statement
      have hmoves := moves.potential_le hentry (hs.take pending)
      have hsize : s.pending.size = rest.size + 1 := by
        rw [← Queue.length_toList, pending.length_eq, List.length_cons, Queue.length_toList]
      have htaken : { s with pending := rest }.potential a.program a.selector.bound +
          (a.program.stmts.size + 1) = s.potential a.program a.selector.bound := by
        simp only [State.potential, State.weight, hsize, Nat.mul_add, Nat.mul_one]
        omega
      omega
  | fact absorbs moves _ =>
      have habsorbed := absorbs.potential_lt hentry hs
      have hmoves := moves.potential_le hentry (absorbs.sound hs)
      omega
  | idle pending work => exact Or.inr ⟨rfl, pending, work⟩

end Steps

end PointsTo
