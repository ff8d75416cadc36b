import PointsTo.Proofs.Solver.Moves

/-! # Sound states

In a sound state everything is there for a reason: the elements of the tables may be met, and the
edges, the objects of pointers and the entries of the work list are justified by the theory of the
analysis. Moves keep states sound, because each of them only adds what it gives a reason for.
-/

namespace PointsTo

variable {a : Analysis} {given : Fact → Prop}

/-- All that a state knows, and all that it is about to learn, is admitted by the theory. -/
structure Sound (T : Theory a given) (s : State) : Prop where
  distinct : s.heap.Distinct
  made : ∀ (i : Nat) (o : Object), s.heap.objects[i]? = some o → T.Made o ∧ ∃ c, T.Founded s c o
  object : ∀ i o, s.IsObject i o → T.Housed s o
  pointer : ∀ i p, s.IsPointer i p → T.Relevant s p
  callSite : ∀ i c, s.IsCallSite i c → T.Sited s c
  method : ∀ i m, s.IsMethod i m → T.Admits s.heap (.reach m)
  reachable : ∀ i ∈ s.calls.reachable, ∃ m, s.IsMethod i m
  pending : ∀ i ∈ s.pending.toList, i ∈ s.calls.reachable
  simple : s.flow.Simple
  edge : ∀ e ∈ s.calls.edges, T.Calls s e
  flow : ∀ i j, s.flow.hasEdge i j = true → T.Flows s i j
  work : ∀ i objects, (i, objects) ∈ s.work.toList → T.Justified s i objects
  pointsTo : ∀ i, T.Justified s i (s.elements.pointsTo i)
  unresolved : ∀ c ∈ s.unresolved, T.Unanswered s c

/-- The second state extends the first one, and what is new in it is justified. What is not mentioned
is as it was. -/
structure Gains (T : Theory a given) (s t : State) : Prop extends s.Extends t where
  distinct : t.heap.Distinct
  simple : t.flow.Simple
  made : ∀ (i : Nat) (o : Object), t.heap.objects[i]? = some o →
    s.heap.objects[i]? = some o ∨ T.Made o ∧ ∃ c, T.Founded t c o := by exact fun _ _ => Or.inl
  object : ∀ i o, t.IsObject i o → s.IsObject i o ∨ T.Housed t o := by exact fun _ _ => Or.inl
  pointer : ∀ i p, t.IsPointer i p → s.IsPointer i p ∨ T.Relevant t p := by exact fun _ _ => Or.inl
  callSite : ∀ i c, t.IsCallSite i c → s.IsCallSite i c ∨ T.Sited t c := by exact fun _ _ => Or.inl
  method : ∀ i m, t.IsMethod i m → s.IsMethod i m ∨ T.Admits t.heap (.reach m) := by
    exact fun _ _ => Or.inl
  reached : ∀ i ∈ t.calls.reachable, i ∈ s.calls.reachable ∨ ∃ m, t.IsMethod i m := by
    exact fun _ => Or.inl
  pending : ∀ i ∈ t.pending.toList, i ∈ s.pending.toList ∨ i ∈ t.calls.reachable := by
    exact fun _ => Or.inl
  edge : ∀ e ∈ t.calls.edges, e ∈ s.calls.edges ∨ T.Calls t e := by exact fun _ => Or.inl
  linked : ∀ i j, t.flow.hasEdge i j = true → s.flow.hasEdge i j = true ∨ T.Flows t i j := by
    exact fun _ _ => Or.inl
  work : ∀ i objects, (i, objects) ∈ t.work.toList →
    (i, objects) ∈ s.work.toList ∨ T.Justified t i objects := by exact fun _ _ => Or.inl
  pointsTo : ∀ i, t.elements.pointsTo i = s.elements.pointsTo i ∨
    T.Justified t i (t.elements.pointsTo i) := by exact fun _ => Or.inl rfl
  marked : ∀ c ∈ t.unresolved, c ∈ s.unresolved ∨ T.Unanswered t c := by exact fun _ => Or.inl

variable {T : Theory a given} {s t : State}

/-- A state that gains only what is justified stays sound. -/
theorem Gains.sound (h : Gains T s t) (hs : Sound T s) : Sound T t where
  -- What is new is justified as the second state requires. What is old stays justified, since the state
  -- has grown.
  distinct := h.distinct
  made i o ho := by
    rcases h.made i o ho with ho | ho
    · obtain ⟨hmade, c, hc⟩ := hs.made i o ho
      exact ⟨hmade, c, hc.mono h.toExtends h.distinct⟩
    · exact ho
  object i o ho := (h.object i o ho).elim
    (fun ho => (hs.object i o ho).mono h.toExtends h.distinct) id
  pointer i p hp := (h.pointer i p hp).elim
    (fun hp => (hs.pointer i p hp).mono h.toExtends h.distinct) id
  callSite i c hc := (h.callSite i c hc).elim
    (fun hc => (hs.callSite i c hc).mono h.toExtends h.distinct) id
  method i m hm := (h.method i m hm).elim
    (fun hm => T.mono h.heap h.distinct (hs.method i m hm)) id
  reachable i hi := by
    rcases h.reached i hi with hi | hi
    · obtain ⟨m, hm⟩ := hs.reachable i hi
      exact ⟨m, h.isMethod hm⟩
    · exact hi
  pending i hi := (h.pending i hi).elim (fun hi => h.reachable i (hs.pending i hi)) id
  simple := h.simple
  edge e he := (h.edge e he).elim (fun he => (hs.edge e he).mono h.toExtends h.distinct) id
  flow i j hij := (h.linked i j hij).elim (fun hij => (hs.flow i j hij).mono h.toExtends) id
  work i objects hi := (h.work i objects hi).elim
    (fun hi => (hs.work i objects hi).mono h.toExtends h.distinct) id
  pointsTo i := by
    rcases h.pointsTo i with hi | hi
    · rw [hi]
      exact (hs.pointsTo i).mono h.toExtends h.distinct
    · exact hi
  unresolved c hc := (h.marked c hc).elim
    (fun hc => (hs.unresolved c hc).mono h.toExtends h.distinct) id

/-! ## Moves keep states sound -/

/-- Where nothing matters to the analysis, nothing is gained. -/
theorem State.Agrees.gains (h : s.Agrees t) (hs : Sound T s) : Gains T s t where
  toExtends := h.extends
  distinct := by rw [h.heap]; exact hs.distinct
  simple := by rw [h.flow]; exact hs.simple
  made i o ho := Or.inl (by rwa [h.heap] at ho)
  object i o ho := Or.inl (by rwa [State.IsObject, h.elements] at ho)
  pointer i p hp := Or.inl (by rwa [State.IsPointer, h.elements] at hp)
  callSite i c hc := Or.inl (by rwa [State.IsCallSite, h.elements] at hc)
  method i m hm := Or.inl (by rwa [State.IsMethod, h.elements] at hm)
  reached i hi := Or.inl (by rwa [h.reachable] at hi)
  pending i hi := Or.inl (by rwa [h.pending] at hi)
  edge e he := Or.inl (by rwa [h.edges] at he)
  linked i j hij := Or.inl (by rwa [h.flow] at hij)
  work i objects hi := Or.inl (by rwa [h.work] at hi)
  pointsTo i := Or.inl (by rw [h.elements])
  marked c hc := Or.inl (by rwa [h.unresolved] at hc)

/-- Objects that are pushed have to be justified. -/
theorem State.push_gains (hs : Sound T s) {i : PointerId} {objects : ObjectSet}
    (h : T.Justified s i objects) : Gains T s (s.push i objects) where
  toExtends := s.extends_push i objects
  distinct := hs.distinct
  simple := hs.simple
  work j set hj := by
    rw [State.push, Queue.toList_push, List.mem_append, List.mem_singleton, Prod.mk.injEq] at hj
    rcases hj with hj | ⟨rfl, rfl⟩
    · exact Or.inl hj
    · exact Or.inr (h.mono (s.extends_push j set) hs.distinct)

/-- A call edge that is added has to be justified. -/
theorem State.addEdge_gains (hs : Sound T s) {e : CallEdge} (h : T.Calls s e) :
    Gains T s { s with calls := s.calls.addEdge e } where
  toExtends := s.extends_addEdge e
  distinct := hs.distinct
  simple := hs.simple
  reached i hi := Or.inl (by rwa [CsCallGraph.reachable_addEdge] at hi)
  edge e' he' := by
    rcases CsCallGraph.mem_edges_addEdge he' with he' | rfl
    · exact Or.inl he'
    · exact Or.inr (h.mono (s.extends_addEdge e') hs.distinct)

/-- What the source of a justified edge may have, its target may have. -/
theorem Theory.Flows.justified {i j : PointerId} {objects : ObjectSet} (h : T.Flows s i j)
    (hd : s.heap.Distinct) (hi : T.Justified s i objects) : T.Justified s j objects := by
  intro o ho
  obtain ⟨p, q, x, y, hp, hq, hx, hy, hc⟩ := h
  obtain ⟨p', x', z, hp', hx', hz, hadm⟩ := hi o ho
  -- both reasons are about the same pointer, hence about the same place
  obtain rfl : p' = p := Option.some.inj (hp'.symm.trans hp)
  obtain rfl : x' = x := hx'.place.symm.trans hx.place
  exact ⟨q, y, z, hq, hy, hz, hc _ (.refl _) hd z hadm⟩

/-- A new flow edge passes on nothing but what it justifies. -/
theorem Sound.addFlow (hs : Sound T s) {i j : PointerId} (h : T.Flows s i j) :
    Sound T (s.addFlow i j) := by
  have hext : s.Extends { s with flow := s.flow.addEdge i j } :=
    { State.Extends.refl s with flow := fun k l h => FlowGraph.hasEdge_addEdge.2 (Or.inl h) }
  have hedge : Sound T { s with flow := s.flow.addEdge i j } := by
    refine Gains.sound { hext with
      distinct := hs.distinct
      simple := hs.simple.addEdge i j
      linked := fun k l hkl => ?_ } hs
    rcases FlowGraph.hasEdge_addEdge.1 hkl with hkl | ⟨rfl, rfl⟩
    · exact Or.inl hkl
    · exact Or.inr (h.mono hext)
  -- the edge is old, or its source has no objects, or they are pushed for its target
  rcases s.addFlow_eq i j with ⟨heq, -⟩ | ⟨-, ⟨heq, -⟩ | heq⟩
  · rw [heq]
    exact hs
  · rw [heq]
    exact hedge
  · rw [heq]
    exact (State.push_gains hedge
      ((h.mono hext).justified hedge.distinct (hedge.pointsTo i))).sound hedge

/-- A method becomes reachable only under an identifier of the table. -/
theorem Sound.reachMethod (hs : Sound T s) {i : CsMethodId} {m : CsMethod} (h : s.IsMethod i m) :
    Sound T (s.reachMethod i) := by
  by_cases hr : s.calls.isReachable i = true
  · rw [State.reachMethod, if_pos hr]
    exact hs
  · have hext := s.extends_reachMethod i
    rw [State.reachMethod, if_neg hr] at hext ⊢
    -- the method is new, and it is also one that is still to be visited
    refine Gains.sound { hext with
      distinct := hs.distinct
      simple := hs.simple
      edge := fun e he => Or.inl (by rwa [CsCallGraph.edges_addReachable] at he)
      reached := fun j hj => ?_
      pending := fun j hj => ?_ } hs
    · rcases CsCallGraph.mem_reachable_addReachable.1 hj with hj | rfl
      · exact Or.inl hj
      · exact Or.inr ⟨m, h⟩
    · rw [Queue.toList_push, List.mem_append, List.mem_singleton] at hj
      rcases hj with hj | rfl
      · exact Or.inl hj
      · exact Or.inr (CsCallGraph.mem_reachable_addReachable.2 (Or.inr rfl))

/-- A call is recorded only if some receiver leaves it without a method. -/
theorem Sound.markUnresolved (hs : Sound T s) {stmt : StmtId} (h : T.Unanswered s stmt) :
    Sound T (s.markUnresolved stmt) := by
  have hext := s.extends_markUnresolved stmt
  have hmem {d : StmtId} := State.mem_unresolved_markUnresolved (s := s) (c := stmt) (d := d)
  by_cases hc : s.unresolved.contains stmt = true
  · rw [State.markUnresolved, if_pos hc]
    exact hs
  · rw [State.markUnresolved, if_neg hc] at hext hmem ⊢
    refine Gains.sound { hext with
      distinct := hs.distinct
      simple := hs.simple
      marked := fun d hd => (hmem.1 hd).imp id ?_ } hs
    rintro rfl
    exact h.mono hext hs.distinct

/-- Every move keeps a state sound. -/
theorem Move.sound (h : Move T s t) (hs : Sound T s) : Sound T t := by
  -- an interned element is an old one, or the one for which the move gives a reason
  cases h with
  | silent h => exact (h.gains hs).sound hs
  | @pointer p h =>
      refine Gains.sound { s.extends_internPointer p with
        distinct := hs.distinct
        simple := hs.simple
        pointer := fun i q hq => (Table.of_getElem?_intern hq).imp id ?_
        pointsTo := fun i => Or.inl (congrFun (s.pointsTo_internPointer p) i) } hs
      rintro rfl
      exact h.mono (s.extends_internPointer q) hs.distinct
  | @create o h c hc =>
      have hext : s.Extends { s with heap := (s.heap.intern o).2 } :=
        { State.Extends.refl s with heap := s.heap.extends_intern o }
      refine Gains.sound { hext with
        distinct := hs.distinct.intern o
        simple := hs.simple
        made := fun i x hx => (Heap.of_getElem?_intern hx).imp id ?_ } hs
      rintro rfl
      exact ⟨h, c, hc.mono hext (hs.distinct.intern _)⟩
  | @object c o x ho hc =>
      refine Gains.sound { s.extends_internObject c o with
        distinct := hs.distinct
        simple := hs.simple
        object := fun i y hy => (Table.of_getElem?_intern hy).imp id ?_ } hs
      rintro rfl
      exact ⟨x, ho, by rw [Heap.get_of_getElem? ho],
        hc.mono (s.extends_internObject c o) hs.distinct⟩
  | @callSite c h =>
      refine Gains.sound { s.extends_internCallSite c with
        distinct := hs.distinct
        simple := hs.simple
        callSite := fun i c' hc' => (Table.of_getElem?_intern hc').imp id ?_ } hs
      rintro rfl
      exact h.mono (s.extends_internCallSite c') hs.distinct
  | @method m h =>
      refine Gains.sound { s.extends_internMethod m with
        distinct := hs.distinct
        simple := hs.simple
        method := fun i m' hm' => (Table.of_getElem?_intern hm').imp id ?_ } hs
      rintro rfl
      exact h
  | flow h => exact hs.addFlow h
  | reach h => exact hs.reachMethod h
  | unresolved h => exact hs.markUnresolved h
  | inject _ h => exact (State.push_gains hs h).sound hs

/-- The object of an interned origin is the one that was given, if no other one can have been made. -/
theorem Sound.getElem?_intern (hs : Sound T s) {o : Object}
    (h : ∀ o', T.Made o' → o'.origin = o.origin → o' = o) :
    (s.heap.intern o).2.objects[(s.heap.intern o).1.idx]? = some o := by
  obtain ⟨x, hx, horigin⟩ := s.heap.getElem?_intern_self o
  rcases Heap.of_getElem?_intern hx with hold | hnew
  · rwa [h x (hs.made _ _ hold).1 horigin] at hx
  · rwa [hnew] at hx

/-- So does a sequence of moves that push nothing. -/
theorem Links.sound (h : Links T s t) (hs : Sound T s) : Sound T t := by
  induction h with
  | refl => exact hs
  | tail _ h ih => exact h.sound ih

/-- Whatever the solver does by moves, its states stay sound. -/
theorem Moves.sound {n : Nat} (h : Moves T n s t) (hs : Sound T s) : Sound T t := by
  induction h with
  | refl => exact hs
  | move h _ ih => exact ih (h.sound hs)
  | push h _ ih => exact ih ((State.push_gains hs h).sound hs)
  | call h links _ _ ih => exact ih (Links.sound links ((State.addEdge_gains hs h).sound hs))

end PointsTo
