import PointsTo.Proofs.Solver.View
import Mathlib.Logic.Relation

/-! # Moves of the solver

Whatever the solver does between taking one piece of work and the next is a sequence of a few kinds
of moves. A move interns an element, creates an object, adds a flow edge, makes a method reachable,
records an unresolved call or pushes objects for a pointer; a new call edge comes in one block with all
that it links. Each move says why it is made: the facts that it relies on are admitted by a theory of
the analysis.

That the operations of the solver are moves is the subject of another module; what every step keeps is
derived from the moves alone.
-/

namespace PointsTo

/-- A theory of an analysis: for each heap the facts that may be found, and the objects that may be
made. The facts are closed under the rules, and grow with the heap. -/
structure Theory (a : Analysis) (given : Fact → Prop) where
  /-- Elements and facts may come from outside of the program at any time. -/
  Open : Prop
  Admits : Heap → Fact → Prop
  Made : Object → Prop
  mono : ∀ {h k : Heap} {x : Fact}, h.Extends k → k.Distinct → Admits h x → Admits k x
  closed : ∀ h, Closed (Rule a.program a.selector h.find? given) (Admits h)
  owner : ∀ {h : Heap} {c : Context} {v : VarId} {o : HeapObject},
    Admits h (.pointsTo (.var c v) o) → Admits h (.reach ⟨c, (a.program.varAt v).method⟩)
  kind : ∀ {h : Heap} {k : CallKind} {site : CsCallSite} {callee : CsMethod} {call : Invoke},
    Admits h (.call k site callee) → (a.program.stmtAt site.stmt).kind = .invoke call →
      k = call.binding.kind
  made_new : ∀ {s : StmtId} {x : VarId} {t : Ty}, (a.program.stmtAt s).kind = .new x t →
    Made (a.program.allocated s t)
  made_unique : ∀ {s : StmtId} {x : VarId} {t : Ty} {o : Object},
    (a.program.stmtAt s).kind = .new x t → Made o → o.origin = .site s → o = a.program.allocated s t

variable {a : Analysis} {given : Fact → Prop}

namespace Theory

variable (T : Theory a given)

/-! ## Reasons for moves -/

/-- A pointer that may be met: a variable of a method that is reachable in the context, a field of
the program, or a slot of an object. -/
def Relevant (s : State) : Pointer → Prop
  | .var c v => (T.Open ∨ v.idx < a.program.vars.size) ∧
      T.Admits s.heap (.reach ⟨c, (a.program.varAt v).method⟩)
  | .staticField f => T.Open ∨ f.idx < a.program.fields.size
  | .instanceField i f => (∃ o, s.Denotes i o) ∧ (T.Open ∨ f.idx < a.program.fields.size)
  | .arrayIndex i => ∃ o, s.Denotes i o

/-- Some place may have the object in the heap context. -/
def Founded (s : State) (c : Context) (x : Object) : Prop :=
  ∃ z, T.Admits s.heap (.pointsTo z ⟨c, x⟩)

/-- The objects of the first place are objects of the second one, however the heap grows. -/
def Carries (s : State) (x y : Place) : Prop :=
  ∀ h : Heap, s.heap.Extends h → h.Distinct → ∀ o,
    T.Admits h (.pointsTo x o) → T.Admits h (.pointsTo y o)

/-- The pointer may have the objects. -/
def Justified (s : State) (i : PointerId) (objects : ObjectSet) : Prop :=
  ∀ o, objects.contains o = true → ∃ p x y, s.IsPointer i p ∧ s.Stands p x ∧ s.Denotes o y ∧
    T.Admits s.heap (.pointsTo x y)

/-- A flow edge between two pointers is justified. -/
def Flows (s : State) (i j : PointerId) : Prop :=
  ∃ p q x y, s.IsPointer i p ∧ s.IsPointer j q ∧ s.Stands p x ∧ s.Stands q y ∧ T.Carries s x y

/-- A call edge is justified. -/
def Calls (s : State) (e : CallEdge) : Prop :=
  ∃ site callee, s.IsCallSite e.callSite site ∧ s.IsMethod e.callee callee ∧
    T.Admits s.heap (.call e.kind site callee)

/-- A call site is one of a method that is reachable in the context. -/
def Sited (s : State) (c : CsCallSite) : Prop :=
  (T.Open ∨ ∃ call, (a.program.stmtAt c.stmt).kind = .invoke call) ∧
    T.Admits s.heap (.reach ⟨c.context, (a.program.stmtAt c.stmt).method⟩)

/-- An object of the heap in a heap context in which some place may have it. -/
def Housed (s : State) (c : CsObject) : Prop :=
  ∃ x, s.heap.objects[c.object.idx]? = some x ∧ c.container = x.container ∧
    T.Founded s c.context x

/-- Some object that the base variable of a call may have has no method for the call. -/
def Unanswered (s : State) (stmt : StmtId) : Prop :=
  ∃ call v c y, (a.program.stmtAt stmt).kind = .invoke call ∧ call.binding.base? = some v ∧
    T.Admits s.heap (.pointsTo (.var c v) y) ∧
    a.program.resolveCallee? (some y.object.type) call = none

section Mono

variable {T} {s t : State} (h : s.Extends t) (hd : t.heap.Distinct)

-- A larger heap admits what a smaller one does, and elements keep what they stand for; so no reason is
-- lost.
include h hd

/-- A pointer that may be met may still be met when the state has learnt more. -/
theorem Relevant.mono {p : Pointer} (hp : T.Relevant s p) : T.Relevant t p := by
  cases p with
  | var c v => exact ⟨hp.1, T.mono h.heap hd hp.2⟩
  | staticField f => exact hp
  | instanceField i f =>
      obtain ⟨⟨o, ho⟩, hf⟩ := hp
      exact ⟨⟨o, h.denotes ho⟩, hf⟩
  | arrayIndex i =>
      obtain ⟨o, ho⟩ := hp
      exact ⟨o, h.denotes ho⟩

/-- Some place may still have the object when the state has learnt more. -/
theorem Founded.mono {c : Context} {x : Object} (hx : T.Founded s c x) : T.Founded t c x := by
  obtain ⟨z, hz⟩ := hx
  exact ⟨z, T.mono h.heap hd hz⟩

omit hd in
/-- What is carried for every larger heap is carried for every heap larger than that. -/
theorem Carries.mono {x y : Place} (hc : T.Carries s x y) : T.Carries t x y :=
  fun k hk => hc k (h.heap.trans hk)

/-- Objects of a pointer stay justified, by the same places. -/
theorem Justified.mono {i : PointerId} {objects : ObjectSet} (hj : T.Justified s i objects) :
    T.Justified t i objects := by
  intro o ho
  obtain ⟨p, x, y, hi, hp, hy, hxy⟩ := hj o ho
  exact ⟨p, x, y, h.isPointer hi, h.stands hp, h.denotes hy, T.mono h.heap hd hxy⟩

omit hd in
/-- A flow edge stays justified, by the same places. -/
theorem Flows.mono {i j : PointerId} (hf : T.Flows s i j) : T.Flows t i j := by
  obtain ⟨p, q, x, y, hi, hj, hp, hq, hc⟩ := hf
  exact ⟨p, q, x, y, h.isPointer hi, h.isPointer hj, h.stands hp, h.stands hq, hc.mono h⟩

/-- A call edge stays justified, by the same elements. -/
theorem Calls.mono {e : CallEdge} (he : T.Calls s e) : T.Calls t e := by
  obtain ⟨site, callee, hs, hc, hcall⟩ := he
  exact ⟨site, callee, h.isCallSite hs, h.isMethod hc, T.mono h.heap hd hcall⟩

/-- A call site stays one of a reachable method. -/
theorem Sited.mono {c : CsCallSite} (hc : T.Sited s c) : T.Sited t c :=
  ⟨hc.1, T.mono h.heap hd hc.2⟩

/-- An object stays in the heap, and some place may still have it there. -/
theorem Housed.mono {c : CsObject} (hc : T.Housed s c) : T.Housed t c := by
  obtain ⟨x, hx, hcx, hf⟩ := hc
  exact ⟨x, h.heap _ _ hx, hcx, hf.mono h hd⟩

/-- A call without a method for some object stays so. -/
theorem Unanswered.mono {stmt : StmtId} (hu : T.Unanswered s stmt) : T.Unanswered t stmt := by
  obtain ⟨call, v, c, y, hkind, hbase, hadm, hnone⟩ := hu
  exact ⟨call, v, c, y, hkind, hbase, T.mono h.heap hd hadm, hnone⟩

end Mono

/-- A relevant pointer stands for a place. -/
theorem Relevant.stands {T : Theory a given} {s : State} {p : Pointer} (hp : T.Relevant s p) :
    ∃ x, s.Stands p x := by
  cases p with
  | var c v => exact ⟨_, .var c v⟩
  | staticField f => exact ⟨_, .staticField f⟩
  | instanceField i f =>
      obtain ⟨⟨o, ho⟩, -⟩ := hp
      exact ⟨_, .instanceField ho f⟩
  | arrayIndex i =>
      obtain ⟨o, ho⟩ := hp
      exact ⟨_, .arrayIndex ho⟩

/-- An inclusion whose premises are admitted carries objects. -/
theorem carries_of_inclusion {T : Theory a given} {s : State} {ps : List Fact} {x y : Place}
    (h : Inclusion a.program ps x y) (hps : ∀ q ∈ ps, T.Admits s.heap q) : T.Carries s x y := by
  intro k hk hd o ho
  refine T.closed k _ _ (.inclusion h o) fun q hq => ?_
  rcases List.mem_cons.1 hq with rfl | hq
  · exact ho
  · exact T.mono hk hd (hps q hq)

end Theory

/-! ## Moves -/

namespace State

/-- Arguments and results of a call are linked to the parameters and returned variables of a callee
with a body. -/
def Linked (p : Program) (s : State) (site : CsCallSite) (callee : CsMethod) : Prop :=
  ∀ call b, (p.stmtAt site.stmt).kind = .invoke call → (p.methodAt callee.method).body? = some b →
    (∀ pair ∈ call.args.zip b.params,
      s.HasFlow (.var site.context pair.1) (.var callee.context pair.2)) ∧
    ∀ x ∈ call.result?, ∀ r ∈ b.returns, s.HasFlow (.var callee.context r) (.var site.context x)

/-- The callee of an edge is reachable, and the call is linked. -/
def Wired (p : Program) (s : State) (e : CallEdge) : Prop :=
  e.callee ∈ s.calls.reachable ∧
    ∃ site callee, s.IsCallSite e.callSite site ∧ s.IsMethod e.callee callee ∧
      s.Linked p site callee

/-- Links of a call to a callee are never removed. -/
theorem Linked.mono {p : Program} {s t : State} {site : CsCallSite} {callee : CsMethod}
    (h : s.Linked p site callee) (hst : s.Extends t) : t.Linked p site callee := by
  intro call b hcall hb
  obtain ⟨hargs, hresult⟩ := h call b hcall hb
  exact ⟨fun pair hp => hst.hasFlow (hargs pair hp), fun x hx r hr => hst.hasFlow (hresult x hx r hr)⟩

/-- A call edge that was wired stays so. -/
theorem Wired.mono {p : Program} {s t : State} {e : CallEdge} (h : s.Wired p e)
    (hst : s.Extends t) : t.Wired p e := by
  obtain ⟨hreach, site, callee, hs, hc, hl⟩ := h
  exact ⟨hst.reachable _ hreach, site, callee, hst.isCallSite hs, hst.isMethod hc, hl.mono hst⟩

/-- The two states agree in all that matters to the analysis. -/
structure Agrees (s t : State) : Prop where
  heap : t.heap = s.heap
  elements : t.elements = s.elements
  flow : t.flow = s.flow
  entries : t.calls.entries = s.calls.entries
  reachable : t.calls.reachable = s.calls.reachable
  edges : t.calls.edges = s.calls.edges
  calls : t.calls.calls = s.calls.calls
  work : t.work = s.work
  pending : t.pending = s.pending
  unresolved : t.unresolved = s.unresolved

theorem Agrees.refl (s : State) : s.Agrees s := ⟨rfl, rfl, rfl, rfl, rfl, rfl, rfl, rfl, rfl, rfl⟩

/-- Agreement composes along two stretches in which nothing matters. -/
theorem Agrees.trans {s t u : State} (hst : s.Agrees t) (htu : t.Agrees u) : s.Agrees u where
  heap := htu.heap.trans hst.heap
  elements := htu.elements.trans hst.elements
  flow := htu.flow.trans hst.flow
  entries := htu.entries.trans hst.entries
  reachable := htu.reachable.trans hst.reachable
  edges := htu.edges.trans hst.edges
  calls := htu.calls.trans hst.calls
  work := htu.work.trans hst.work
  pending := htu.pending.trans hst.pending
  unresolved := htu.unresolved.trans hst.unresolved

end State

/-- A move that adds no call edge, and pushes nothing of its own unless the theory is open. -/
inductive Move (T : Theory a given) : State → State → Prop where
  /-- Something is reported or counted. -/
  | silent {s t : State} (h : s.Agrees t) : Move T s t
  | pointer {s : State} {p : Pointer} (h : T.Relevant s p) : Move T s (s.internPointer p).2
  | create {s : State} {o : Object} (h : T.Made o) {c : Context} (ho : T.Founded s c o) :
      Move T s { s with heap := (s.heap.intern o).2 }
  | object {s : State} {c : Context} {o : ObjectId} {x : Object}
      (ho : s.heap.objects[o.idx]? = some x) (hc : T.Founded s c x) :
      Move T s (s.internObject c o).2
  | callSite {s : State} {c : CsCallSite} (h : T.Sited s c) : Move T s (s.internCallSite c).2
  | method {s : State} {m : CsMethod} (h : T.Admits s.heap (.reach m)) :
      Move T s (s.internMethod m).2
  | flow {s : State} {i j : PointerId} (h : T.Flows s i j) : Move T s (s.addFlow i j)
  | reach {s : State} {i : CsMethodId} {m : CsMethod} (h : s.IsMethod i m) :
      Move T s (s.reachMethod i)
  | unresolved {s : State} {stmt : StmtId} (h : T.Unanswered s stmt) :
      Move T s (s.markUnresolved stmt)
  /-- Objects come from outside of the program. -/
  | inject {s : State} {i : PointerId} {objects : ObjectSet} (hopen : T.Open)
      (h : T.Justified s i objects) : Move T s (s.push i objects)

/-- Moves that add no call edge, and push nothing of their own unless the theory is open. -/
abbrev Links (T : Theory a given) : State → State → Prop := Relation.ReflTransGen (Move T)

/-- Moves of which at most `n` push objects of their own. -/
inductive Moves (T : Theory a given) : Nat → State → State → Prop where
  | refl (n : Nat) (s : State) : Moves T n s s
  | move {n : Nat} {s t u : State} (h : Move T s t) (rest : Moves T n t u) : Moves T n s u
  | push {n : Nat} {s u : State} {i : PointerId} {objects : ObjectSet}
      (h : T.Justified s i objects) (rest : Moves T n (s.push i objects) u) : Moves T (n + 1) s u
  /-- A new call edge, with all that it links. -/
  | call {n : Nat} {s t u : State} {e : CallEdge} (h : T.Calls s e)
      (links : Links T { s with calls := s.calls.addEdge e } t) (wired : t.Wired a.program e)
      (rest : Moves T n t u) : Moves T n s u

namespace Moves

variable {T : Theory a given}

/-- A bound on the pushes may be raised. -/
theorem weaken {m n : Nat} {s t : State} (h : Moves T m s t) (hmn : m ≤ n) : Moves T n s t := by
  induction h generalizing n with
  | refl m s => exact .refl n s
  | move h _ ih => exact .move h (ih hmn)
  | push h _ ih =>
      obtain ⟨k, rfl⟩ : ∃ k, n = k + 1 := ⟨n - 1, by omega⟩
      exact .push h (ih (by omega))
  | call h links wired _ ih => exact .call h links wired (ih hmn)

/-- The pushes of two sequences of moves add up. -/
theorem trans {m n : Nat} {s t u : State} (hst : Moves T m s t) (htu : Moves T n t u) :
    Moves T (m + n) s u := by
  induction hst with
  | refl m s => exact htu.weaken (Nat.le_add_left n m)
  | move h _ ih => exact .move h (ih htu)
  | @push m s t i objects h _ ih =>
      rw [Nat.add_right_comm]
      exact .push h (ih htu)
  | call h links wired _ ih => exact .call h links wired (ih htu)

/-- One move that pushes nothing, under any bound. -/
theorem single {n : Nat} {s t : State} (h : Move T s t) : Moves T n s t := .move h (.refl n t)

/-- Moves without pushes in front of others. -/
theorem linked {n : Nat} {s t u : State} (hst : Links T s t) (htu : Moves T n t u) :
    Moves T n s u := by
  induction hst using Relation.ReflTransGen.head_induction_on with
  | refl => exact htu
  | head h _ ih => exact .move h ih

end Moves

/-! ## States only learn -/

/-- A state that agrees with another one has learnt as much. -/
theorem State.Agrees.extends {s t : State} (h : s.Agrees t) : s.Extends t := by
  refine ⟨?_, ?_, ?_, ?_, ?_, ?_, ?_, ?_, ?_, ?_⟩
  · rw [h.heap]
    exact .refl _
  · rw [h.elements]
    exact .refl _
  · rw [h.elements]
    exact .refl _
  · rw [h.elements]
    exact .refl _
  · rw [h.elements]
    exact .refl _
  · intro i j hij
    rwa [h.flow]
  · intro e he
    rwa [h.edges]
  · intro m hm
    rwa [h.reachable]
  · intro i o ho
    simpa only [State.Awaits, h.elements, h.work] using ho
  · intro c hc
    rwa [h.unresolved]

/-- Recording an unresolved call forgets nothing. -/
theorem State.extends_markUnresolved (s : State) (c : StmtId) : s.Extends (s.markUnresolved c) := by
  unfold markUnresolved
  split
  · exact Extends.refl s
  · exact { Extends.refl s with unresolved := fun d hd => Array.mem_push.2 (Or.inl hd) }

/-- Exactly the call that was recorded is new among the unresolved ones. -/
theorem State.mem_unresolved_markUnresolved {s : State} {c d : StmtId} :
    d ∈ (s.markUnresolved c).unresolved ↔ d ∈ s.unresolved ∨ d = c := by
  unfold markUnresolved
  split
  · rename_i hc
    constructor
    · exact Or.inl
    · rintro (hd | rfl)
      · exact hd
      · exact Array.contains_iff_mem.1 hc
  · exact Array.mem_push

/-- Adding a call edge forgets nothing. -/
theorem State.extends_addEdge (s : State) (e : CallEdge) :
    s.Extends { s with calls := s.calls.addEdge e } :=
  { Extends.refl s with
    edges := fun _ he' => CsCallGraph.edges_subset_addEdge he'
    reachable := fun _ hm => by rwa [CsCallGraph.reachable_addEdge] }

/-- Making a method reachable forgets nothing. -/
theorem State.extends_reachMethod (s : State) (i : CsMethodId) : s.Extends (s.reachMethod i) := by
  unfold reachMethod
  split
  · exact Extends.refl s
  · exact { Extends.refl s with
      edges := fun e he => by rwa [CsCallGraph.edges_addReachable]
      reachable := fun m hm => CsCallGraph.mem_reachable_addReachable.2 (Or.inl hm) }

/-- Each kind of move only adds to the state. -/
theorem Move.extends {T : Theory a given} {s t : State} (h : Move T s t) : s.Extends t := by
  cases h with
  | silent h => exact h.extends
  | pointer => exact s.extends_internPointer _
  | create => exact { State.Extends.refl s with heap := s.heap.extends_intern _ }
  | object => exact s.extends_internObject _ _
  | callSite => exact s.extends_internCallSite _
  | method => exact s.extends_internMethod _
  | flow => exact s.extends_addFlow _ _
  | reach => exact s.extends_reachMethod _
  | unresolved => exact s.extends_markUnresolved _
  | inject => exact s.extends_push _ _

/-- So does a sequence of moves. -/
theorem Links.extends {T : Theory a given} {s t : State} (h : Links T s t) : s.Extends t := by
  induction h with
  | refl => exact State.Extends.refl _
  | tail _ h ih => exact ih.trans h.extends

/-- So does a sequence of moves with pushes and call edges. -/
theorem Moves.extends {T : Theory a given} {n : Nat} {s t : State} (h : Moves T n s t) :
    s.Extends t := by
  induction h with
  | refl => exact State.Extends.refl _
  | move h _ ih => exact h.extends.trans ih
  | push _ _ ih => exact (State.extends_push _ _ _).trans ih
  -- the edge comes first, then all that it links
  | call _ links _ _ ih =>
      exact ((State.extends_addEdge _ _).trans (Links.extends links)).trans ih

/-! ## Entry methods stay -/

/-- No move adds an entry method. -/
theorem Move.entries {T : Theory a given} {s t : State} (h : Move T s t) :
    t.calls.entries = s.calls.entries := by
  cases h with
  | silent h => exact h.entries
  | @flow i j h =>
      obtain ⟨flow, work, heq⟩ := s.addFlow_with i j
      rw [heq]
  | reach h =>
      unfold State.reachMethod CsCallGraph.addReachable
      split <;> rfl
  | unresolved h =>
      unfold State.markUnresolved
      split <;> rfl
  | _ => rfl

/-- Nor does a sequence of moves. -/
theorem Links.entries {T : Theory a given} {s t : State} (h : Links T s t) :
    t.calls.entries = s.calls.entries := by
  induction h with
  | refl => rfl
  | tail _ h ih => exact h.entries.trans ih

/-- Nor does a sequence of moves with pushes and call edges. -/
theorem Moves.entries {T : Theory a given} {n : Nat} {s t : State} (h : Moves T n s t) :
    t.calls.entries = s.calls.entries := by
  induction h with
  | refl => rfl
  | move h _ ih => exact ih.trans h.entries
  | push _ _ ih => exact ih
  | call _ links _ _ ih => exact ih.trans ((Links.entries links).trans (CsCallGraph.entries_addEdge ..))

end PointsTo
