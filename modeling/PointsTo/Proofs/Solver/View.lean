import PointsTo.Proofs.Solver.Rules
import PointsTo.Proofs.Solver.Tables
import PointsTo.Result.Query

/-! # What a state says

A state of the solver speaks about facts through the identifiers of its tables. `Holds` reads its
facts off, and `Extends` is the order in which states only learn: identifiers keep their meaning, and
edges, reachable methods and objects of pointers stay.
-/

namespace PointsTo

namespace State

/-! ## Facts of a state -/

/-- The object of an identifier. -/
def heapObject (s : State) (i : CsObjectId) : HeapObject :=
  ⟨(s.elements.object i).context, s.heap.get (s.elements.object i).object⟩

/-- The place that a pointer stands for. -/
def place (s : State) : Pointer → Place
  | .var c v => .var c v
  | .staticField f => .staticField f
  | .instanceField base f => .instanceField (s.heapObject base) f
  | .arrayIndex base => .arrayIndex (s.heapObject base)

/-- The facts that a state has found. A pointer that was never met has no objects. -/
def Holds (s : State) : Fact → Prop
  | .reach m => ∃ i ∈ s.calls.reachable, s.elements.method i = m
  | .call kind site callee => ∃ e ∈ s.calls.edges, e.kind = kind ∧
      s.elements.callSite e.callSite = site ∧ s.elements.method e.callee = callee
  | .pointsTo place o => ∃ p i, s.place p = place ∧
      (s.elements.objectsOf p).contains i = true ∧ s.heapObject i = o

/-! ## Identifiers and what they stand for -/

/-- The identifier is that of the pointer. -/
def IsPointer (s : State) (i : PointerId) (p : Pointer) : Prop :=
  s.elements.pointers.items[i.idx]? = some p

/-- The identifier is that of the object. -/
def IsObject (s : State) (i : CsObjectId) (o : CsObject) : Prop :=
  s.elements.objects.items[i.idx]? = some o

/-- The identifier is that of the call site. -/
def IsCallSite (s : State) (i : CsCallSiteId) (c : CsCallSite) : Prop :=
  s.elements.callSites.items[i.idx]? = some c

/-- The identifier is that of the method. -/
def IsMethod (s : State) (i : CsMethodId) (m : CsMethod) : Prop :=
  s.elements.methods.items[i.idx]? = some m

/-- The identifier stands for an object of the heap in a heap context. -/
def Denotes (s : State) (i : CsObjectId) (o : HeapObject) : Prop :=
  ∃ id : ObjectId, s.IsObject i ⟨o.context, id, o.object.container⟩ ∧
    s.heap.objects[id.idx]? = some o.object

/-- The pointer stands for the place, and its base for an object. -/
inductive Stands (s : State) : Pointer → Place → Prop where
  | var (c : Context) (v : VarId) : Stands s (.var c v) (.var c v)
  | staticField (f : FieldId) : Stands s (.staticField f) (.staticField f)
  | instanceField {i : CsObjectId} {o : HeapObject} (h : s.Denotes i o) (f : FieldId) :
      Stands s (.instanceField i f) (.instanceField o f)
  | arrayIndex {i : CsObjectId} {o : HeapObject} (h : s.Denotes i o) :
      Stands s (.arrayIndex i) (.arrayIndex o)

/-- The object that an identifier denotes is the one that is read off the tables. -/
theorem Denotes.heapObject {s : State} {i : CsObjectId} {o : HeapObject} (h : s.Denotes i o) :
    s.heapObject i = o := by
  obtain ⟨id, hi, ho⟩ := h
  have hobj : s.elements.object i = ⟨o.context, id, o.object.container⟩ :=
    Table.get_of_getElem? hi
  rw [State.heapObject, hobj]
  simp only [Heap.get_of_getElem? ho]

/-- The place that a pointer stands for is the one that is read off the tables. -/
theorem Stands.place {s : State} {p : Pointer} {a : Place} (h : s.Stands p a) : s.place p = a := by
  cases h with
  | var => rfl
  | staticField => rfl
  | instanceField h => rw [State.place, h.heapObject]
  | arrayIndex h => rw [State.place, h.heapObject]

theorem IsMethod.method {s : State} {i : CsMethodId} {m : CsMethod} (h : s.IsMethod i m) :
    s.elements.method i = m :=
  Table.get_of_getElem? h

theorem IsCallSite.callSite {s : State} {i : CsCallSiteId} {c : CsCallSite} (h : s.IsCallSite i c) :
    s.elements.callSite i = c :=
  Table.get_of_getElem? h

theorem IsPointer.pointer {s : State} {i : PointerId} {p : Pointer} (h : s.IsPointer i p) :
    s.elements.pointer i = p :=
  Table.get_of_getElem? h

theorem IsObject.object {s : State} {i : CsObjectId} {o : CsObject} (h : s.IsObject i o) :
    s.elements.object i = o :=
  Table.get_of_getElem? h

/-- A pointer has only one identifier. -/
theorem IsPointer.unique {s : State} {i j : PointerId} {p : Pointer} (hi : s.IsPointer i p)
    (hj : s.IsPointer j p) : i = j := by
  have := s.elements.pointers.distinct i.idx j.idx p hi hj
  cases i
  cases j
  exact congrArg PointerId.mk this

/-- If no two objects of the heap have the same origin, an object has only one identifier. -/
theorem Denotes.unique {s : State} (hd : s.heap.Distinct) {i j : CsObjectId} {o : HeapObject}
    (hi : s.Denotes i o) (hj : s.Denotes j o) : i = j := by
  obtain ⟨a, hia, ha⟩ := hi
  obtain ⟨b, hjb, hb⟩ := hj
  -- the objects of the heap are the same one, so are those of the table then
  have hab : a = b := by
    have := hd a.idx b.idx _ _ ha hb rfl
    cases a
    cases b
    exact congrArg ObjectId.mk this
  subst hab
  have := s.elements.objects.distinct i.idx j.idx _ hia hjb
  cases i
  cases j
  exact congrArg CsObjectId.mk this

/-- The objects of a pointer with an identifier. -/
theorem IsPointer.objectsOf {s : State} {i : PointerId} {p : Pointer} (h : s.IsPointer i p) :
    s.elements.objectsOf p = s.elements.pointsTo i := by
  have hf : s.elements.pointers.find? p = some i.idx :=
    (s.elements.pointers.find?_eq_some_iff p i.idx).2 h
  simp [Elements.objectsOf, Elements.findPointer?, hf]

/-- A pointer that has objects has an identifier. -/
theorem exists_isPointer {s : State} {p : Pointer} {o : CsObjectId}
    (h : (s.elements.objectsOf p).contains o = true) :
    ∃ i, s.IsPointer i p ∧ (s.elements.pointsTo i).contains o = true := by
  cases hf : s.elements.pointers.find? p with
  | none => simp [Elements.objectsOf, Elements.findPointer?, hf] at h
  | some n =>
      have hi : s.IsPointer ⟨n⟩ p := (s.elements.pointers.find?_eq_some_iff p n).1 hf
      rw [hi.objectsOf] at h
      exact ⟨⟨n⟩, hi, h⟩

/-! ## What is known about pointers and calls -/

/-- The object is one of the pointer, or will be: the work list has it for the pointer. -/
def Awaits (s : State) (i : PointerId) (o : CsObjectId) : Prop :=
  (s.elements.pointsTo i).contains o = true ∨
    ∃ objects, (i, objects) ∈ s.work.toList ∧ objects.contains o = true

/-- There is a flow edge between two pointers. -/
def HasFlow (s : State) (p q : Pointer) : Prop :=
  ∃ i j, s.IsPointer i p ∧ s.IsPointer j q ∧ s.flow.hasEdge i j = true

/-- The object is one of the pointer, or will be. -/
def Promises (s : State) (p : Pointer) (o : CsObjectId) : Prop :=
  ∃ i, s.IsPointer i p ∧ s.Awaits i o

/-- There is a call edge from a call site to a method. -/
def HasCall (s : State) (site : CsCallSite) (callee : CsMethod) : Prop :=
  ∃ e ∈ s.calls.edges, s.IsCallSite e.callSite site ∧ s.IsMethod e.callee callee

/-! ## States that learn -/

/-- The second state knows all that the first one knows, with the same identifiers. -/
structure Extends (s t : State) : Prop where
  heap : s.heap.Extends t.heap
  pointers : s.elements.pointers.Extends t.elements.pointers
  objects : s.elements.objects.Extends t.elements.objects
  callSites : s.elements.callSites.Extends t.elements.callSites
  methods : s.elements.methods.Extends t.elements.methods
  flow : ∀ i j, s.flow.hasEdge i j = true → t.flow.hasEdge i j = true
  edges : ∀ e ∈ s.calls.edges, e ∈ t.calls.edges
  reachable : ∀ m ∈ s.calls.reachable, m ∈ t.calls.reachable
  awaits : ∀ i o, s.Awaits i o → t.Awaits i o
  unresolved : ∀ c ∈ s.unresolved, c ∈ t.unresolved

namespace Extends

variable {s t u : State}

theorem refl (s : State) : s.Extends s :=
  ⟨.refl _, .refl _, .refl _, .refl _, .refl _, fun _ _ h => h, fun _ h => h, fun _ h => h,
    fun _ _ h => h, fun _ h => h⟩

/-- What is learnt in two stretches is learnt in one. -/
theorem trans (hst : s.Extends t) (htu : t.Extends u) : s.Extends u where
  heap := hst.heap.trans htu.heap
  pointers := hst.pointers.trans htu.pointers
  objects := hst.objects.trans htu.objects
  callSites := hst.callSites.trans htu.callSites
  methods := hst.methods.trans htu.methods
  flow i j h := htu.flow i j (hst.flow i j h)
  edges e h := htu.edges e (hst.edges e h)
  reachable m h := htu.reachable m (hst.reachable m h)
  awaits i o h := htu.awaits i o (hst.awaits i o h)
  unresolved c h := htu.unresolved c (hst.unresolved c h)

variable (h : s.Extends t)

-- what is said about a state in terms of identifiers stays true when the state learns more
include h

theorem isPointer {i : PointerId} {p : Pointer} (hi : s.IsPointer i p) : t.IsPointer i p :=
  h.pointers _ _ hi

theorem isObject {i : CsObjectId} {o : CsObject} (hi : s.IsObject i o) : t.IsObject i o :=
  h.objects _ _ hi

theorem isCallSite {i : CsCallSiteId} {c : CsCallSite} (hi : s.IsCallSite i c) : t.IsCallSite i c :=
  h.callSites _ _ hi

theorem isMethod {i : CsMethodId} {m : CsMethod} (hi : s.IsMethod i m) : t.IsMethod i m :=
  h.methods _ _ hi

/-- An identifier denotes the same object as before. -/
theorem denotes {i : CsObjectId} {o : HeapObject} (hi : s.Denotes i o) : t.Denotes i o := by
  obtain ⟨id, hid, ho⟩ := hi
  exact ⟨id, h.isObject hid, h.heap _ _ ho⟩

/-- A pointer stands for the same place as before. -/
theorem stands {p : Pointer} {a : Place} (hp : s.Stands p a) : t.Stands p a := by
  cases hp with
  | var => exact .var _ _
  | staticField => exact .staticField _
  | instanceField hd => exact .instanceField (h.denotes hd) _
  | arrayIndex hd => exact .arrayIndex (h.denotes hd)

/-- Flow edges stay between the pointers that they connect. -/
theorem hasFlow {p q : Pointer} (hf : s.HasFlow p q) : t.HasFlow p q := by
  obtain ⟨i, j, hi, hj, he⟩ := hf
  exact ⟨i, j, h.isPointer hi, h.isPointer hj, h.flow i j he⟩

/-- An object that is promised to a pointer stays promised to it. -/
theorem promises {p : Pointer} {o : CsObjectId} (hp : s.Promises p o) : t.Promises p o := by
  obtain ⟨i, hi, ho⟩ := hp
  exact ⟨i, h.isPointer hi, h.awaits i o ho⟩

/-- Call edges stay between the elements that they connect. -/
theorem hasCall {site : CsCallSite} {callee : CsMethod} (hc : s.HasCall site callee) :
    t.HasCall site callee := by
  obtain ⟨e, he, hsite, hcallee⟩ := hc
  exact ⟨e, h.edges e he, h.isCallSite hsite, h.isMethod hcallee⟩

end Extends

/-! ## Elements that a state interns -/

theorem isPointer_internPointer (s : State) (p : Pointer) :
    (s.internPointer p).2.IsPointer (s.internPointer p).1 p :=
  s.elements.pointers.getElem?_intern_self p

theorem isCallSite_internCallSite (s : State) (c : CsCallSite) :
    (s.internCallSite c).2.IsCallSite (s.internCallSite c).1 c :=
  s.elements.callSites.getElem?_intern_self c

theorem isMethod_internMethod (s : State) (m : CsMethod) :
    (s.internMethod m).2.IsMethod (s.internMethod m).1 m :=
  s.elements.methods.getElem?_intern_self m

/-- An object that is interned is that of the heap, in the given context. -/
theorem denotes_internObject {s : State} {o : ObjectId} {x : Object}
    (ho : s.heap.objects[o.idx]? = some x) (c : Context) :
    (s.internObject c o).2.Denotes (s.internObject c o).1 ⟨c, x⟩ := by
  have hself := s.elements.objects.getElem?_intern_self ⟨c, o, (s.heap.get o).container⟩
  rw [Heap.get_of_getElem? ho] at hself
  refine ⟨o, ?_, ho⟩
  rw [IsObject, internObject, Heap.get_of_getElem? ho]
  exact hself

/-- A pointer that is met for the first time has no objects yet, and all others keep theirs. -/
theorem pointsTo_internPointer (s : State) (p : Pointer) :
    (s.internPointer p).2.elements.pointsTo = s.elements.pointsTo :=
  s.elements.pointsTo_internPointer p

/-- Interning a pointer forgets nothing. -/
theorem extends_internPointer (s : State) (p : Pointer) : s.Extends (s.internPointer p).2 := by
  refine { Extends.refl s with
    pointers := s.elements.pointers.extends_intern p
    awaits := fun i o h => ?_ }
  rw [Awaits, pointsTo_internPointer]
  exact h

/-- Interning an object forgets nothing. -/
theorem extends_internObject (s : State) (c : Context) (o : ObjectId) :
    s.Extends (s.internObject c o).2 :=
  { Extends.refl s with objects := s.elements.objects.extends_intern _ }

/-- Interning a call site forgets nothing. -/
theorem extends_internCallSite (s : State) (c : CsCallSite) : s.Extends (s.internCallSite c).2 :=
  { Extends.refl s with callSites := s.elements.callSites.extends_intern c }

/-- Interning a method forgets nothing. -/
theorem extends_internMethod (s : State) (m : CsMethod) : s.Extends (s.internMethod m).2 :=
  { Extends.refl s with methods := s.elements.methods.extends_intern m }

/-- Pushing objects forgets nothing: what was on the work list is still there. -/
theorem extends_push (s : State) (i : PointerId) (objects : ObjectSet) :
    s.Extends (s.push i objects) := by
  refine { Extends.refl s with awaits := fun j o h => ?_ }
  rcases h with h | ⟨set, hmem, h⟩
  · exact Or.inl h
  · refine Or.inr ⟨set, ?_, h⟩
    rw [push, Queue.toList_push]
    exact List.mem_append_left _ hmem

/-- What is pushed for a pointer is awaited. -/
theorem awaits_push (s : State) (i : PointerId) {objects : ObjectSet} {o : CsObjectId}
    (h : objects.contains o = true) : (s.push i objects).Awaits i o := by
  refine Or.inr ⟨objects, ?_, h⟩
  rw [push, Queue.toList_push]
  exact List.mem_append_right _ (List.mem_singleton_self _)

/-- A state with a new flow edge, before the objects of its source are passed on. -/
theorem addFlow_eq (s : State) (i j : PointerId) :
    s.addFlow i j = s ∧ s.flow.hasEdge i j = true ∨
      s.flow.hasEdge i j = false ∧
        (s.addFlow i j = { s with flow := s.flow.addEdge i j } ∧
            (s.elements.pointsTo i).isEmpty = true ∨
          s.addFlow i j = { s with flow := s.flow.addEdge i j }.push j (s.elements.pointsTo i)) := by
  unfold addFlow
  by_cases h : s.flow.hasEdge i j = true
  · rw [if_pos h]
    exact Or.inl ⟨rfl, h⟩
  · rw [if_neg h]
    refine Or.inr ⟨by simpa using h, ?_⟩
    by_cases he : (s.elements.pointsTo i).isEmpty = true
    · simp only [he, if_true]
      exact Or.inl ⟨trivial, trivial⟩
    · simp only [he]
      exact Or.inr rfl

/-- Only the flow graph and the work list depend on a new flow edge. -/
theorem addFlow_with (s : State) (i j : PointerId) :
    ∃ flow work, s.addFlow i j = { s with flow := flow, work := work } := by
  rcases s.addFlow_eq i j with ⟨heq, -⟩ | ⟨-, ⟨heq, -⟩ | heq⟩
  · exact ⟨s.flow, s.work, heq⟩
  · exact ⟨_, s.work, heq⟩
  · exact ⟨_, _, heq⟩

/-- A flow edge that is added forgets nothing. -/
theorem extends_addFlow (s : State) (i j : PointerId) : s.Extends (s.addFlow i j) := by
  have hflow : s.Extends { s with flow := s.flow.addEdge i j } :=
    { Extends.refl s with flow := fun k l h => FlowGraph.hasEdge_addEdge.2 (Or.inl h) }
  -- the edge was there, or its source has no objects, or they are pushed for its target
  rcases s.addFlow_eq i j with ⟨heq, -⟩ | ⟨-, ⟨heq, -⟩ | heq⟩
  · rw [heq]
    exact Extends.refl s
  · rw [heq]
    exact hflow
  · rw [heq]
    exact hflow.trans (extends_push _ _ _)

/-- Exactly the edge that was added is new. -/
theorem hasEdge_addFlow (s : State) (i j k l : PointerId) :
    (s.addFlow i j).flow.hasEdge k l = true ↔ s.flow.hasEdge k l = true ∨ k = i ∧ l = j := by
  rcases s.addFlow_eq i j with ⟨heq, he⟩ | ⟨-, ⟨heq, -⟩ | heq⟩
  · rw [heq]
    constructor
    · exact Or.inl
    · rintro (h | ⟨rfl, rfl⟩)
      · exact h
      · exact he
  · rw [heq]
    exact FlowGraph.hasEdge_addEdge
  · rw [heq]
    exact FlowGraph.hasEdge_addEdge

/-- The objects of the source of a new edge are awaited by its target. -/
theorem awaits_addFlow {s : State} {i j : PointerId} {o : CsObjectId}
    (hnew : s.flow.hasEdge i j = false) (h : (s.elements.pointsTo i).contains o = true) :
    (s.addFlow i j).Awaits j o := by
  rcases s.addFlow_eq i j with ⟨-, he⟩ | ⟨-, ⟨-, hempty⟩ | heq⟩
  · rw [he] at hnew
    cases hnew
  · rw [(ObjectSet.isEmpty_iff _).1 hempty o] at h
    cases h
  · rw [heq]
    exact awaits_push _ j h

end State

/-- The facts that a run has found. -/
def Solution.Holds (r : Solution) : Fact → Prop := r.state.Holds

end PointsTo
