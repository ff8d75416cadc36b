import PointsTo.Proofs.Solver.Grounding
import PointsTo.Proofs.Solver.Injection
import PointsTo.Proofs.Solver.Steady

/-! # Notices are given once

Whatever a run finds, it tells the extensions once. The notices that were given, those that are owed, and
those of the methods that are still to be visited, in this order, give account of the state at any time:
of the call graph, by `TellsCalls`, and of the objects of variables, by `TellsObjects`. A round only moves
a notice from those that are owed to those that were given; whatever the solver finds, it owes.
-/

namespace PointsTo

namespace Notice

def method? : Notice → Option CsMethodId
  | methodReached i => some i
  | _ => none

def call? : Notice → Option CallEdge
  | callAdded e => some e
  | _ => none

/-- The objects that were added to those of a pointer. -/
def objects? (i : PointerId) : Notice → Option ObjectSet
  | objectsAdded j objects => if j = i then some objects else none
  | _ => none

end Notice

namespace State

/-- Objects that a notice brings to a pointer are objects of the pointer. -/
def Confirms (s : State) : Notice → Prop
  | .objectsAdded i objects => ∀ o, objects.contains o = true → (s.elements.pointsTo i).contains o = true
  | _ => True

/-- Notices of the methods that are still to be visited. -/
def visits (s : State) : List Notice := s.pending.toList.map .methodReached

/-- The notices tell of every reachable method and of every call edge once, in the order of discovery. A
method is told of after the first edge to it, by which it was discovered; only the entry method needs no
edge. -/
structure TellsCalls (s : State) (entry : MethodId) (ns : List Notice) : Prop where
  methods : ns.filterMap Notice.method? = s.calls.reachable.toList
  calls : ns.filterMap Notice.call? = s.calls.edges.toList
  distinctMethods : s.calls.reachable.toList.Nodup
  distinctCalls : s.calls.edges.toList.Nodup
  discovered : ∀ i ∈ s.calls.reachable, s.IsMethod i ⟨[], entry⟩ ∨
    ∃ e, s.calls.edges.toList.find? (·.callee = i) = some e ∧
      [.callAdded e, .methodReached i].Sublist ns
  coherent : s.calls.Coherent

/-- The sets of objects that the notices bring to a pointer have objects of the pointer, at least one, and
no two of them have one in common. Those of a variable have all its objects. -/
structure TellsObjects (s : State) (ns : List Notice) : Prop where
  nonempty : ∀ i, ∀ objects ∈ ns.filterMap (Notice.objects? i), objects.isEmpty = false
  part : ∀ i, ∀ objects ∈ ns.filterMap (Notice.objects? i), ∀ o, objects.contains o = true →
    (s.elements.pointsTo i).contains o = true
  disjoint : ∀ i, (ns.filterMap (Notice.objects? i)).Pairwise fun x y =>
    ∀ o, x.contains o = true → y.contains o = false
  whole : ∀ i c v, s.IsPointer i (.var c v) → ∀ o, (s.elements.pointsTo i).contains o = true →
    ∃ objects ∈ ns.filterMap (Notice.objects? i), objects.contains o = true
  known : ∀ i o, (s.elements.pointsTo i).contains o = true → ∃ p, s.IsPointer i p

/-! ## The call graph -/

section Calls

variable {s t : State} {entry : MethodId} {n : Notice} {ns ms : List Notice}

/-- Notices of visits tell of no call edge. -/
theorem filterMap_call_visits (s : State) : s.visits.filterMap Notice.call? = [] := by
  refine List.filterMap_eq_nil_iff.2 fun n hn => ?_
  obtain ⟨i, -, rfl⟩ := List.mem_map.1 hn
  rfl

theorem Steady.visits (h : s.Steady t) : t.visits = s.visits := by
  rw [State.visits, State.visits, h.pending]

/-- What was told of calls stays true in a state with the same call graph. -/
theorem TellsCalls.mono (h : s.TellsCalls entry ns) (hst : s.Extends t)
    (hreachable : t.calls.reachable = s.calls.reachable) (hedges : t.calls.edges = s.calls.edges) :
    t.TellsCalls entry ns where
  methods := by
    rw [hreachable]
    exact h.methods
  calls := by
    rw [hedges]
    exact h.calls
  distinctMethods := by
    rw [hreachable]
    exact h.distinctMethods
  distinctCalls := by
    rw [hedges]
    exact h.distinctCalls
  discovered i hi := by
    rw [hreachable] at hi
    rw [hedges]
    exact (h.discovered i hi).imp_left hst.isMethod
  coherent := t.calls.coherent

/-- What was told of calls stays true in a steady state. -/
theorem TellsCalls.steady (h : s.TellsCalls entry ns) (hst : s.Steady t) : t.TellsCalls entry ns :=
  h.mono hst.toExtends hst.sameReachable hst.sameEdges

/-- A notice that tells of no method may be given before others that tell of no call, if its call is the
last edge. -/
theorem TellsCalls.insert (h : s.TellsCalls entry (ns ++ ms)) (hn : n.method? = none)
    (hms : ms.filterMap Notice.call? = []) (hst : s.Extends t)
    (hreachable : t.calls.reachable = s.calls.reachable)
    (hedges : t.calls.edges.toList = s.calls.edges.toList ++ n.call?.toList)
    (hdistinct : t.calls.edges.toList.Nodup) :
    t.TellsCalls entry (ns ++ n :: ms) where
  methods := by
    rw [List.filterMap_append, List.filterMap_cons_none hn, ← List.filterMap_append, hreachable]
    exact h.methods
  calls := by
    have hcalls := h.calls
    rw [List.filterMap_append, hms, List.append_nil] at hcalls
    rw [hedges, ← hcalls, List.filterMap_append, List.filterMap_cons, hms]
    cases n.call? <;> rfl
  distinctMethods := by
    rw [hreachable]
    exact h.distinctMethods
  distinctCalls := hdistinct
  discovered i hi := by
    rw [hreachable] at hi
    -- The notice of the edge that discovered a method stays in front of that of the method.
    refine (h.discovered i hi).imp hst.isMethod ?_
    rintro ⟨e, he, hbefore⟩
    refine ⟨e, by rw [hedges, List.find?_append, he]; rfl, hbefore.trans ?_⟩
    exact (List.sublist_cons_self n ms).append_left ns
  coherent := t.calls.coherent

/-- A notice that tells of no method and of no call may be given at any time. -/
theorem TellsCalls.insert_other (h : s.TellsCalls entry (ns ++ ms)) (hn : n.method? = none)
    (hcall : n.call? = none) (hms : ms.filterMap Notice.call? = []) : s.TellsCalls entry (ns ++ n :: ms) :=
  h.insert hn hms (.refl s) rfl (by rw [hcall]; simp) h.distinctCalls

/-- A new edge is told of before all that is owed. -/
theorem TellsCalls.addEdge (h : s.TellsCalls entry (ns ++ ms)) (hms : ms.filterMap Notice.call? = [])
    {e : CallEdge} (hnew : s.calls.hasEdge e = false) :
    TellsCalls { s with calls := s.calls.addEdge e } entry (ns ++ .callAdded e :: ms) := by
  have hedges : (s.calls.addEdge e).edges.toList = s.calls.edges.toList ++ [e] := by
    -- a set that was told is an old one or the difference, and the difference has no old object in it
    rw [CsCallGraph.addEdge, if_neg (by simp [hnew]), Array.toList_push]
  have hfresh : e ∉ s.calls.edges.toList := fun he => by
    rw [CsCallGraph.hasEdge_iff.2 ⟨e, Array.mem_toList_iff.1 he, rfl, rfl⟩] at hnew
    cases hnew
  refine h.insert rfl hms (s.extends_addEdge e) (CsCallGraph.reachable_addEdge _ _) hedges ?_
  rw [hedges]
  exact h.distinctCalls.append (List.nodup_singleton e) (List.disjoint_singleton.2 hfresh)

/-- Every edge is told of. -/
theorem TellsCalls.mem_of_edge (h : s.TellsCalls entry ns) {e : CallEdge} (he : e ∈ s.calls.edges) :
    .callAdded e ∈ ns := by
  rw [← Array.mem_toList_iff, ← h.calls] at he
  obtain ⟨n, hn, hcall⟩ := List.mem_filterMap.1 he
  cases n with
  | callAdded e' =>
      cases hcall
      exact hn
  | _ => cases hcall

/-- A method that is made reachable by an edge is told of after all that is told so far. -/
theorem TellsCalls.reachMethod (h : s.TellsCalls entry (ns ++ s.visits)) {i : CsMethodId}
    (hi : ∃ e ∈ s.calls.edges, e.callee = i) :
    (s.reachMethod i).TellsCalls entry (ns ++ (s.reachMethod i).visits) := by
  have hext := s.extends_reachMethod i
  -- A method that was reachable is not told of again.
  rcases s.reachMethod_cases i with ⟨heq, -⟩ | ⟨hnew, heq⟩
  · rwa [heq]
  · rw [heq] at hext ⊢
    have hvisits : visits { s with
        calls := { s.calls with reachable := s.calls.reachable.push i },
        pending := s.pending.push i } = s.visits ++ [.methodReached i] := by
      simp [visits]
    rw [hvisits, ← List.append_assoc]
    refine ⟨?_, ?_, ?_, h.distinctCalls, fun j hj => ?_, CsCallGraph.coherent _⟩
    · rw [List.filterMap_append, h.methods, Array.toList_push]
      rfl
    · rw [List.filterMap_append, h.calls]
      exact List.append_nil _
    · rw [Array.toList_push]
      refine h.distinctMethods.append (List.nodup_singleton i) (List.disjoint_singleton.2 ?_)
      rwa [Array.mem_toList_iff]
    · rcases Array.mem_push.1 hj with hj | rfl
      · refine (h.discovered j hj).imp hext.isMethod ?_
        rintro ⟨e, he, hbefore⟩
        exact ⟨e, he, hbefore.trans (List.sublist_append_left _ _)⟩
      · -- the first edge to the method was told of already
        obtain ⟨e, he, hcallee⟩ := hi
        obtain ⟨e', he'⟩ : ∃ e', s.calls.edges.toList.find? (·.callee = j) = some e' := by
          refine Option.isSome_iff_exists.1 (List.find?_isSome.2 ⟨e, Array.mem_toList_iff.2 he, ?_⟩)
          exact decide_eq_true hcallee
        have htold := h.mem_of_edge (Array.mem_toList_iff.1 (List.mem_of_find?_eq_some he'))
        exact Or.inr ⟨e', he', (List.singleton_sublist.2 htold).append (List.Sublist.refl _)⟩

end Calls

/-! ## Objects -/

section Objects

/-- Reaching a method adds no element. -/
theorem elements_reachMethod (s : State) (i : CsMethodId) :
    (s.reachMethod i).elements = s.elements := by
  rcases s.reachMethod_cases i with ⟨heq, -⟩ | ⟨-, heq⟩ <;> rw [heq]

variable {s t : State} {n : Notice} {ns ms : List Notice}

/-- Whether a notice is confirmed depends on the objects of pointers only. -/
theorem Confirms.congr (h : s.Confirms n) (hsets : t.elements.pointsTo = s.elements.pointsTo) :
    t.Confirms n := by
  cases n with
  | objectsAdded i objects =>
      rw [Confirms, hsets]
      exact h
  | _ => trivial

/-- What is owed is true already. -/
theorem TellsObjects.confirms (h : s.TellsObjects ns) (hn : n ∈ ns) : s.Confirms n := by
  cases n with
  | objectsAdded i objects => exact h.part i objects (List.mem_filterMap.2 ⟨_, hn, if_pos rfl⟩)
  | _ => trivial

/-- What was told of objects stays true in a state with the same objects of pointers. -/
theorem TellsObjects.mono (h : s.TellsObjects ns) (hst : s.Extends t)
    (hsets : t.elements.pointsTo = s.elements.pointsTo) : t.TellsObjects ns := by
  have hpointsTo : ∀ i, t.elements.pointsTo i = s.elements.pointsTo i := congrFun hsets
  refine ⟨h.nonempty, fun i => ?_, h.disjoint, fun i c v hi o ho => ?_, fun i o ho => ?_⟩
  · rw [hpointsTo]
    exact h.part i
  · rw [hpointsTo] at ho
    obtain ⟨p, hp⟩ := h.known i o ho
    cases hi.symm.trans (hst.isPointer hp)
    exact h.whole i c v hp o ho
  · rw [hpointsTo] at ho
    exact (h.known i o ho).imp fun p => hst.isPointer

/-- Only those notices count that bring objects, in their order. -/
theorem TellsObjects.congr (h : s.TellsObjects ns)
    (hns : ∀ i, ms.filterMap (Notice.objects? i) = ns.filterMap (Notice.objects? i)) :
    s.TellsObjects ms where
  nonempty i := by
    rw [hns]
    exact h.nonempty i
  part i := by
    rw [hns]
    exact h.part i
  disjoint i := by
    rw [hns]
    exact h.disjoint i
  whole i := by
    rw [hns]
    exact h.whole i
  known := h.known

/-- A notice that brings no objects may be told at any time. -/
theorem TellsObjects.insert_other (h : s.TellsObjects (ns ++ ms)) (hn : ∀ i, n.objects? i = none) :
    s.TellsObjects (ns ++ n :: ms) :=
  h.congr fun i => by
    rw [List.filterMap_append, List.filterMap_cons_none (hn i), List.filterMap_append]

/-- A notice of new objects of a pointer is the last one that tells of them. -/
theorem filterMap_objects_append (ns : List Notice) (i j : PointerId) (objects : ObjectSet) :
    (ns ++ [Notice.objectsAdded i objects]).filterMap (Notice.objects? j) =
      ns.filterMap (Notice.objects? j) ++ if i = j then [objects] else [] := by
  rw [List.filterMap_append]
  congr 1
  by_cases hij : i = j
  · simp [Notice.objects?, hij]
  · simp [Notice.objects?, hij]

/-- After one more notice, a set was told for a pointer before or is the one that was told last. -/
theorem mem_filterMap_objects_append {i j : PointerId} {x y : ObjectSet} :
    y ∈ (ns ++ [Notice.objectsAdded i x]).filterMap (Notice.objects? j) ↔
      y ∈ ns.filterMap (Notice.objects? j) ∨ i = j ∧ y = x := by
  rw [filterMap_objects_append, List.mem_append]
  by_cases hij : i = j <;> simp [hij]

/-- Nobody is told of objects of a pointer that is not a variable. -/
theorem TellsObjects.drop {i : PointerId} {objects : ObjectSet} {p : Pointer}
    (h : s.TellsObjects (ns ++ [.objectsAdded i objects])) (hi : s.IsPointer i p)
    (hp : ∀ c v, p ≠ .var c v) : s.TellsObjects ns := by
  have hsub : ∀ j, (ns.filterMap (Notice.objects? j)).Sublist
      ((ns ++ [Notice.objectsAdded i objects]).filterMap (Notice.objects? j)) := fun j =>
    (List.sublist_append_left ns _).filterMap _
  refine ⟨fun j x hx => h.nonempty j x ((hsub j).subset hx), fun j x hx => h.part j x ((hsub j).subset hx),
    fun j => (h.disjoint j).sublist (hsub j), fun j c v hj o ho => ?_, h.known⟩
  obtain ⟨x, hx, hox⟩ := h.whole j c v hj o ho
  have hne : i ≠ j := by
    rintro rfl
    exact hp c v (Option.some.inj (hi.symm.trans hj))
  rw [filterMap_objects_append, if_neg hne, List.append_nil] at hx
  exact ⟨x, hx, hox⟩

/-- Objects that a pointer did not have are new to all that were told. -/
theorem TellsObjects.disjoint_append (h : s.TellsObjects ns) {i : PointerId} {x : ObjectSet}
    (hx : ∀ o, x.contains o = true → (s.elements.pointsTo i).contains o = false) (j : PointerId) :
    ((ns ++ [Notice.objectsAdded i x]).filterMap (Notice.objects? j)).Pairwise fun x y =>
      ∀ o, x.contains o = true → y.contains o = false := by
  rw [filterMap_objects_append]
  by_cases hij : i = j
  · subst hij
    rw [if_pos rfl, List.pairwise_append]
    refine ⟨h.disjoint i, List.pairwise_singleton _ _, fun y hy z hz o ho => ?_⟩
    rw [List.mem_singleton.1 hz]
    -- what was told before are objects that the pointer has
    refine Bool.eq_false_iff.2 fun hox => ?_
    exact Bool.false_ne_true ((hx o hox).symm.trans (h.part i y hy o ho))
  · rw [if_neg hij, List.append_nil]
    exact h.disjoint j

section Absorbs

variable {i : PointerId} {objects : ObjectSet} (h : s.Absorbs i objects t)

include h

/-- Absorbing an entry of the work list takes no object away. -/
theorem Absorbs.contains_of_old {j : PointerId} {o : CsObjectId}
    (ho : (s.elements.pointsTo j).contains o = true) : (t.elements.pointsTo j).contains o = true := by
  rw [h.pointsTo, ho]
  rfl

/-- No pointer is met when an entry of the work list is absorbed. -/
theorem Absorbs.isPointer_of {j : PointerId} {q : Pointer} (hj : t.IsPointer j q) : s.IsPointer j q := by
  obtain ⟨_, _, _, rfl⟩ := h.shape
  exact hj

/-- What is new in an entry of the work list may be told. -/
theorem Absorbs.tellsObjects {p : Pointer} (htold : s.TellsObjects ns) (hi : s.IsPointer i p)
    (hnew : (objects.difference (s.elements.pointsTo i)).isEmpty = false) :
    t.TellsObjects (ns ++ [.objectsAdded i (objects.difference (s.elements.pointsTo i))]) where
  nonempty j y hy := by
    rcases mem_filterMap_objects_append.1 hy with hy | ⟨-, rfl⟩
    -- A set of the pointer is an old one, or the new one.
    · exact htold.nonempty j y hy
    · exact hnew
  part j y hy o ho := by
    rcases mem_filterMap_objects_append.1 hy with hy | ⟨rfl, rfl⟩
    · exact h.contains_of_old (htold.part j y hy o ho)
    · exact h.contains_of_new ho
  -- New objects were not there, and hence in no set that was told of.
  disjoint := htold.disjoint_append fun o ho => by
    rw [ObjectSet.contains_difference, Bool.and_eq_true, Bool.not_eq_true'] at ho
    exact ho.2
  whole j c v hj o ho := by
    rcases h.cases_contains ho with ho | ⟨rfl, -, ho⟩
    · obtain ⟨y, hy, hoy⟩ := htold.whole j c v (h.isPointer_of hj) o ho
      exact ⟨y, mem_filterMap_objects_append.2 (Or.inl hy), hoy⟩
    · exact ⟨_, mem_filterMap_objects_append.2 (Or.inr ⟨rfl, rfl⟩), ho⟩
  known j o ho := by
    rcases h.cases_contains ho with ho | ⟨rfl, -, -⟩
    · exact (htold.known j o ho).imp fun q => h.extends.isPointer
    · exact ⟨p, h.extends.isPointer hi⟩

end Absorbs

end Objects

end State

/-! ## Machines -/

section Machines

variable {π : Type} {react : Reaction π} {es : List π} {entry : MethodId}

/-- In the given rounds the extensions were told all that the state of a machine has found, but for some
notices that are still owed, and for the methods that are still to be visited. Whenever they were told of
new objects of a pointer, these were objects of the pointer already. -/
structure Machine.Informed (react : Reaction π) (es : List π) (entry : MethodId) (owed : List Notice)
    (k : Machine π) (rs : List (Round π)) : Prop where
  rounds : Rounds react es rs k.extensions
  calls : k.state.TellsCalls entry (rs.map (·.notice) ++ (owed ++ k.state.visits))
  objects : k.state.TellsObjects (rs.map (·.notice) ++ owed)
  timely : ∀ r ∈ rs, r.state.Confirms r.notice

/-- In some rounds the extensions were told all that was found, but for some notices that are owed. -/
def Machine.Notified (react : Reaction π) (es : List π) (entry : MethodId) (owed : List Notice)
    (k : Machine π) : Prop :=
  ∃ rs, k.Informed react es entry owed rs

/-- What is owed when objects are added to those of a pointer. -/
def Pointer.owed (i : PointerId) (objects : ObjectSet) : Pointer → List Notice
  | var _ _ => [.objectsAdded i objects]
  | _ => []

namespace Machine.Notified

variable {k : Machine π} {n : Notice} {owed : List Notice}

/-- An operation that keeps what notices speak of needs no notice. -/
theorem modify {f : State → State} (h : k.Notified react es entry owed)
    (hst : k.state.Steady (f k.state)) : (k.modify f).Notified react es entry owed := by
  obtain ⟨rs, h⟩ := h
  refine ⟨rs, h.rounds, ?_, h.objects.mono hst.toExtends hst.sets, h.timely⟩
  have hcalls := h.calls.steady hst
  rwa [← hst.visits] at hcalls

/-- A call site that is listed for a method is nothing that anyone is told of. -/
theorem addCallSite (h : k.Notified react es entry owed) (j : CsMethodId) (i : CsCallSiteId) :
    (k.modify fun s => { s with calls := s.calls.addCallSite j i }).Notified react es entry owed := by
  obtain ⟨rs, h⟩ := h
  have hext : k.state.Extends { k.state with calls := k.state.calls.addCallSite j i } :=
    { State.Extends.refl k.state with }
  exact ⟨rs, h.rounds, h.calls.mono hext rfl rfl, h.objects.mono hext rfl, h.timely⟩

/-- A round settles the first notice that is owed. -/
theorem notify (h : k.Notified react es entry (n :: owed)) :
    (k.notify react n).Notified react es entry owed := by
  obtain ⟨rs, h⟩ := h
  have hst := notify_steady react n k
  have hmap (r : Round π) : (rs ++ [r]).map Round.notice = rs.map Round.notice ++ [r.notice] :=
    List.map_append
  refine ⟨rs ++ [⟨n, k.extensions, k.state⟩], ?_, ?_, ?_, fun r hr => ?_⟩
  · rw [extensions_notify]
    -- the notice that was owed moves behind the rounds, so the whole list of notices is the same as
    -- before
    exact .next _ h.rounds
  · rw [hmap, List.append_assoc, hst.visits]
    exact h.calls.steady hst
  · rw [hmap, List.append_assoc]
    exact h.objects.mono hst.toExtends hst.sets
  · rcases List.mem_append.1 hr with hr | hr
    · exact h.timely r hr
    · rw [List.mem_singleton.1 hr]
      exact h.objects.confirms (List.mem_append_right _ (List.mem_cons_self ..))

/-- A notice that tells of nothing may be owed at any time. -/
theorem owe (h : k.Notified react es entry []) (hmethod : n.method? = none) (hcall : n.call? = none)
    (hobjects : ∀ i, n.objects? i = none) : k.Notified react es entry [n] := by
  obtain ⟨rs, h⟩ := h
  refine ⟨rs, h.rounds, h.calls.insert_other hmethod hcall k.state.filterMap_call_visits, ?_, h.timely⟩
  exact h.objects.insert_other hobjects

/-- The notice of a pending method is owed as soon as the method is taken. -/
theorem take {j : CsMethodId} {rest : Queue CsMethodId} (h : k.Notified react es entry [])
    (hpop : k.state.pending.pop? = some (j, rest)) :
    (k.modify fun s => { s with pending := rest }).Notified react es entry [.methodReached j] := by
  obtain ⟨rs, h⟩ := h
  have hvisits : k.state.visits = [.methodReached j] ++ rest.toList.map .methodReached := by
    rw [State.visits, Queue.toList_of_pop? hpop]
    rfl
  have hcalls := h.calls
  rw [List.nil_append, hvisits] at hcalls
  have hobjects : k.state.TellsObjects (rs.map (·.notice) ++ [.methodReached j]) :=
    h.objects.insert_other fun _ => rfl
  have hext : k.state.Extends { k.state with pending := rest } := { State.Extends.refl k.state with }
  exact ⟨rs, h.rounds, hcalls.mono hext rfl rfl, hobjects.mono hext rfl, h.timely⟩

/-- New objects of a variable are owed as soon as they are added. -/
theorem absorb {i : PointerId} {p : Pointer} {objects : ObjectSet} {t : State}
    (h : k.Notified react es entry []) (habsorbs : k.state.Absorbs i objects t)
    (hi : k.state.IsPointer i p)
    (hnew : (objects.difference (k.state.elements.pointsTo i)).isEmpty = false) :
    Notified react es entry (p.owed i (objects.difference (k.state.elements.pointsTo i)))
      ⟨t, k.extensions⟩ := by
  obtain ⟨rs, h⟩ := h
  have hold := h.objects
  rw [List.append_nil] at hold
  have hobjects := habsorbs.tellsObjects hold hi hnew
  have hext := habsorbs.extends
  have hcalls : t.TellsCalls entry (rs.map (·.notice) ++ t.visits) := by
    obtain ⟨_, _, _, rfl⟩ := habsorbs.shape
    exact h.calls.mono hext rfl rfl
  -- nobody is told of objects of fields and slots, so what is owed for these is dropped
  cases p with
  | var c v => exact ⟨rs, h.rounds, hcalls.insert_other rfl rfl t.filterMap_call_visits, hobjects, h.timely⟩
  | _ =>
      have hdropped := hobjects.drop (hext.isPointer hi) fun _ _ => Pointer.noConfusion
      rw [← List.append_nil (rs.map _)] at hdropped
      exact ⟨rs, h.rounds, hcalls, hdropped, h.timely⟩

end Machine.Notified

namespace Analysis

variable {a : Analysis} {k : Machine π} {owed : List Notice}

/-- When the callee of an edge is entered, it is to be visited, unless it was discovered before. -/
theorem tells_enterCallee (call : Invoke) (site : CsCallSite) (callee : CsMethod) {e : CallEdge}
    {s : State} {ns ms : List Notice} (he : e ∈ s.calls.edges)
    (hcalls : s.TellsCalls entry (ns ++ s.visits)) (hobjects : s.TellsObjects ms) :
    (a.enterCallee call site callee e.callee s).TellsCalls entry
        (ns ++ (a.enterCallee call site callee e.callee s).visits) ∧
      (a.enterCallee call site callee e.callee s).TellsObjects ms := by
  obtain ⟨text, hst⟩ := steady_enterCallee (a := a) call site callee e.callee s
  generalize a.enterCallee call site callee e.callee s = t at hst ⊢
  have hreport := s.steady_report .trace text
  generalize s.report .trace text = u at hst hreport
  have hreach := (u.extends_reachMethod e.callee).trans hst.toExtends
  have hsets := hst.sets.trans (congrArg Elements.pointsTo (u.elements_reachMethod e.callee))
  refine ⟨?_, hobjects.mono (hreport.toExtends.trans hreach) (hsets.trans hreport.sets)⟩
  rw [← hreport.visits] at hcalls
  rw [hst.visits]
  exact ((hcalls.steady hreport).reachMethod ⟨e, by rwa [hreport.sameEdges], rfl⟩).steady hst

/-- Entering the callee of a new edge leaves the notice of the edge owed. -/
theorem notified_enterCallee {call : Invoke} {site : CsCallSite} {callee : CsMethod} {e : CallEdge}
    (h : k.Notified react es entry owed) (howed : owed.filterMap Notice.call? = [])
    (hnew : k.state.calls.hasEdge e = false) :
    Machine.Notified react es entry (.callAdded e :: owed)
      ⟨a.enterCallee call site callee e.callee { k.state with calls := k.state.calls.addEdge e },
        k.extensions⟩ := by
  obtain ⟨rs, h⟩ := h
  have hlater : (owed ++ k.state.visits).filterMap Notice.call? = [] := by
    rw [List.filterMap_append, howed, k.state.filterMap_call_visits]
    rfl
  have hcalls := h.calls.addEdge hlater hnew
  rw [← List.cons_append, ← List.append_assoc] at hcalls
  have hobjects := h.objects.mono (k.state.extends_addEdge e) rfl
  obtain ⟨hcalls', hobjects'⟩ := tells_enterCallee (a := a) call site callee
    (CsCallGraph.mem_edges_addEdge_self hnew) hcalls hobjects
  rw [List.append_assoc] at hcalls'
  exact ⟨rs, h.rounds, hcalls', hobjects'.insert_other fun _ => rfl, h.timely⟩

section Operations

variable (howed : owed.filterMap Notice.call? = []) (h : k.Notified react es entry owed)

include howed h

/-- Adding a call tells of the edge at once, and leaves what was owed before. -/
theorem notified_addCall (call : Invoke) (site : CsCallSite) (callee : CsMethod) :
    (a.addCall react call site callee k).Notified react es entry owed := by
  obtain ⟨i, j, s, hs, -, -, hcases⟩ := a.addCall_cases react call site callee k
  have hst : k.state.Steady s := by
    rw [hs]
    exact (State.steady_internCallSite _ _).trans (State.steady_internMethod _ _)
  have hinterned := h.modify (f := fun _ => s) hst
  rcases hcases with ⟨-, heq⟩ | ⟨hnew, heq⟩
  · rw [heq]
    exact hinterned
  · rw [heq]
    exact (notified_enterCallee hinterned howed hnew).notify

/-- Visiting a call leaves what was owed before. -/
theorem notified_visitInvoke (id : CsMethodId) (site : CsCallSite) (call : Invoke) :
    (a.visitInvoke react id site call k).Notified react es entry owed := by
  have hst := k.state.steady_internCallSite site
  unfold visitInvoke
  cases hintern : k.state.internCallSite site with
  | mk i s =>
      rw [hintern] at hst
      have hsite := (h.modify (f := fun _ => s) hst).addCallSite id i
      dsimp only
      split
      · split
        · exact notified_addCall howed hsite _ _ _
        · exact hsite
      · exact hsite

/-- Visiting a statement leaves what was owed before. -/
theorem notified_visitStmt (id : CsMethodId) (method : CsMethod) (stmt : StmtId) :
    (a.visitStmt react id method k stmt).Notified react es entry owed := by
  unfold visitStmt
  dsimp only
  split
  · exact h.modify (steady_visitNew _ _ _ _ _)
  · exact h.modify (State.steady_connect _ _ _)
  · exact h.modify (State.steady_connect _ _ _)
  · exact h.modify (State.steady_connect _ _ _)
  · exact notified_visitInvoke howed h _ _ _
  · exact h

/-- Resolving a call for a receiver leaves what was owed before. -/
theorem notified_dispatchCall (c : Context) (o : CsObjectId) (stmt : StmtId) :
    (a.dispatchCall react c o k stmt).Notified react es entry owed := by
  unfold dispatchCall
  dsimp only
  split
  · exact h
  · split
    · exact h.modify ((State.steady_report _ _ _).trans (State.steady_markUnresolved _ _))
    · exact notified_addCall howed (h.modify (steady_bindThis _ _ _)) _ _ _

/-- Processing an object leaves what was owed before: nothing is told of its accesses but their call
edges. -/
theorem notified_processObject (c : Context) (v : VarId) (o : CsObjectId) :
    (a.processObject react c v k o).Notified react es entry owed := by
  refine List.foldlRecOn _ _ (h.modify ?_) fun k' h' stmt _ => notified_dispatchCall howed h' c o stmt
  exact State.Steady.foldl (fun s stmt => steady_linkAccess c o s stmt) _ _

end Operations

/-- After its statements were visited, the notice of a method is given. -/
theorem notified_visitMethod {j : CsMethodId} (h : k.Notified react es entry [.methodReached j]) :
    (a.visitMethod react j k).Notified react es entry [] := by
  refine Machine.Notified.notify ?_
  exact List.foldlRecOn _ _ (h.modify (State.steady_report _ _ _)) fun k' h' stmt _ =>
    notified_visitStmt rfl h' j _ stmt

/-- After they were processed, the notice of new objects is given, if they are those of a variable. -/
theorem notified_processObjects {i : PointerId} {p : Pointer} {objects : ObjectSet}
    (hi : k.state.IsPointer i p) (h : k.Notified react es entry (p.owed i objects)) :
    (a.processObjects react i objects k).Notified react es entry [] := by
  unfold processObjects
  rw [hi.pointer]
  cases p with
  | var c v =>
      refine Machine.Notified.notify ?_
      exact List.foldlRecOn _ _ h fun k' h' o _ => notified_processObject rfl h' c v o
  | _ => exact h

/-- Processing an entry of the work list settles what it owes. -/
theorem notified_processFact {given : Fact → Prop} {T : Theory a given} (hs : Sound T k.state)
    {i : PointerId} {objects : ObjectSet} {rest : Queue (PointerId × ObjectSet)}
    (h : k.Notified react es entry []) (hpop : k.state.work.pop? = some ((i, objects), rest)) :
    (a.processFact react i objects (k.modify fun s => { s with work := rest })).Notified react es entry
      [] := by
  have hwork := List.Perm.of_eq (Queue.toList_of_pop? hpop)
  unfold processFact
  dsimp only
  -- Facts without new objects are dropped, and nothing is told of them.
  split
  · rename_i hempty
    have habsorbs := State.absorbs_propagate hwork rfl (n := k.state.processed + 1)
      (.refl (k.state.flow.successors i).toList) (if_pos hempty).symm
    exact h.modify (f := fun s => { s with work := rest, processed := s.processed + 1 })
      { habsorbs.extends with }
  · rename_i hnew
    have hempty : ¬(objects.difference (k.state.elements.pointsTo i)).isEmpty = true := hnew
    obtain ⟨p, hp⟩ := hs.isPointer_of_new (hwork.mem_iff.2 (List.mem_cons_self ..))
      (Bool.eq_false_iff.2 hempty)
    have habsorbs : k.state.Absorbs i objects
        (State.propagate { k.state with work := rest, processed := k.state.processed + 1 } i
          (objects.difference (k.state.elements.pointsTo i))) := by
      refine State.absorbs_propagate hwork rfl (n := k.state.processed + 1)
        (.refl (k.state.flow.successors i).toList) ?_
      rw [if_neg hempty, State.propagate, ← Array.foldl_toList]
    exact notified_processObjects (habsorbs.extends.isPointer hp)
      (h.absorb habsorbs hp (Bool.eq_false_iff.2 hempty))

/-- Between steps nothing is owed. -/
theorem notified_step {given : Fact → Prop} {T : Theory a given} (hs : Sound T k.state)
    (h : k.Notified react es entry []) : (a.step react k).Notified react es entry [] := by
  unfold step
  split
  · rename_i j rest hpop
    exact notified_visitMethod (h.take hpop)
  · split
    · rename_i i objects rest hpop
      exact notified_processFact hs h hpop
    · exact h

/-! ## Runs -/

/-- At the start, the entry method is to be visited, and no pointer has objects. -/
theorem start_pending {s : State} (hs : State.initial.Agrees s) (entry : MethodId) :
    (start entry s).pending.toList = (start entry s).calls.reachable.toList ∧
      (start entry s).elements.pointsTo = State.initial.elements.pointsTo := by
  have hst := s.steady_internMethod ⟨[], entry⟩
  cases hintern : s.internMethod ⟨[], entry⟩ with
  | mk i t =>
      rw [hintern] at hst
      have hentries : t.calls.entries = #[] := by
        rw [State.internMethod] at hintern
        cases hintern
        exact hs.entries
      have hreachable : t.calls.reachable = #[] := hst.sameReachable.trans hs.reachable
      rw [start_eq entry s hintern hentries]
      -- The entry method is new because no method was reachable.
      rcases State.reachMethod_cases { t with calls := { t.calls with entries := #[i] } } i with
        ⟨-, hi⟩ | ⟨-, heq⟩
      · rw [hreachable] at hi
        exact absurd hi (Array.not_mem_empty i)
      · rw [heq]
        refine ⟨?_, hst.sets.trans (congrArg Elements.pointsTo hs.elements)⟩
        rw [Queue.toList_push, Array.toList_push, hreachable, hst.pending, hs.pending]
        rfl

/-- At the start nothing was told, and only the visit of the entry method is still to come. -/
theorem notified_start {s : State} (hs : State.initial.Agrees s) (entry : MethodId) (es : List π) :
    Machine.Notified react es entry [] ⟨start entry s, es⟩ := by
  obtain ⟨i, hi, hreachable, hedges, -⟩ := start_with hs entry
  obtain ⟨hpending, hsets⟩ := start_pending hs entry
  have hvisits : (start entry s).visits = [.methodReached i] := by
    rw [State.visits, hpending, hreachable]
    rfl
  -- Pointers have no objects at the start.
  have hpointsTo : ∀ j o, ((start entry s).elements.pointsTo j).contains o ≠ true := by
    intro j o ho
    have hnone : (start entry s).elements.pointsTo j = .empty := by
      rw [hsets]
      exact Family.get_empty j.idx
    rw [hnone, ObjectSet.contains_empty] at ho
    cases ho
  refine ⟨[], .start, ?_, ?_, List.forall_mem_nil _⟩
  · rw [hvisits]
    refine ⟨?_, ?_, ?_, ?_, fun j hj => ?_, CsCallGraph.coherent _⟩
    · rw [hreachable]
      rfl
    · rw [hedges]
      rfl
    · rw [hreachable]
      exact List.nodup_singleton i
    · rw [hedges]
      exact .nil
    · rw [hreachable] at hj
      rw [Array.mem_singleton.1 hj]
      exact Or.inl hi
  · exact ⟨fun j => List.forall_mem_nil _, fun j => List.forall_mem_nil _, fun j => .nil,
      fun j c v _ o ho => absurd ho (hpointsTo j o), fun j o ho => absurd ho (hpointsTo j o)⟩

section Lawful

variable {I : π → State → Prop} (wf : a.program.WellFormed)
  (hmodel : a.heapModel = .allocationSite) (hlawful : react.Lawful a I)

include wf hmodel hlawful

/-- A run between steps: the state is sound, the extensions are as they are said to be, and nothing is
owed. -/
theorem notified_advance (isDone : Machine π → Bool)
    (h : Sound a.openTheory k.state ∧ (∀ e ∈ k.extensions, I e k.state) ∧ k.Notified react es entry []) :
    Sound a.openTheory (a.advance react isDone k).state ∧
      (∀ e ∈ (a.advance react isDone k).extensions, I e (a.advance react isDone k).state) ∧
      (a.advance react isDone k).Notified react es entry [] := by
  refine rounds_induction (P := fun k : Machine π => Sound a.openTheory k.state ∧
    (∀ e ∈ k.extensions, I e k.state) ∧ k.Notified react es entry []) ?_ h _ _
  rintro k ⟨hs, hes, h⟩
  obtain ⟨hes', hstep⟩ := a.step_stepTo wf hmodel hs hlawful.tame hes
  exact ⟨hstep.sound hs, hes', notified_step hs h⟩

/-- A run with lawful extensions owes nothing at its fixpoint. -/
theorem notified_fixpoint (entry : MethodId) (hes : ∀ e ∈ es, I e .initial) :
    (a.fixpoint react entry es).Notified react es entry [] := by
  have hfirst := started_first a.openTheory a.agrees_checked (openTheory_reach _ ⟨[], entry⟩)
  obtain ⟨hs₁, hes₁, hvisited⟩ := notified_advance wf hmodel hlawful isVisited
    (k := ⟨start entry a.checked, es⟩) ⟨hfirst.sound, fun e he =>
      hlawful.mono e (State.initial_extends _) (hes e he), notified_start a.agrees_checked entry es⟩
  obtain ⟨hlinks, hes₂⟩ := hlawful.notify (n := .started) hs₁ hes₁ trivial
  have hstarted := (hvisited.owe (n := .started) rfl rfl fun _ => rfl).notify
  exact (notified_advance wf hmodel hlawful isDone ⟨hlinks.sound hs₁, hes₂, hstarted⟩).2.2

end Lawful

/-- What comes after the fixpoint finds nothing more. -/
theorem steady_finish {r : Solution} (hr : (a.finish react k).result = .ok r) :
    k.state.Steady r.state := by
  obtain ⟨before, after, hresult⟩ := a.finish_result react k
  cases hr.symm.trans hresult
  have hnotify := Machine.notify_steady react .finished ⟨{ k.state with log := before }, k.extensions⟩
  exact (((k.state.agrees_log before).steady rfl).trans hnotify).trans
    ((State.agrees_log _ after).steady rfl)

end Analysis

/-! ## Lawful listeners -/

/-- A script stays lawful when its extensions and its value are mapped. -/
theorem Script.Lawful.map {ρ α β : Type} {I : π → State → Prop} {J : ρ → State → Prop}
    {Q : α → State → Prop} {R : β → State → Prop} {f : π → ρ} {g : α → β}
    (hf : ∀ e s, I e s → J (f e) s) (hg : ∀ x s, Q x s → R (g x) s) {x : Script π α} {s : State}
    (h : x.Lawful I Q s) : (x.map f g).Lawful J R s := by
  induction x generalizing s with
  | done => exact hg _ s h
  | view next ih => exact ih s h
  | pointer p next ih => exact ⟨h.1, ih _ h.2⟩
  | object c o next ih => exact ⟨h.1, ih _ h.2⟩
  | callSite c next ih => exact ih _ h
  | method m next ih => exact ih _ h
  | mock d t c next ih => exact ih _ h
  | inject i objects next ih => exact ⟨h.1, h.2.1, ih h.2.2⟩
  | flow i j next ih => exact ⟨h.1, h.2.1, ih h.2.2⟩
  | register e next ih => exact ⟨hf e s h.1, ih h.2⟩
  | report severity text next ih => exact ih h
  | note event next ih => exact ih h

/-- Listeners are lawful if their extensions are. -/
theorem Reaction.Lawful.heard {a : Analysis} {I : π → State → Prop} (h : react.Lawful a I) :
    react.heard.Lawful a fun l s => I l.self s where
  mono l _ _ hst hl := h.mono l.self hst hl
  answers hs hn hl :=
    Script.Lawful.map (J := fun (l : Listener π) s => I l.self s) (R := fun (l : Listener π) s => I l.self s)
      (fun _ _ he => he) (fun _ _ he => he) (h.answers hs hn hl)

/-- The extensions that are given from the start. -/
theorem Listener.map_new (es : List π) : (es.map Listener.new).map Listener.self = es := by
  rw [List.map_map]
  exact List.map_id es

section Heard

variable {k : Machine (Listener π)} {rs : List (Round (Listener π))}
  (h : k.Informed react.heard (es.map Listener.new) entry [] rs)

include h

/-- The rounds of the listeners are those of their extensions. -/
theorem Machine.Informed.rounds_self :
    Rounds react es (rs.map (Round.map Listener.self)) (k.map Listener.self).extensions := by
  have hrounds := h.rounds.map react.heard_erases
  rwa [Listener.map_new] at hrounds

/-- The extension at a position has heard the notices of all rounds in which that position was taken. -/
theorem Machine.Informed.heard {i : Nat} {l : Listener π} (hl : k.extensions[i]? = some l) :
    l.heard = (rs.map (Round.map Listener.self)).filterMap fun r => (r.hearings react)[i]? := by
  rw [List.filterMap_map]
  refine h.rounds.heard (fun l hl => ?_) hl
  obtain ⟨e, -, rfl⟩ := List.mem_map.1 hl
  rfl

/-- If nothing is left to be visited, then an extension that was given from the start has heard all that
was found. -/
theorem Machine.Informed.heard_all {s : State} (hpending : k.state.pending.toList = [])
    (hst : k.state.Steady s) {i : Nat} (hi : i < es.length) :
    ∃ l, k.extensions[i]? = some l ∧ s.TellsCalls entry (l.heard.map (·.notice)) ∧
      s.TellsObjects (l.heard.map (·.notice)) ∧ ∀ x ∈ l.heard, x.state.Confirms x.notice := by
  have hlength := h.rounds.length_le.1
  rw [List.length_map] at hlength
  obtain ⟨l, hl⟩ : ∃ l, k.extensions[i]? = some l :=
    ⟨_, List.getElem?_eq_getElem (Nat.lt_of_lt_of_le hi hlength)⟩
  -- A listener hears what the extension that it stands for is told.
  have hnotices : l.heard.map (·.notice) = rs.map (·.notice) := by
    rw [h.heard hl, h.rounds_self.notices hi, List.map_map]
    rfl
  have hvisits : k.state.visits = [] := by
    rw [State.visits, hpending]
    rfl
  have hcalls := h.calls
  have hobjects := h.objects
  rw [hvisits, List.append_nil, List.append_nil] at hcalls
  rw [List.append_nil] at hobjects
  refine ⟨l, hl, ?_, ?_, fun x hx => ?_⟩
  · rw [hnotices]
    exact hcalls.steady hst
  · rw [hnotices]
    exact hobjects.mono hst.toExtends hst.sets
  · -- what is told in a round is so for each extension that is told
    rw [h.heard hl, List.filterMap_map] at hx
    obtain ⟨round, hround, hx⟩ := List.mem_filterMap.1 hx
    have hmem := List.mem_of_getElem? hx
    rw [notice_of_mem_hearings hmem]
    exact (h.timely round hround).congr (sets_of_mem_hearings hmem)

end Heard

end Machines

/-- A run of a loaded program with lawful extensions that gives a result tells the extensions exactly once
what it has found. It does so in rounds; the extensions of a round are those that were there after the one
before it, and in a round all of them are told in turn. Beside each extension stands what it has heard
until the fixpoint, after which nothing is told but that the run is over: it has heard what it was told in
the rounds that it took part in, and whoever is there after a round is there at the end, and takes part in
every later round. An extension that was given from the start has heard of each reachable method and of
each call edge once, in the order in which they were discovered, and of all objects of variables, once and
when they were there already. -/
theorem Analysis.told_exactly_once {π : Type} {d : ProgramDef} {p : Program}
    (hp : (Program.build d).1 = .ok p) {o : Options} {sel : Selector} {react : Reaction π}
    {I : π → State → Prop} (h : react.Lawful ⟨p, o, sel, .allocationSite⟩ I) {es : List π}
    (hes : ∀ e ∈ es, I e .initial) {r : Solution}
    (hr : (solve ⟨p, o, sel, .allocationSite⟩ react es).result = .ok r) :
    ∃ entry, ∃ k : Machine (Listener π), ∃ rounds, entryMethod ⟨p, o, sel, .allocationSite⟩ = .ok entry ∧
      k = fixpoint ⟨p, o, sel, .allocationSite⟩ react.heard entry (es.map Listener.new) ∧
      k.map Listener.self = fixpoint ⟨p, o, sel, .allocationSite⟩ react entry es ∧
      (finish ⟨p, o, sel, .allocationSite⟩ react (k.map Listener.self)).result = .ok r ∧
      Rounds react es rounds (k.map Listener.self).extensions ∧
      (∀ (i : Nat) (l : Listener π), k.extensions[i]? = some l →
        l.heard = rounds.filterMap fun r => (r.hearings react)[i]?) ∧
      (∀ before round later, rounds = before ++ round :: later → ∀ i, i < (round.after react).length →
        i < k.extensions.length ∧ ∀ r ∈ later, i < (r.hearings react).length) ∧
      ∀ i, i < es.length → ∃ l, k.extensions[i]? = some l ∧
        r.state.TellsCalls entry (l.heard.map (·.notice)) ∧
        r.state.TellsObjects (l.heard.map (·.notice)) ∧ ∀ x ∈ l.heard, x.state.Confirms x.notice := by
  -- the run is replayed with listeners, each of which keeps what it has heard; forgetting that gives
  -- the run itself
  have wf := Program.build_wellFormed hp
  obtain ⟨entry, hentry, -, hdone, hfinish⟩ := solve_eq_ok _ _ hr
  have hmap := map_fixpoint ⟨p, o, sel, .allocationSite⟩ react.heard_erases entry (es.map Listener.new)
  rw [Listener.map_new] at hmap
  rw [← hmap] at hdone hfinish
  obtain ⟨rs, hinformed⟩ := notified_fixpoint (a := ⟨p, o, sel, .allocationSite⟩) wf rfl h.heard entry
    (fun l (hl : l ∈ es.map Listener.new) => by
      obtain ⟨e, he, rfl⟩ := List.mem_map.1 hl
      exact hes e he)
  generalize hk : fixpoint _ react.heard entry _ = k at *
  have hpending : k.state.pending.toList = [] := (isDone_iff.1 hdone).1
  have hst := steady_finish hfinish
  refine ⟨entry, k, rs.map (Round.map Listener.self), hentry, hk.symm, hmap, hfinish,
    hinformed.rounds_self, fun i l hl => hinformed.heard hl, fun before round later hrs i hi => ?_,
    fun i hi => hinformed.heard_all hpending hst hi⟩
  -- extensions are never removed, so a position that was taken after a round is taken in all later ones
  have hlength := (hinformed.rounds_self.rest hrs).length_le
  have hsame : (k.map Listener.self).extensions.length = k.extensions.length := List.length_map _
  rw [hsame] at hlength
  refine ⟨Nat.lt_of_lt_of_le hi hlength.1, fun r' hr' => ?_⟩
  rw [Round.hearings, length_hearings]
  exact Nat.lt_of_lt_of_le hi (hlength.2 r' hr').1

/-- The sample with stock extensions one of which registers another in the course of the run. -/
theorem Analysis.told_exactly_once_sample : ∃ p r entry, ∃ k : Machine (Listener Extension), ∃ rounds,
    (Program.build .sample).1 = .ok p ∧
    (Extension.react p ⟨.insensitive, none, true⟩).Lawful
      ⟨p, ⟨.insensitive, none, true⟩, .object 1, .allocationSite⟩ (fun _ _ => True) ∧
    (solve ⟨p, ⟨.insensitive, none, true⟩, .object 1, .allocationSite⟩
      (Extension.react p ⟨.insensitive, none, true⟩) (.spawn false :: Extension.sample)).result = .ok r ∧
    k = fixpoint ⟨p, ⟨.insensitive, none, true⟩, .object 1, .allocationSite⟩
      (Extension.react p ⟨.insensitive, none, true⟩).heard entry
      ((.spawn false :: Extension.sample).map Listener.new) ∧
    Rounds (Extension.react p ⟨.insensitive, none, true⟩) (.spawn false :: Extension.sample) rounds
      (k.map Listener.self).extensions ∧
    ∀ i, i < (Extension.spawn false :: Extension.sample).length → ∃ l, k.extensions[i]? = some l ∧
      r.state.TellsCalls entry (l.heard.map (·.notice)) ∧
      r.state.TellsObjects (l.heard.map (·.notice)) ∧ ∀ x ∈ l.heard, x.state.Confirms x.notice := by
  -- The run is evaluated to know that it ends with a result.
  obtain ⟨p, hp⟩ : ∃ p, (Program.build .sample).1 = .ok p := exists_ok_of_toBool (by decide +kernel)
  have hrun : (match (Program.build .sample).1 with
      | .ok p => (solve ⟨p, ⟨.insensitive, none, true⟩, .object 1, .allocationSite⟩
          (Extension.react p ⟨.insensitive, none, true⟩)
          (.spawn false :: Extension.sample)).result.toBool
      | .error _ => false) = true := by decide +kernel
  rw [hp] at hrun
  obtain ⟨r, hr⟩ := exists_ok_of_toBool hrun
  have hlawful := Extension.react_lawful ⟨p, ⟨.insensitive, none, true⟩, .object 1, .allocationSite⟩
    p ⟨.insensitive, none, true⟩
  obtain ⟨entry, k, rounds, -, hk, -, -, hrounds, -, -, htold⟩ :=
    told_exactly_once hp hlawful (fun _ _ => trivial) hr
  exact ⟨p, r, entry, k, rounds, hp, hlawful, hr, hk, hrounds, htold⟩

end PointsTo
