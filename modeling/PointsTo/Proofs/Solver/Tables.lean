import PointsTo.Solver.State

/-! # Tables of the solver

What the operations of a state do to its tables, through the views that later proofs use: the item of
a number in a table, the edges of the flow graph, the edges of the call graph and the entries of the
work list.
-/

namespace PointsTo

/-! ## Canonical numbering -/

namespace Table

variable {α : Type} {key : α → Nat}

/-- The second table has all items of the first one, with the same numbers. -/
def Extends (t u : Table α key) : Prop := ∀ (i : Nat) (a : α), t.items[i]? = some a → u.items[i]? = some a

theorem Extends.refl (t : Table α key) : t.Extends t := fun _ _ h => h

theorem Extends.trans {t u v : Table α key} (htu : t.Extends u) (huv : u.Extends v) : t.Extends v :=
  fun i a h => huv i a (htu i a h)

theorem get_of_getElem? [Inhabited α] {t : Table α key} {i : Nat} {a : α}
    (h : t.items[i]? = some a) : t.get i = a := by
  simp [get, Array.getD_eq_getD_getElem?, h]

theorem lt_size_of_getElem? {t : Table α key} {i : Nat} {a : α} (h : t.items[i]? = some a) :
    i < t.size :=
  (Array.getElem?_eq_some_iff.1 h).1

/-- A table that keeps the items of another one is no smaller. -/
theorem Extends.size_le {t u : Table α key} (h : t.Extends u) : t.size ≤ u.size := by
  refine Nat.not_lt.1 fun hlt => ?_
  exact Nat.lt_irrefl _ (lt_size_of_getElem? (h _ _ (Array.getElem?_eq_getElem hlt)))

/-- The numbers of a key, as the index has them: those of the items with the key, in order. -/
theorem withKey_eq [Inhabited α] (t : Table α key) (k : Nat) :
    t.withKey k = (List.range t.size).filter fun i => key (t.get i) = k := by
  have hlt : ∀ {l : List Nat}, l.Pairwise (· < ·) → l.Nodup := fun h => h.imp Nat.ne_of_lt
  have hindex : (t.withKey k).Pairwise (· < ·) := t.sorted k
  have hrange : ((List.range t.size).filter fun i => key (t.get i) = k).Pairwise (· < ·) :=
    List.pairwise_lt_range.filter _
  -- both lists are in increasing order, so it is enough that they have the same members
  refine ((List.perm_ext_iff_of_nodup (hlt hindex) (hlt hrange)).2 fun i => ?_).eq_of_pairwise
    (fun i j _ _ hij hji => absurd hij (Nat.lt_asymm hji)) hindex hrange
  simp only [withKey, Array.mem_toList_iff, t.mem_index, List.mem_filter, List.mem_range,
    decide_eq_true_eq]
  constructor
  · rintro ⟨a, ha, hk⟩
    exact ⟨lt_size_of_getElem? ha, by rwa [get_of_getElem? ha]⟩
  · rintro ⟨hi, hk⟩
    have ha : t.items[i]? = some t.items[i] := Array.getElem?_eq_getElem hi
    exact ⟨_, ha, by rwa [get_of_getElem? ha] at hk⟩

variable [DecidableEq α]

/-- An item is added at the end, unless it is there. -/
theorem toList_intern (t : Table α key) (a : α) :
    (t.intern a).2.items.toList = if a ∈ t.items then t.items.toList else t.items.toList ++ [a] := by
  unfold intern
  split
  · rename_i i hi
    rw [if_pos (Array.mem_of_getElem? ((t.find?_eq_some_iff a i).1 hi))]
  · rename_i hnone
    rw [if_neg (t.not_mem_of_find?_eq_none hnone)]
    exact Array.toList_push

/-- Interning an item keeps the numbers of all others. -/
theorem extends_intern (t : Table α key) (a : α) : t.Extends (t.intern a).2 := by
  intro i b hb
  unfold intern
  split
  · exact hb
  · show (t.items.push a)[i]? = some b
    have hlt : i < t.items.size := lt_size_of_getElem? hb
    rw [Array.getElem?_push, if_neg (Nat.ne_of_lt hlt)]
    exact hb

/-- An interned item has the number that is returned. -/
theorem getElem?_intern_self (t : Table α key) (a : α) :
    (t.intern a).2.items[(t.intern a).1]? = some a := by
  unfold intern
  split
  · exact (t.find?_eq_some_iff a _).1 ‹_›
  · show (t.items.push a)[t.items.size]? = some a
    simp

/-- Interning adds nothing but the item that is interned. -/
theorem of_getElem?_intern {t : Table α key} {a b : α} {i : Nat}
    (h : (t.intern a).2.items[i]? = some b) : t.items[i]? = some b ∨ b = a := by
  unfold intern at h
  split at h
  · exact Or.inl h
  · have h' : (t.items.push a)[i]? = some b := h
    rw [Array.getElem?_push] at h'
    split at h'
    · exact Or.inr (Option.some.inj h').symm
    · exact Or.inl h'

end Table

namespace Pointer

/-- The variable of a pointer that is one of a variable. -/
def varId? : Pointer → Option VarId
  | var _ v => some v
  | _ => none

/-- Only pointers of variables have a variable. -/
theorem varId?_eq_some_iff {p : Pointer} {v : VarId} : p.varId? = some v ↔ ∃ c, p = var c v := by
  cases p <;> simp [varId?]

/-- The pointers of a variable have a key of their own. -/
theorem key_eq_iff {p : Pointer} {c : Context} {v : VarId} :
    p.key = (var c v).key ↔ p.varId? = some v := by
  cases p with
  | var _ w =>
      cases v
      cases w
      simp only [key, varId?, Option.some.injEq, VarId.mk.injEq]
      omega
  | _ =>
      simp only [key, varId?, reduceCtorEq, iff_false]
      omega

end Pointer

/-- The pointers that are listed for a variable are all that it has, once each, in the order in which
they were made. -/
theorem Elements.pointersOf_eq (e : Elements) (v : VarId) :
    e.pointersOf v = e.pointerIds.filter fun i => (e.pointer i).varId? = some v := by
  rw [pointersOf, Table.withKey_eq, pointerIds, List.filter_map]
  exact congrArg (List.map _) (List.filter_congr fun i _ => decide_eq_decide.2 Pointer.key_eq_iff)

/-! ## The heap -/

namespace Heap

/-- The second heap has all objects of the first one, with the same identifiers. -/
def Extends (h k : Heap) : Prop := ∀ (i : Nat) (o : Object), h.objects[i]? = some o → k.objects[i]? = some o

theorem Extends.refl (h : Heap) : h.Extends h := fun _ _ ho => ho

theorem Extends.trans {h k l : Heap} (hk : h.Extends k) (kl : k.Extends l) : h.Extends l :=
  fun i o ho => kl i o (hk i o ho)

/-- No two objects have the same origin. -/
def Distinct (h : Heap) : Prop :=
  ∀ (i j : Nat) (o o' : Object), h.objects[i]? = some o → h.objects[j]? = some o' → o.origin = o'.origin → i = j

theorem get_of_getElem? {h : Heap} {i : ObjectId} {o : Object} (ho : h.objects[i.idx]? = some o) :
    h.get i = o := by
  simp [get, Array.getD_eq_getD_getElem?, ho]

/-- What is found for an origin has that origin. -/
theorem exists_of_find? {h : Heap} {origin : Origin} {i : ObjectId} (hi : h.find? origin = some i) :
    ∃ o, h.objects[i.idx]? = some o ∧ o.origin = origin := by
  obtain ⟨n, hn, rfl⟩ := Option.map_eq_some_iff.1 hi
  obtain ⟨hlt, horigin, -⟩ := Array.findIdx?_eq_some_iff_getElem.1 hn
  exact ⟨h.objects[n], Array.getElem?_eq_some_iff.2 ⟨hlt, rfl⟩, by simpa using horigin⟩

/-- An object is found by its origin. -/
theorem Distinct.find? {h : Heap} (hd : h.Distinct) {i : ObjectId} {o : Object}
    (ho : h.objects[i.idx]? = some o) : h.find? o.origin = some i := by
  cases hf : h.find? o.origin with
  | some j =>
      obtain ⟨o', ho', horigin⟩ := exists_of_find? hf
      have hij := hd j.idx i.idx o' o ho' ho horigin
      cases i
      cases j
      exact congrArg (some ∘ ObjectId.mk) hij
  | none =>
      rw [Heap.find?, Option.map_eq_none_iff, Array.findIdx?_eq_none_iff] at hf
      have := hf o (Array.mem_of_getElem? ho)
      simp at this

/-- An origin keeps its identifier when the heap grows. -/
theorem Distinct.find?_mono {h k : Heap} (hk : k.Distinct) (he : h.Extends k) {origin : Origin}
    {i : ObjectId} (hi : h.find? origin = some i) : k.find? origin = some i := by
  obtain ⟨o, ho, rfl⟩ := exists_of_find? hi
  exact hk.find? (he _ _ ho)

/-- Interning an object keeps the identifiers of all others. -/
theorem extends_intern (h : Heap) (o : Object) : h.Extends (h.intern o).2 := by
  intro i o' ho'
  unfold intern
  split
  · exact ho'
  · have hlt := (Array.getElem?_eq_some_iff.1 ho').1
    rw [Array.getElem?_push, if_neg (Nat.ne_of_lt hlt)]
    exact ho'

/-- The object of an interned origin, which may have been made before. -/
theorem getElem?_intern_self (h : Heap) (o : Object) :
    ∃ o', (h.intern o).2.objects[(h.intern o).1.idx]? = some o' ∧ o'.origin = o.origin := by
  unfold intern
  split
  · exact exists_of_find? ‹_›
  · exact ⟨o, by simp, rfl⟩

/-- Interning adds nothing but the object. -/
theorem of_getElem?_intern {h : Heap} {o o' : Object} {i : Nat}
    (hi : (h.intern o).2.objects[i]? = some o') : h.objects[i]? = some o' ∨ o' = o := by
  unfold intern at hi
  split at hi
  · exact Or.inl hi
  · rw [Array.getElem?_push] at hi
    split at hi
    · exact Or.inr (Option.some.inj hi).symm
    · exact Or.inl hi

/-- Origins stay distinct, because an object is only made for an origin that has none. -/
theorem Distinct.intern {h : Heap} (hd : h.Distinct) (o : Object) : (h.intern o).2.Distinct := by
  unfold Heap.intern
  split
  · exact hd
  · rename_i hnone
    -- the new object has a new origin
    have hnew : ∀ (i : Nat) (o' : Object), h.objects[i]? = some o' → o'.origin ≠ o.origin := by
      intro i o' ho' horigin
      have hf := hd.find? (i := ⟨i⟩) ho'
      rw [horigin, hnone] at hf
      cases hf
    intro i j a b ha hb hab
    rw [Array.getElem?_push] at ha hb
    split at ha <;> split at hb
    · omega
    · cases ha
      exact absurd hab.symm (hnew j b hb)
    · cases hb
      exact absurd hab (hnew i a ha)
    · exact hd i j a b ha hb hab

end Heap

/-! ## Graphs -/

namespace FlowGraph

@[simp] theorem hasEdge_empty (i j : PointerId) : empty.hasEdge i j = false := by
  simp only [hasEdge, successors, empty, Family.get_empty]
  exact Bool.eq_false_iff.2 fun h => Array.not_mem_empty j (Array.contains_iff_mem.1 h)

/-- Exactly the edge that was added is new. -/
theorem hasEdge_addEdge {g : FlowGraph} {i j k l : PointerId} :
    (g.addEdge i j).hasEdge k l = true ↔ g.hasEdge k l = true ∨ k = i ∧ l = j := by
  unfold addEdge
  split
  · rename_i h
    constructor
    · exact Or.inl
    · rintro (h' | ⟨rfl, rfl⟩)
      · exact h'
      · exact h
  -- only the successors of the source change
  · simp only [hasEdge, successors, Family.get_update]
    have hidx : k.idx = i.idx ↔ k = i := by
      cases k
      cases i
      simp
    by_cases hk : k = i
    · subst hk
      simp
    · simp [hidx, hk]

/-- No edge is there twice. -/
def Simple (g : FlowGraph) : Prop := ∀ i, (g.successors i).toList.Nodup

theorem simple_empty : empty.Simple := by
  intro i
  simp only [successors, empty, Family.get_empty]
  exact List.nodup_nil

/-- An edge is only added where there is none. -/
theorem Simple.addEdge {g : FlowGraph} (h : g.Simple) (i j : PointerId) : (g.addEdge i j).Simple := by
  unfold FlowGraph.addEdge
  split
  · exact h
  · rename_i hnew
    intro k
    simp only [successors, Family.get_update]
    split
    · rw [Array.toList_push, List.nodup_append]
      refine ⟨h i, by simp, fun q hq q' hq' heq => hnew ?_⟩
      rw [List.mem_singleton] at hq'
      subst hq' heq
      exact Array.contains_iff_mem.2 (Array.mem_toList_iff.1 hq)
    · exact h k

end FlowGraph

namespace CsCallGraph

/-- The edges of the call sites are the edges of the graph. -/
def Coherent (g : CsCallGraph) : Prop :=
  ∀ i e, e ∈ g.edgesOutOf i ↔ e ∈ g.edges ∧ e.callSite = i

/-- The edges of a call site are those of all edges that have it, in order. -/
theorem toList_edgesOutOf (g : CsCallGraph) (i : CsCallSiteId) :
    (g.edgesOutOf i).toList = g.edges.toList.filter (·.callSite = i) := by
  rw [edgesOutOf, g.calls_eq]
  refine List.filter_congr fun e _ => decide_eq_decide.2 ?_
  rw [CsCallSiteId.mk.injEq]

/-- The edges to a method are those of all edges that have it, in order. -/
theorem edgesInto_eq (g : CsCallGraph) (m : CsMethodId) :
    g.edgesInto m = g.edges.toList.filter (·.callee = m) := by
  rw [edgesInto, g.callers_eq]
  refine List.filter_congr fun e _ => decide_eq_decide.2 ?_
  rw [CsMethodId.mk.injEq]

/-- The edges of the call sites are the edges of the graph, whatever was added to it. -/
theorem coherent (g : CsCallGraph) : g.Coherent := by
  intro i e
  rw [← Array.mem_toList_iff, toList_edgesOutOf, List.mem_filter, Array.mem_toList_iff,
    decide_eq_true_eq]

/-- An edge counts as present if there is one between the same ends, whatever its kind is. -/
theorem hasEdge_iff {g : CsCallGraph} {e : CallEdge} :
    g.hasEdge e = true ↔ ∃ e' ∈ g.edges, e'.callSite = e.callSite ∧ e'.callee = e.callee := by
  simp only [hasEdge, Array.any_eq_true', decide_eq_true_eq]
  constructor
  · rintro ⟨e', he', hc⟩
    obtain ⟨hm, hs⟩ := (g.coherent _ e').1 he'
    exact ⟨e', hm, hs, hc⟩
  · rintro ⟨e', hm, hs, hc⟩
    exact ⟨e', (g.coherent _ e').2 ⟨hm, hs⟩, hc⟩

/-- An edge of the grown graph is an old one or the one that was added. -/
theorem mem_edges_addEdge {g : CsCallGraph} {e e' : CallEdge} (h : e' ∈ (g.addEdge e).edges) :
    e' ∈ g.edges ∨ e' = e := by
  unfold addEdge at h
  split at h
  · exact Or.inl h
  · exact Array.mem_push.1 h

/-- Edges that are there stay. -/
theorem edges_subset_addEdge {g : CsCallGraph} {e e' : CallEdge} (h : e' ∈ g.edges) :
    e' ∈ (g.addEdge e).edges := by
  unfold addEdge
  split
  · exact h
  · exact Array.mem_push.2 (Or.inl h)

/-- A new edge is added. -/
theorem mem_edges_addEdge_self {g : CsCallGraph} {e : CallEdge} (h : g.hasEdge e = false) :
    e ∈ (g.addEdge e).edges := by
  rw [addEdge, if_neg (by simp [h])]
  exact Array.mem_push_self

@[simp] theorem reachable_addEdge (g : CsCallGraph) (e : CallEdge) :
    (g.addEdge e).reachable = g.reachable := by
  unfold addEdge
  split <;> rfl

@[simp] theorem entries_addEdge (g : CsCallGraph) (e : CallEdge) :
    (g.addEdge e).entries = g.entries := by
  unfold addEdge
  split <;> rfl

/-- Exactly the method that was added is new. -/
theorem mem_reachable_addReachable {g : CsCallGraph} {m m' : CsMethodId} :
    m' ∈ (g.addReachable m).reachable ↔ m' ∈ g.reachable ∨ m' = m := by
  unfold addReachable
  split
  · rename_i h
    constructor
    · exact Or.inl
    · rintro (h' | rfl)
      · exact h'
      · exact Array.contains_iff_mem.1 h
  · exact Array.mem_push

@[simp] theorem edges_addReachable (g : CsCallGraph) (m : CsMethodId) :
    (g.addReachable m).edges = g.edges := by
  unfold addReachable
  split <;> rfl

end CsCallGraph

/-! ## The work list -/

namespace State

/-- The state after objects were put on the work list for some pointers. -/
theorem foldl_push_eq (targets : List PointerId) (objects : ObjectSet) (s : State) :
    ∃ work, targets.foldl (fun s q => s.push q objects) s = { s with work := work } ∧
      work.toList = s.work.toList ++ targets.map fun q => (q, objects) := by
  induction targets generalizing s with
  | nil => exact ⟨s.work, rfl, by simp⟩
  | cons q qs ih =>
      obtain ⟨work, heq, hlist⟩ := ih (s.push q objects)
      refine ⟨work, heq, ?_⟩
      rw [hlist]
      simp [push]

end State

end PointsTo
