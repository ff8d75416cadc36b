import PointsTo.Proofs.Solver.Fixpoint

/-! # Answers to queries

Queries of a solution read its tables. In a sound state the answers are those that the facts of the
state give: a method is listed if it is reachable in some context, and an object if its origin is that
of an object of the variable in some context.
-/

namespace PointsTo

/-! ## Sets of methods and objects -/

/-- A sorted set of methods has those of the list that the program has. -/
theorem Program.mem_methodSet {p : Program} {ms : List MethodId} {m : MethodId} :
    m ∈ p.methodSet ms ↔ m.idx < p.methods.size ∧ m ∈ ms := by
  simp only [methodSet, methodIds, List.mem_filter, List.mem_map, List.mem_range, decide_eq_true_eq]
  constructor
  · rintro ⟨⟨i, hi, rfl⟩, hm⟩
    exact ⟨hi, hm⟩
  · rintro ⟨hi, hm⟩
    exact ⟨⟨m.idx, hi, rfl⟩, hm⟩

/-- Objects of a heap are numbered without gaps. -/
theorem Heap.mem_ids {h : Heap} {o : ObjectId} : o ∈ h.ids ↔ o.idx < h.objects.size := by
  simp only [ids, List.mem_map, List.mem_range]
  constructor
  · rintro ⟨i, hi, rfl⟩
    exact hi
  · intro ho
    exact ⟨o.idx, ho, rfl⟩

/-- A union of sets contains what one of them contains. -/
theorem ObjectSet.contains_foldl_union {sets : List ObjectSet} {s : ObjectSet} {o : CsObjectId} :
    (sets.foldl union s).contains o = true ↔
      s.contains o = true ∨ ∃ t ∈ sets, t.contains o = true := by
  induction sets generalizing s with
  | nil => simp
  | cons t sets ih =>
      rw [List.foldl_cons, ih, contains_union, Bool.or_eq_true, or_assoc]
      simp only [List.mem_cons, exists_eq_or_imp]

/-- The pointers of a variable are those that stand for it in some context. -/
theorem Elements.mem_pointersOf {e : Elements} {v : VarId} {i : PointerId} :
    i ∈ e.pointersOf v ↔ ∃ c, e.pointers.items[i.idx]? = some (.var c v) := by
  simp only [pointersOf, Table.withKey, List.mem_map, Array.mem_toList_iff, Table.mem_index,
    Pointer.key_eq_iff, Pointer.varId?_eq_some_iff]
  constructor
  · rintro ⟨n, ⟨_, hq, c, rfl⟩, rfl⟩
    exact ⟨c, hq⟩
  · rintro ⟨c, hc⟩
    exact ⟨i.idx, ⟨_, hc, c, rfl⟩, rfl⟩

/-! ## Methods -/

namespace Solution

variable {r : Solution}

/-- A method is listed if it is reachable in some context. -/
theorem mem_reachableMethods {m : MethodId} :
    m ∈ r.reachableMethods ↔ m.idx < r.program.methods.size ∧ ∃ c, r.Holds (.reach ⟨c, m⟩) := by
  rw [reachableMethods, Program.mem_methodSet]
  refine and_congr_right fun _ => ?_
  simp only [reachableCsMethods, List.mem_map, Array.mem_toList_iff, Holds, State.Holds]
  constructor
  · rintro ⟨i, hi, rfl⟩
    exact ⟨_, i, hi, rfl⟩
  · rintro ⟨c, i, hi, hm⟩
    exact ⟨i, hi, by rw [hm]⟩

/-- A callee is listed if the call site calls it in some context. -/
theorem mem_calleesOf {s : StmtId} {m : MethodId} :
    m ∈ r.calleesOf s ↔ m.idx < r.program.methods.size ∧
      ∃ k c c', r.Holds (.call k ⟨c, s⟩ ⟨c', m⟩) := by
  rw [calleesOf, Program.mem_methodSet]
  refine and_congr_right fun _ => ?_
  simp only [List.mem_map, List.mem_filter, Array.mem_toList_iff, decide_eq_true_eq, Holds,
    State.Holds]
  constructor
  · rintro ⟨e, ⟨he, rfl⟩, rfl⟩
    exact ⟨_, _, _, e, he, rfl, rfl, rfl⟩
  · rintro ⟨k, c, c', e, he, -, hsite, hcallee⟩
    exact ⟨e, ⟨he, by rw [hsite]⟩, by rw [hcallee]⟩

end Solution

/-! ## Objects -/

section Objects

variable {a : Analysis} {given : Fact → Prop} {T : Theory a given} {r : Solution}

/-- The object of an identifier is the one with its origin. -/
theorem State.Denotes.find? {s : State} {o : CsObjectId} {y : HeapObject} (h : s.Denotes o y)
    (hd : s.heap.Distinct) : s.heap.find? y.object.origin = some (s.elements.object o).object := by
  obtain ⟨id, ho, hid⟩ := h
  rw [ho.object]
  exact hd.find? hid

/-- An object that is found by its origin has a number below the size of the heap. -/
theorem Heap.lt_of_find? {h : Heap} {origin : Origin} {id : ObjectId}
    (hid : h.find? origin = some id) : id.idx < h.objects.size := by
  obtain ⟨o, ho, -⟩ := exists_of_find? hid
  exact (Array.getElem?_eq_some_iff.1 ho).1

/-- Sets of objects with contexts are listed by their objects, and without duplicates. -/
theorem Solution.mem_objectsOf {s : ObjectSet} {id : ObjectId} :
    id ∈ r.objectsOf s ↔ id.idx < r.state.heap.objects.size ∧
      ∃ o, s.contains o = true ∧ (r.state.elements.object o).object = id := by
  simp [objectsOf, objectSet, Heap.mem_ids]

variable (hs : Sound T r.state)

include hs

/-- Everything that is pointed to has a name. -/
theorem Sound.named {x : Place} {y : HeapObject} (h : r.Holds (.pointsTo x y)) :
    ∃ id, r.state.heap.find? y.object.origin = some id := by
  obtain ⟨_, _, o, -, -, ho, -⟩ := hs.holds_pointsTo_iff.1 h
  exact ⟨_, ho.find? hs.distinct⟩

/-- The objects of a pointer, by their names. -/
theorem Sound.exists_contains_iff {i : PointerId} {p : Pointer} {x : Place} {id : ObjectId}
    (hi : r.state.IsPointer i p) (hx : r.state.Stands p x) :
    (∃ o, (r.state.elements.pointsTo i).contains o = true ∧
        (r.state.elements.object o).object = id) ↔
      ∃ y, r.Holds (.pointsTo x y) ∧ r.state.heap.find? y.object.origin = some id := by
  constructor
  · rintro ⟨o, ho, rfl⟩
    obtain ⟨_, _, y, _, _, hy, _⟩ := hs.pointsTo i o ho
    exact ⟨y, hs.holds_pointsTo_iff.2 ⟨i, p, o, hi, hx, hy, ho⟩, hy.find? hs.distinct⟩
  · rintro ⟨y, hy, hid⟩
    obtain ⟨j, q, o, hj, hq, ho, hmem⟩ := hs.holds_pointsTo_iff.1 hy
    obtain rfl := hx.unique hs.distinct hq
    obtain rfl := hi.unique hj
    rw [ho.find? hs.distinct, Option.some.injEq] at hid
    exact ⟨o, hmem, hid⟩

/-- Each object of a variable stands for something that the variable points to. -/
theorem Sound.exists_denotes {c : Context} {v : VarId} {o : CsObjectId}
    (ho : (r.pointsToCsVar c v).contains o = true) :
    ∃ y, r.state.Denotes o y ∧ r.Holds (.pointsTo (.var c v) y) := by
  obtain ⟨i, hi, hmem⟩ := State.exists_isPointer ho
  obtain ⟨_, _, y, _, _, hy, _⟩ := hs.pointsTo i o hmem
  exact ⟨y, hy, hs.holds_pointsTo_iff.2 ⟨i, _, o, hi, .var c v, hy, hmem⟩⟩

/-- Whatever a variable points to is one of its objects. -/
theorem Sound.exists_object {c : Context} {v : VarId} {y : HeapObject}
    (hy : r.Holds (.pointsTo (.var c v) y)) :
    ∃ o, (r.pointsToCsVar c v).contains o = true ∧ r.state.Denotes o y := by
  obtain ⟨i, p, o, hi, hx, ho, hmem⟩ := hs.holds_pointsTo_iff.1 hy
  cases hx
  exact ⟨o, by rwa [Solution.pointsToCsVar, hi.objectsOf], ho⟩

/-- An object is listed for a variable if the variable has one of its origin in some context. -/
theorem Sound.mem_pointsToVar {v : VarId} {id : ObjectId} :
    id ∈ r.pointsToVar v ↔ ∃ c y, r.Holds (.pointsTo (.var c v) y) ∧
      r.state.heap.find? y.object.origin = some id := by
  -- The set is a union over the pointers of the variable, one for each context.
  have hset : ∀ o, (((r.state.elements.pointersOf v).map r.state.elements.pointsTo).foldl
      ObjectSet.union .empty).contains o = true ↔
      ∃ i c, r.state.IsPointer i (.var c v) ∧ (r.state.elements.pointsTo i).contains o = true := by
    intro o
    rw [ObjectSet.contains_foldl_union]
    simp only [ObjectSet.contains_empty, Bool.false_eq_true, false_or, List.mem_map,
      Elements.mem_pointersOf]
    constructor
    · rintro ⟨_, ⟨i, ⟨c, hi⟩, rfl⟩, ho⟩
      exact ⟨i, c, hi, ho⟩
    · rintro ⟨i, c, hi, ho⟩
      exact ⟨_, ⟨i, ⟨c, hi⟩, rfl⟩, ho⟩
  rw [Solution.pointsToVar, Solution.mem_objectsOf]
  simp only [hset]
  constructor
  · rintro ⟨-, o, ⟨i, c, hi, ho⟩, hid⟩
    obtain ⟨y, hy⟩ := (hs.exists_contains_iff hi (.var c v)).1 ⟨o, ho, hid⟩
    exact ⟨c, y, hy⟩
  · rintro ⟨c, y, hy, hid⟩
    obtain ⟨i, p, -, hi, hx, -⟩ := hs.holds_pointsTo_iff.1 hy
    cases hx
    obtain ⟨o, ho, hobject⟩ := (hs.exists_contains_iff hi (.var c v)).2 ⟨y, hy, hid⟩
    exact ⟨Heap.lt_of_find? hid, o, ⟨i, c, hi, ho⟩, hobject⟩

/-- An object is listed for a static field if the field has one of its origin. -/
theorem Sound.mem_pointsToStaticField {f : FieldId} {id : ObjectId} :
    id ∈ r.pointsToStaticField f ↔ ∃ y, r.Holds (.pointsTo (.staticField f) y) ∧
      r.state.heap.find? y.object.origin = some id := by
  rw [Solution.pointsToStaticField, Solution.mem_objectsOf]
  constructor
  · rintro ⟨-, o, ho, hid⟩
    obtain ⟨i, hi, hmem⟩ := State.exists_isPointer ho
    exact (hs.exists_contains_iff hi (.staticField f)).1 ⟨o, hmem, hid⟩
  · rintro ⟨y, hy, hid⟩
    obtain ⟨i, p, -, hi, hx, -⟩ := hs.holds_pointsTo_iff.1 hy
    cases hx
    obtain ⟨o, ho, hobject⟩ := (hs.exists_contains_iff hi (.staticField f)).2 ⟨y, hy, hid⟩
    exact ⟨Heap.lt_of_find? hid, o, by rwa [hi.objectsOf], hobject⟩

end Objects

end PointsTo
