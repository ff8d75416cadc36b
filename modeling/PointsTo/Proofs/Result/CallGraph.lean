import PointsTo.Result.CallGraph

/-! # Questions to a call graph

All questions about the calls of a graph are answered through the positions of methods. They ask for one
relation: that there is a call from a method to another.
-/

namespace PointsTo.CallGraph

/-! ## Lists without duplicates -/

section Lists

variable {α : Type} [DecidableEq α] {l : List α} {a : α}

theorem mem_sortedSet {key : α → Nat} : a ∈ sortedSet key l ↔ a ∈ l := by
  rw [sortedSet, List.mem_eraseDups, List.mem_mergeSort]

/-- A list keeps the order of what is left when duplicates are erased. -/
theorem eraseDups_sublist (l : List α) : l.eraseDups.Sublist l :=
  eraseDups_induction (P := fun l l' => l'.Sublist l) .slnil
    (fun a _ _ hl _ => (hl.trans List.filter_sublist).cons_cons a) l

/-- The set is listed in the order of keys that tell its members apart. -/
theorem pairwise_sortedSet {key : α → Nat} (hkey : ∀ a b, key a = key b → a = b) (l : List α) :
    (sortedSet key l).Pairwise (key · < key ·) := by
  have hsorted : (l.mergeSort fun a b => decide (key a ≤ key b)).Pairwise (key · ≤ key ·) := by
    refine (List.pairwise_mergeSort (fun a b c hab hbc => ?_) (fun a b => ?_) l).imp fun h => ?_
    · rw [decide_eq_true_eq] at hab hbc ⊢
      exact Nat.le_trans hab hbc
    · rw [Bool.or_eq_true, decide_eq_true_eq, decide_eq_true_eq]
      exact Nat.le_total _ _
    · exact of_decide_eq_true h
  have hnodup : (sortedSet key l).Pairwise (· ≠ ·) := nodup_eraseDups _
  refine ((hsorted.sublist (eraseDups_sublist _)).and hnodup).imp fun {a b} h => ?_
  exact Nat.lt_of_le_of_ne h.1 fun heq => h.2 (hkey a b heq)

end Lists

/-! ## Calls -/

variable {g : CallGraph} {a b : MethodId} {call : Call}

/-- There is a call from the first method to the second one. -/
def Calls (g : CallGraph) (a b : MethodId) : Prop := ∃ call, g.call? a b = some call

/-- A graph has at most one call from a position to another. -/
theorem find?_ends_eq_some_iff {c : CallArc} {ends : Nat × Nat} :
    g.calls.find? (·.ends = ends) = some c ↔ c ∈ g.calls ∧ c.ends = ends := by
  constructor
  · intro h
    exact ⟨List.mem_of_find?_eq_some h, by simpa using List.find?_some h⟩
  · rintro ⟨hc, rfl⟩
    obtain ⟨before, after, heq⟩ := List.append_of_mem hc
    have happart := g.apart
    rw [heq, List.map_append, List.map_cons, List.nodup_append] at happart
    refine List.find?_eq_some_iff_append.2 ⟨by simp, before, after, heq, fun c' hc' => ?_⟩
    simpa using happart.2.2 _ (List.mem_map_of_mem hc') _ (List.mem_cons_self ..)

theorem mem_methodIds : a ∈ g.methodIds ↔ ∃ i, g.position? a = some i := by
  rw [List.mem_iff_getElem?]
  exact exists_congr fun i => by rw [getElem?_methodIds, position?_eq_some_iff]

theorem position?_nodeAt {i : Nat} (hi : i < g.methods.length) :
    g.position? (g.nodeAt i).id = some i :=
  g.position?_eq_some_iff.2 ⟨hi, rfl⟩

/-- Calls are found by the methods at their ends. -/
theorem call?_eq_some_iff : g.call? a b = some call ↔
    ∃ c ∈ g.calls, g.position? a = some c.source ∧ g.position? b = some c.target ∧ c.call = call := by
  simp only [call?, Option.bind_eq_bind, Option.bind_eq_some_iff, Option.map_eq_some_iff,
    find?_ends_eq_some_iff]
  constructor
  · rintro ⟨i, hi, j, hj, c, ⟨hc, hends⟩, hcall⟩
    obtain ⟨rfl, rfl⟩ := Prod.mk.inj hends
    exact ⟨c, hc, hi, hj, hcall⟩
  · rintro ⟨c, hc, hi, hj, hcall⟩
    exact ⟨_, hi, _, hj, c, ⟨hc, rfl⟩, hcall⟩

/-- Methods call each other along the arcs between their positions. -/
theorem calls_iff : g.Calls a b ↔
    ∃ c ∈ g.calls, g.position? a = some c.source ∧ g.position? b = some c.target := by
  simp only [Calls, call?_eq_some_iff]
  constructor
  · rintro ⟨_, c, hc, ha, hb, -⟩
    exact ⟨c, hc, ha, hb⟩
  · rintro ⟨c, hc, ha, hb⟩
    exact ⟨_, c, hc, ha, hb, rfl⟩

/-- Calls are between methods of the graph. -/
theorem Calls.mem_methodIds (h : g.Calls a b) : a ∈ g.methodIds ∧ b ∈ g.methodIds := by
  obtain ⟨c, -, ha, hb⟩ := calls_iff.1 h
  exact ⟨CallGraph.mem_methodIds.2 ⟨_, ha⟩, CallGraph.mem_methodIds.2 ⟨_, hb⟩⟩

/-- The callees of a method are those that it calls. -/
theorem mem_calleesOf : b ∈ g.calleesOf a ↔ g.Calls a b := by
  rw [calls_iff, calleesOf]
  split
  · rename_i hnone
    simp [hnone]
  · rename_i i hi
    simp only [mem_sortedSet, List.mem_map, List.mem_filter, decide_eq_true_eq, hi, Option.some.injEq]
    constructor
    · rintro ⟨c, ⟨hc, rfl⟩, rfl⟩
      exact ⟨c, hc, rfl, position?_nodeAt (g.inRange c hc).2⟩
    · rintro ⟨c, hc, rfl, hb⟩
      exact ⟨c, ⟨hc, rfl⟩, (g.position?_eq_some_iff.1 hb).2⟩

/-- The callers of a method are those that call it. -/
theorem mem_callersOf : a ∈ g.callersOf b ↔ g.Calls a b := by
  rw [calls_iff, callersOf]
  split
  · rename_i hnone
    simp [hnone]
  · rename_i j hj
    simp only [mem_sortedSet, List.mem_map, List.mem_filter, decide_eq_true_eq, hj, Option.some.injEq]
    constructor
    · rintro ⟨c, ⟨hc, rfl⟩, rfl⟩
      exact ⟨c, hc, position?_nodeAt (g.inRange c hc).1, rfl⟩
    · rintro ⟨c, hc, ha, rfl⟩
      exact ⟨c, ⟨hc, rfl⟩, (g.position?_eq_some_iff.1 ha).2⟩

end PointsTo.CallGraph
