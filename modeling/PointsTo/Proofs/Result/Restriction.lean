import PointsTo.Proofs.Program.Ancestry
import PointsTo.Proofs.Result.CallGraph

/-! # Restricted call graphs

A graph is restricted to chosen methods and all methods that lead to them. The search goes from all chosen
methods at once against the direction of calls, and what it finds does not depend on cycles or on chosen
methods that lead to each other. The methods that are left get new positions: calls and the table follow
them, so nothing but the methods that are gone is lost.
-/

namespace PointsTo.CallGraph

open Relation (ReflTransGen)

variable {g : CallGraph} {keep : Nat → Bool} {i j : Nat} {a b : MethodId} {call : Call}

/-! ## Parts -/

theorem map_nodeAt_indices (g : CallGraph) : g.indices.map g.nodeAt = g.methods := by
  refine List.ext_getElem (by simp [indices]) fun i _ hi => ?_
  simp [indices, nodeAt, hi]

theorem mem_methods {n : CallNode} : n ∈ g.methods ↔ ∃ i, i < g.methods.length ∧ g.nodeAt i = n := by
  have hmem : n ∈ g.indices.map g.nodeAt ↔ ∃ i, i < g.methods.length ∧ g.nodeAt i = n := by
    simp only [List.mem_map, mem_indices]
  rwa [g.map_nodeAt_indices] at hmem

theorem idxOf_indices (h : i < g.methods.length) : g.indices.idxOf i = i := by
  have hnodup : g.indices.Nodup := List.nodup_range
  have hplace := hnodup.idxOf_getElem i (by simpa [indices] using h)
  simpa [indices] using hplace

/-- The methods of a part are in the order of the graph. -/
theorem methods_part_sublist (g : CallGraph) (keep : Nat → Bool) :
    (g.part keep).methods.Sublist g.methods := by
  have hkept : (g.kept keep).Sublist g.indices := List.filter_sublist
  have hmethods := hkept.map g.nodeAt
  rwa [g.map_nodeAt_indices] at hmethods

/-- A part has the nodes at the positions that are kept. -/
theorem mem_methods_part {n : CallNode} :
    n ∈ (g.part keep).methods ↔ ∃ i, i < g.methods.length ∧ keep i = true ∧ g.nodeAt i = n := by
  simp only [part, List.mem_map, mem_kept, and_assoc]

/-- A method that is kept has the place of its old position among those that are kept. -/
theorem position?_part : (g.part keep).position? a = some j ↔
    ∃ i, g.position? a = some i ∧ keep i = true ∧ (g.kept keep).idxOf i = j := by
  have hplace : (g.part keep).position? a = some j ↔
      ∃ i, (g.kept keep)[j]? = some i ∧ (g.nodeAt i).id = a := by
    rw [position?, (g.part keep).isPosition, part, List.map_map, List.getElem?_map,
      Option.map_eq_some_iff]
    rfl
  have hkept : (g.kept keep).Nodup := List.nodup_range.sublist List.filter_sublist
  rw [hplace]
  constructor
  · rintro ⟨i, hi, hid⟩
    obtain ⟨hlt, hkeep⟩ := (g.mem_kept keep).1 (List.mem_of_getElem? hi)
    obtain ⟨hj, rfl⟩ := List.getElem?_eq_some_iff.1 hi
    exact ⟨_, g.position?_eq_some_iff.2 ⟨hlt, hid⟩, hkeep, hkept.idxOf_getElem j hj⟩
  · rintro ⟨i, hi, hkeep, rfl⟩
    obtain ⟨hlt, hid⟩ := g.position?_eq_some_iff.1 hi
    have hlt' := List.idxOf_lt_length_iff.2 ((g.mem_kept keep).2 ⟨hlt, hkeep⟩)
    exact ⟨i, List.getElem?_eq_some_iff.2 ⟨hlt', List.getElem_idxOf hlt'⟩, hid⟩

/-- A part has the methods whose positions are kept. -/
theorem mem_methodIds_part :
    a ∈ (g.part keep).methodIds ↔ ∃ i, g.position? a = some i ∧ keep i = true := by
  rw [mem_methodIds]
  constructor
  · rintro ⟨j, hj⟩
    obtain ⟨i, hi, hkeep, -⟩ := position?_part.1 hj
    exact ⟨i, hi, hkeep⟩
  · rintro ⟨i, hi, hkeep⟩
    exact ⟨_, position?_part.2 ⟨i, hi, hkeep, rfl⟩⟩

/-- New positions are told apart as the old ones are. -/
theorem position?_part_idxOf (hi : i ∈ g.kept keep) :
    (g.part keep).position? a = some ((g.kept keep).idxOf i) ↔ g.position? a = some i := by
  rw [position?_part]
  constructor
  · rintro ⟨k, hk, hkeep, heq⟩
    have hmem := (g.mem_kept keep).2 ⟨(g.position?_eq_some_iff.1 hk).1, hkeep⟩
    rwa [eq_of_idxOf_eq hmem hi heq] at hk
  · intro ha
    exact ⟨i, ha, ((g.mem_kept keep).1 hi).2, rfl⟩

/-- A part has the calls between the methods that are kept. -/
theorem call?_part : (g.part keep).call? a b = some call ↔
    g.call? a b = some call ∧ a ∈ (g.part keep).methodIds ∧ b ∈ (g.part keep).methodIds := by
  rw [call?_eq_some_iff, call?_eq_some_iff]
  constructor
  · rintro ⟨c', hc', ha, hb, rfl⟩
    refine ⟨?_, mem_methodIds.2 ⟨_, ha⟩, mem_methodIds.2 ⟨_, hb⟩⟩
    -- An arc of the part comes from one of the graph, whose ends are both kept.
    obtain ⟨c, hc, rfl⟩ := List.mem_map.1 hc'
    obtain ⟨hsource, htarget⟩ := g.mem_kept_of_arc keep hc
    exact ⟨c, (List.mem_filter.1 hc).1, (position?_part_idxOf hsource).1 ha,
      (position?_part_idxOf htarget).1 hb, rfl⟩
  · rintro ⟨⟨c, hc, ha, hb, rfl⟩, ha', hb'⟩
    -- Methods of the part were kept, and so are both ends of the call.
    have hkept {m : MethodId} {i : Nat} (hm : g.position? m = some i)
        (hm' : m ∈ (g.part keep).methodIds) : keep i = true := by
      obtain ⟨k, hk, hkeep⟩ := mem_methodIds_part.1 hm'
      cases hm.symm.trans hk
      exact hkeep
    have hmem : c ∈ g.calls.filter fun c => keep c.source && keep c.target :=
      List.mem_filter.2 ⟨hc, by rw [hkept ha ha', hkept hb hb', Bool.and_self]⟩
    obtain ⟨hsource, htarget⟩ := g.mem_kept_of_arc keep hmem
    exact ⟨_, List.mem_map.2 ⟨c, hmem, rfl⟩, (position?_part_idxOf hsource).2 ha,
      (position?_part_idxOf htarget).2 hb, rfl⟩

/-- Nothing happens to a part of which everything is kept. -/
theorem part_part {keep' : Nat → Bool}
    (h : ∀ i, i < (g.part keep).methods.length → keep' i = true) :
    (g.part keep).part keep' = g.part keep := by
  generalize hpart : g.part keep = p at h
  have hpositions : p.positions = (p.methods.map (·.id)).zipIdx := by
    rw [← hpart]
    rfl
  -- Everything is kept, so that positions stay what they are.
  have hkept : p.kept keep' = p.indices :=
    List.filter_eq_self.2 fun i hi => h i (p.mem_indices.1 hi)
  have hmethods : (p.part keep').methods = p.methods := by
    show (p.kept keep').map p.nodeAt = p.methods
    rw [hkept, p.map_nodeAt_indices]
  refine CallGraph.ext hmethods ?_ ?_
  · have hcalls : p.calls.filter (fun c => keep' c.source && keep' c.target) = p.calls :=
      List.filter_eq_self.2 fun c hc => by
        rw [h _ (p.inRange c hc).1, h _ (p.inRange c hc).2, Bool.and_self]
    show ((p.calls.filter fun c => keep' c.source && keep' c.target).map fun c =>
      CallArc.mk ((p.kept keep').idxOf c.source) ((p.kept keep').idxOf c.target) c.call) = p.calls
    rw [hcalls, hkept]
    refine (List.map_congr_left fun c hc => ?_).trans (List.map_id _)
    rw [idxOf_indices (p.inRange c hc).1, idxOf_indices (p.inRange c hc).2, id]
  · rw [hpositions, ← hmethods]
    rfl

/-! ## Methods that lead to chosen ones -/

/-- Calls lead from the method to one that is chosen. -/
def Leads (g : CallGraph) (chosen : CallNode → Bool) (m : MethodId) : Prop :=
  ∃ t ∈ g.methods, chosen t = true ∧ ReflTransGen g.Calls m t.id

/-- The sources of a position are those of the arcs that end there. -/
theorem mem_sourcesOf : j ∈ g.sourcesOf i ↔ ∃ c ∈ g.calls, c.source = j ∧ c.target = i := by
  simp only [sourcesOf, List.mem_map, List.mem_filter, decide_eq_true_eq, and_assoc]
  exact exists_congr fun c => and_congr_right fun _ => and_comm

/-- The search against the direction of calls follows the calls between methods. -/
theorem path_iff (hi : g.position? a = some i) (hj : g.position? b = some j) :
    ReflTransGen (fun x y => y ∈ g.sourcesOf x) j i ↔ ReflTransGen g.Calls a b := by
  -- By induction on the search, which goes against the direction of calls.
  constructor
  · intro h
    induction h generalizing a with
    | refl =>
        obtain ⟨-, rfl⟩ := g.position?_eq_some_iff.1 hi
        obtain ⟨-, rfl⟩ := g.position?_eq_some_iff.1 hj
        exact .refl
    | @tail k i _ hstep ih =>
        obtain ⟨c, hc, rfl, rfl⟩ := mem_sourcesOf.1 hstep
        have hk := position?_nodeAt (g.inRange c hc).2
        exact (ih hk).head (calls_iff.2 ⟨c, hc, hi, hk⟩)
  -- By induction on the calls from their start, which is where the search ends.
  · intro h
    induction h using ReflTransGen.head_induction_on generalizing i with
    | refl =>
        cases hi.symm.trans hj
        exact .refl
    | head hstep _ ih =>
        obtain ⟨c, hc, hsource, htarget⟩ := calls_iff.1 hstep
        cases hi.symm.trans hsource
        exact (ih htarget).tail (mem_sourcesOf.2 ⟨c, hc, rfl, rfl⟩)

/-- The search has enough steps: one for each method and one for each call. -/
theorem reachBound_sourcesOf_le (g : CallGraph) (chosen : Nat → Bool) :
    reachBound g.sourcesOf g.indices (g.indices.filter chosen) ≤
      g.calls.length + g.methods.length + 1 := by
  have hnodup : g.indices.Nodup := List.nodup_range
  have hcalls := length_flatMap_filter_le hnodup (·.target) g.calls
  have hmethods := List.length_filter_le chosen g.indices
  have hsources : g.indices.flatMap g.sourcesOf =
      (g.indices.flatMap fun i => g.calls.filter (·.target = i)).map (·.source) := by
    rw [List.map_flatMap]
    rfl
  rw [indices, List.length_range] at hmethods
  rw [reachBound, hsources, List.length_map]
  rw [indices] at hcalls ⊢
  omega

/-- The search finds the positions of the methods that lead to chosen ones. -/
theorem mem_leadingTo {chosen : CallNode → Bool} (hi : g.position? a = some i) :
    i ∈ g.leadingTo chosen ↔ g.Leads chosen a := by
  have hclosed : ∀ x ∈ g.indices, ∀ y ∈ g.sourcesOf x, y ∈ g.indices := by
    -- Arcs are between positions of the graph, so that the search stays in range and its bound
    -- suffices.
    intro x _ y hy
    obtain ⟨c, hc, rfl, -⟩ := mem_sourcesOf.1 hy
    exact g.mem_indices.2 (g.inRange c hc).1
  rw [leadingTo, mem_reach_iff hclosed (fun x hx => (List.mem_filter.1 hx).1)
    (g.reachBound_sourcesOf_le _), Leads]
  constructor
  · rintro ⟨j, hj, hpath⟩
    obtain ⟨hlt, hchosen⟩ := List.mem_filter.1 hj
    have hlt := g.mem_indices.1 hlt
    exact ⟨g.nodeAt j, mem_methods.2 ⟨j, hlt, rfl⟩, hchosen,
      (path_iff hi (position?_nodeAt hlt)).1 hpath⟩
  · rintro ⟨t, ht, hchosen, hpath⟩
    obtain ⟨j, hlt, rfl⟩ := mem_methods.1 ht
    exact ⟨j, List.mem_filter.2 ⟨g.mem_indices.2 hlt, hchosen⟩,
      (path_iff hi (position?_nodeAt hlt)).2 hpath⟩

/-! ## Restrictions -/

/-- A restriction has the methods that lead to chosen ones, and as the same nodes. -/
theorem mem_methods_restrict {chosen : CallNode → Bool} {n : CallNode} :
    n ∈ (g.restrict chosen).methods ↔ n ∈ g.methods ∧ g.Leads chosen n.id := by
  rw [restrict, mem_methods_part]
  constructor
  · rintro ⟨i, hlt, hkeep, rfl⟩
    exact ⟨mem_methods.2 ⟨i, hlt, rfl⟩,
      (mem_leadingTo (position?_nodeAt hlt)).1 (of_decide_eq_true hkeep)⟩
  · rintro ⟨hn, hleads⟩
    obtain ⟨i, hlt, rfl⟩ := mem_methods.1 hn
    exact ⟨i, hlt, decide_eq_true ((mem_leadingTo (position?_nodeAt hlt)).2 hleads), rfl⟩

section Restrict

variable {chosen : CallNode → Bool}

/-- What leads to a chosen method is a method of the graph. -/
theorem Leads.mem_methodIds (h : g.Leads chosen a) : a ∈ g.methodIds := by
  obtain ⟨t, ht, -, hpath⟩ := h
  obtain rfl | ⟨b, hstep, -⟩ := hpath.cases_head
  · exact List.mem_map_of_mem ht
  · exact hstep.mem_methodIds.1

/-- The methods of a restriction are those that lead to chosen ones. -/
theorem mem_methodIds_restrict : a ∈ (g.restrict chosen).methodIds ↔ g.Leads chosen a := by
  rw [methodIds, List.mem_map]
  constructor
  · rintro ⟨n, hn, rfl⟩
    exact (mem_methods_restrict.1 hn).2
  · intro h
    obtain ⟨n, hn, rfl⟩ := List.mem_map.1 h.mem_methodIds
    exact ⟨n, mem_methods_restrict.2 ⟨hn, h⟩, rfl⟩

/-- Paths to chosen methods stay inside the restricted graph: all methods on them lead to chosen ones. -/
theorem Leads.restrict (h : g.Leads chosen a) : (g.restrict chosen).Leads chosen a := by
  obtain ⟨t, ht, hchosen, hpath⟩ := h
  have htarget : t ∈ (g.restrict chosen).methods :=
    mem_methods_restrict.2 ⟨ht, t, ht, hchosen, .refl⟩
  refine ⟨t, htarget, hchosen, ?_⟩
  induction hpath using ReflTransGen.head_induction_on with
  | refl => exact .refl
  | head hstep hrest ih =>
      have hcallee := mem_methodIds_restrict.2 ⟨t, ht, hchosen, hrest⟩
      have hcaller := mem_methodIds_restrict.2 ⟨t, ht, hchosen, hrest.head hstep⟩
      obtain ⟨call, hcall⟩ := hstep
      exact ih.head ⟨call, call?_part.2 ⟨hcall, hcaller, hcallee⟩⟩

/-- Nothing is lost when a graph is restricted again. -/
theorem restrict_restrict : (g.restrict chosen).restrict chosen = g.restrict chosen := by
  refine part_part fun i hi => decide_eq_true ?_
  have hmem := mem_methodIds.2 ⟨i, position?_nodeAt hi⟩
  exact (mem_leadingTo (position?_nodeAt hi)).2 (mem_methodIds_restrict.1 hmem).restrict

end Restrict

/-- A restricted graph has the methods from which calls lead to chosen ones, in their old order. Between
them it has the calls of the graph, and no others. Its table has the places where its methods are now, and no
others. To restrict it again changes nothing. -/
theorem restrict_leaves_leading (g : CallGraph) (chosen : CallNode → Bool) :
    (g.restrict chosen).methods.Sublist g.methods
      ∧ (∀ n, n ∈ (g.restrict chosen).methods ↔
          n ∈ g.methods ∧ ∃ t ∈ g.methods, chosen t = true ∧ ReflTransGen g.Calls n.id t.id)
      ∧ (∀ a ∈ (g.restrict chosen).methodIds, ∀ b ∈ (g.restrict chosen).methodIds,
          (g.restrict chosen).call? a b = g.call? a b)
      ∧ (∀ c ∈ (g.restrict chosen).calls, ∃ a ∈ (g.restrict chosen).methodIds,
          ∃ b ∈ (g.restrict chosen).methodIds, (g.restrict chosen).position? a = some c.source
            ∧ (g.restrict chosen).position? b = some c.target ∧ g.call? a b = some c.call)
      ∧ (∀ m i, ((m, i) ∈ (g.restrict chosen).positions ↔ (g.restrict chosen).methodIds[i]? = some m)
          ∧ ((g.restrict chosen).position? m = some i ↔ (g.restrict chosen).methodIds[i]? = some m))
      ∧ (g.restrict chosen).restrict chosen = g.restrict chosen := by
  refine ⟨g.methods_part_sublist _, fun n => mem_methods_restrict, ?_, ?_, ?_, restrict_restrict⟩
  · intro a ha b hb
    refine Option.ext fun call => call?_part.trans ?_
    exact ⟨And.left, fun h => ⟨h, ha, hb⟩⟩
  · intro c hc
    obtain ⟨hsource, htarget⟩ := (g.restrict chosen).inRange c hc
    have hsource := position?_nodeAt hsource
    have htarget := position?_nodeAt htarget
    have hcall := call?_part.1 (call?_eq_some_iff.2 ⟨c, hc, hsource, htarget, rfl⟩)
    exact ⟨_, hcall.2.1, _, hcall.2.2, hsource, htarget, hcall.1⟩
  · exact fun m i => ⟨List.mem_zipIdx_iff_getElem?, (g.restrict chosen).isPosition m i⟩

/-- Four methods: the first one calls itself, the next two call each other, and one of them calls the last
one. -/
def cyclic : CallGraph :=
  let node (i : Nat) : CallNode := ⟨⟨i⟩, "A", "m", "m()V", true, false⟩
  let edge (i j : Nat) : Projection := ⟨⟨i⟩, ⟨j⟩, ⟨0⟩, .static⟩
  (ofMethods ((List.range 4).map node) (by decide)).withCalls
    [edge 0 0, edge 1 2, edge 2 1, edge 2 3, edge 3 0]

/-- The first method goes, so the others move up. -/
theorem restrict_leaves_leading_cyclic :
    (cyclic.restrict (·.id = ⟨3⟩)).methodIds = [⟨1⟩, ⟨2⟩, ⟨3⟩] ∧
      (cyclic.restrict (·.id = ⟨3⟩)).calls.map (·.ends) = [(0, 1), (1, 0), (1, 2)] ∧
      (∃ t ∈ cyclic.methods, t.id = ⟨3⟩ ∧ ReflTransGen cyclic.Calls ⟨1⟩ t.id) ∧
      (cyclic.restrict (·.id = ⟨3⟩)).call? ⟨2⟩ ⟨1⟩ = cyclic.call? ⟨2⟩ ⟨1⟩ ∧
      (cyclic.restrict (·.id = ⟨3⟩)).position? ⟨3⟩ = some 2 := by
  have hrun : (cyclic.restrict (·.id = ⟨3⟩)).methodIds = [⟨1⟩, ⟨2⟩, ⟨3⟩] ∧
      (cyclic.restrict (·.id = ⟨3⟩)).calls.map (·.ends) = [(0, 1), (1, 0), (1, 2)] := by
    decide +kernel
  obtain ⟨-, hmethods, hcalls, -, htable, -⟩ := cyclic.restrict_leaves_leading (·.id = ⟨3⟩)
  refine ⟨hrun.1, hrun.2, ?_, hcalls _ (by simp [hrun.1]) _ (by simp [hrun.1]), ?_⟩
  · have hmem : ⟨1⟩ ∈ (cyclic.restrict (·.id = ⟨3⟩)).methodIds := by simp [hrun.1]
    obtain ⟨n, hn, hid⟩ := List.mem_map.1 hmem
    obtain ⟨-, t, ht, hchosen, hpath⟩ := (hmethods n).1 hn
    exact ⟨t, ht, of_decide_eq_true hchosen, hid ▸ hpath⟩
  · exact (htable ⟨3⟩ 2).2.2 (by simp [hrun.1])

end PointsTo.CallGraph
