import PointsTo.Proofs.Result.Derivation
import PointsTo.Proofs.Result.Queries
import PointsTo.Proofs.Solver.CallSites
import PointsTo.Result.CallGraph
import Mathlib.Data.Set.Card

/-! # Agreement of queries

A result has much of what it says in more than one place: pointers are listed for their variables, and call
edges for their call sites and their callees, call sites are listed for methods, and the statistics count
what other tables hold. Whatever way a question is asked, the answer is the same.
-/

namespace PointsTo

/-! ## Lists without duplicates -/

/-- Items that are put apart by their keys are all there, once each. -/
theorem flatMap_filter_perm {α κ : Type} [DecidableEq κ] {keys : List κ} {items : List α} {key : α → κ}
    (hkeys : keys.Nodup) (hitems : items.Nodup) (hcovered : ∀ a ∈ items, key a ∈ keys) :
    (keys.flatMap fun k => items.filter (key · = k)).Perm items := by
  have hnodup : (keys.flatMap fun k => items.filter (key · = k)).Nodup := by
    refine List.nodup_flatMap.2 ⟨fun k _ => hitems.filter _, hkeys.imp fun {k k'} hne a ha ha' => hne ?_⟩
    rw [List.mem_filter, decide_eq_true_eq] at ha ha'
    exact ha.2.symm.trans ha'.2
  refine (List.perm_ext_iff_of_nodup hnodup hitems).2 fun a => ?_
  simp only [List.mem_flatMap, List.mem_filter, decide_eq_true_eq]
  constructor
  · rintro ⟨_, -, ha, -⟩
    exact ha
  · intro ha
    exact ⟨key a, hcovered a ha, ha, rfl⟩

/-- A list without duplicates is as long as the set of its members is large. -/
theorem ncard_eq_length {α : Type} {P : α → Prop} {l : List α} (hl : l.Nodup) (h : ∀ a, P a ↔ a ∈ l) :
    {a | P a}.ncard = l.length := by
  classical
  have hset : {a | P a} = l.toFinset := Set.ext fun a => by
    rw [List.coe_toFinset, Set.mem_ofPred_eq, Set.mem_ofPred_eq, h]
  rw [hset, Set.ncard_coe_finset, List.toFinset_card_of_nodup hl]

/-- An array in which nothing has two places. -/
theorem nodup_toList_of_getElem? {α : Type} {xs : Array α}
    (h : ∀ (i j : Nat) (a : α), xs[i]? = some a → xs[j]? = some a → i = j) : xs.toList.Nodup := by
  refine List.nodup_iff_pairwise_ne.2 (List.pairwise_iff_getElem.2 fun i j hi hj hij heq => ?_)
  have hboth : xs[j]? = some (xs.toList[i]) := heq ▸ Array.getElem?_eq_getElem hj
  exact Nat.ne_of_lt hij (h i j _ (Array.getElem?_eq_getElem hi) hboth)

/-- A table numbers each item once. -/
theorem Table.nodup_items {α : Type} {key : α → Nat} (t : Table α key) : t.items.toList.Nodup :=
  nodup_toList_of_getElem? t.distinct

/-- A heap that is built by the solver has each object once. -/
theorem Heap.Distinct.nodup_objects {h : Heap} (hd : h.Distinct) : h.objects.toList.Nodup :=
  nodup_toList_of_getElem? fun i j o hi hj => hd i j o o hi hj rfl

theorem Heap.pairwise_ids (h : Heap) : h.ids.Pairwise (·.idx < ·.idx) :=
  List.pairwise_map.2 List.pairwise_lt_range

theorem Program.pairwise_methodIds (p : Program) : p.methodIds.Pairwise (·.idx < ·.idx) :=
  List.pairwise_map.2 List.pairwise_lt_range

namespace Elements

def callSiteIds (e : Elements) : List CsCallSiteId := (List.range e.callSites.size).map CsCallSiteId.mk

def methodIds (e : Elements) : List CsMethodId := (List.range e.methods.size).map CsMethodId.mk

theorem nodup_callSiteIds (e : Elements) : e.callSiteIds.Nodup :=
  List.nodup_range.map fun _ _ => CsCallSiteId.mk.inj

theorem nodup_methodIds (e : Elements) : e.methodIds.Nodup :=
  List.nodup_range.map fun _ _ => CsMethodId.mk.inj

end Elements

namespace State

variable {s : State}

theorem IsCallSite.mem_callSiteIds {i : CsCallSiteId} {c : CsCallSite} (h : s.IsCallSite i c) :
    i ∈ s.elements.callSiteIds :=
  List.mem_map.2 ⟨i.idx, List.mem_range.2 (Table.lt_size_of_getElem? h), rfl⟩

theorem IsMethod.mem_methodIds {i : CsMethodId} {m : CsMethod} (h : s.IsMethod i m) :
    i ∈ s.elements.methodIds :=
  List.mem_map.2 ⟨i.idx, List.mem_range.2 (Table.lt_size_of_getElem? h), rfl⟩

theorem IsCallSite.unique {i j : CsCallSiteId} {c : CsCallSite} (hi : s.IsCallSite i c)
    (hj : s.IsCallSite j c) : i = j :=
  congrArg CsCallSiteId.mk (s.elements.callSites.distinct i.idx j.idx c hi hj)

theorem IsMethod.unique {i j : CsMethodId} {m : CsMethod} (hi : s.IsMethod i m)
    (hj : s.IsMethod j m) : i = j :=
  congrArg CsMethodId.mk (s.elements.methods.distinct i.idx j.idx m hi hj)

/-- What has an identifier is what is in the table. -/
theorem exists_isPointer_iff {p : Pointer} :
    (∃ i, s.IsPointer i p) ↔ p ∈ s.elements.pointers.items.toList := by
  rw [Array.mem_toList_iff, Array.mem_iff_getElem?]
  exact ⟨fun ⟨i, hi⟩ => ⟨i.idx, hi⟩, fun ⟨n, hn⟩ => ⟨⟨n⟩, hn⟩⟩

/-- An object has an identifier exactly if it is in the table. -/
theorem exists_isObject_iff {o : CsObject} :
    (∃ i, s.IsObject i o) ↔ o ∈ s.elements.objects.items.toList := by
  rw [Array.mem_toList_iff, Array.mem_iff_getElem?]
  exact ⟨fun ⟨i, hi⟩ => ⟨i.idx, hi⟩, fun ⟨n, hn⟩ => ⟨⟨n⟩, hn⟩⟩

end State

/-! ## What agrees -/

namespace Solution

/-- What is said about the objects of a variable, in all contexts and in each of them. -/
structure VariablesAgree (r : Solution) : Prop where
  /-- A variable has the objects that it has in some context. -/
  union : ∀ v id, id ∈ r.pointsToVar v ↔ ∃ c o, (r.pointsToCsVar c v).contains o = true ∧
    (r.state.elements.object o).object = id
  sorted : ∀ v, (r.pointsToVar v).Pairwise (·.idx < ·.idx)
  /-- The pointers that are listed for a variable are all of them, each once and in the order in which they
  were made. -/
  pointers : ∀ v, r.state.elements.pointersOf v =
    r.state.elements.pointerIds.filter fun i => (r.state.elements.pointer i).varId? = some v

/-- What is said about calls: of a statement, of its call sites, of methods and of all edges. -/
structure CallsAgree (r : Solution) : Prop where
  /-- A statement calls the methods that its call sites call. -/
  callees : ∀ s m, m ∈ r.calleesOf s ↔ ∃ i ∈ r.state.elements.callSiteIds,
    (r.state.elements.callSite i).stmt = s ∧
      ∃ e ∈ r.state.calls.edgesOutOf i, (r.state.elements.method e.callee).method = m
  sorted : ∀ s, (r.calleesOf s).Pairwise (·.idx < ·.idx)
  once : r.state.calls.edges.toList.Nodup
  /-- The edges of all call sites together are all edges. -/
  outOf : (r.state.elements.callSiteIds.flatMap fun i => (r.state.calls.edgesOutOf i).toList).Perm
    r.state.calls.edges.toList
  /-- The edges to all methods together are all edges. -/
  into : (r.state.elements.methodIds.flatMap r.state.calls.edgesInto).Perm r.state.calls.edges.toList
  /-- The call sites that are listed for a method are those of its body, in order and in its context. -/
  callSites : ∀ i m, r.state.IsMethod i m →
    List.Forall₂ r.state.IsCallSite (r.state.calls.callSitesIn i).toList (r.program.callSitesOf m)

/-- What is said about the contexts of a method. -/
structure ContextsAgree (r : Solution) : Prop where
  once : ∀ m, (r.contextsOf m).Nodup
  reach : ∀ m c, c ∈ r.contextsOf m ↔ r.Holds (.reach ⟨c, m⟩)

/-- The statistics are the sizes of what was found. -/
structure CountsAgree (r : Solution) : Prop where
  reachableMethods : r.statistics.reachableMethods = {m | ∃ c, r.Holds (.reach ⟨c, m⟩)}.ncard
  reachableCsMethods : r.statistics.reachableCsMethods = {m | r.Holds (.reach m)}.ncard
  callEdges : r.statistics.callEdges =
    {x : CallKind × CsCallSite × CsMethod | r.Holds (.call x.1 x.2.1 x.2.2)}.ncard
  pointers : r.statistics.pointers = {p | ∃ i, r.state.IsPointer i p}.ncard
  objects : r.statistics.objects = {o | o ∈ r.state.heap.objects}.ncard
  csObjects : r.statistics.csObjects = {o | ∃ i, r.state.IsObject i o}.ncard

end Solution

/-! ## Answers agree -/

namespace Solution.Answers

variable {a : Analysis} {r : Solution} {entry : MethodId} (h : r.Answers a entry)

include h

/-- Objects of a variable are those of its pointers, in all contexts and in each one. -/
theorem variablesAgree : r.VariablesAgree where
  union v id := by
    rw [h.sound.mem_pointsToVar]
    constructor
    · rintro ⟨c, y, hy, hid⟩
      obtain ⟨o, ho, hd⟩ := h.sound.exists_object hy
      exact ⟨c, o, ho, Option.some.inj ((hd.find? h.sound.distinct).symm.trans hid)⟩
    · rintro ⟨c, o, ho, rfl⟩
      obtain ⟨y, hd, hy⟩ := h.sound.exists_denotes ho
      exact ⟨c, y, hy, hd.find? h.sound.distinct⟩
  sorted v := r.state.heap.pairwise_ids.filter _
  pointers := r.state.elements.pointersOf_eq

/-- Methods have identifiers only if they are reachable. -/
theorem mem_reachable {i : CsMethodId} {m : CsMethod} (hi : r.state.IsMethod i m) :
    i ∈ r.state.calls.reachable := by
  have hreach : r.Holds (.reach m) := (h.holds_iff _).2 (h.sound.method i m hi)
  obtain ⟨j, hj, hm⟩ := h.sound.holds_reach_iff.1 hreach
  rwa [hi.unique hm]

/-- Edges of the call graph are the calls that hold, and the indexes by call site, by statement and by
callee list the same edges. What the solver keeps about reachable methods is assumed, since it does not
follow from the facts. -/
theorem callsAgree (honce : r.state.calls.edges.toList.Nodup)
    (hsites : ∀ i ∈ r.state.calls.reachable, ∀ m, r.state.IsMethod i m →
      List.Forall₂ r.state.IsCallSite (r.state.calls.callSitesIn i).toList (r.program.callSitesOf m)) :
    r.CallsAgree where
  callees s m := by
    -- The lists of a call site and of a callee are parts of the list of edges, and each edge is in just
    -- one part of each kind.
    rw [h.mem_calleesOf_iff]
    constructor
    · rintro ⟨k, c, c', hcall⟩
      obtain ⟨e, he, -, hsite, hcallee⟩ := h.sound.holds_call_iff.1 hcall
      refine ⟨e.callSite, hsite.mem_callSiteIds, by rw [hsite.callSite], e, ?_, by rw [hcallee.method]⟩
      exact (r.state.calls.coherent _ e).2 ⟨he, rfl⟩
    · rintro ⟨i, -, rfl, e, he, rfl⟩
      obtain ⟨hmem, rfl⟩ := (r.state.calls.coherent i e).1 he
      exact ⟨e.kind, _, _, e, hmem, rfl, rfl, rfl⟩
  sorted s := r.program.pairwise_methodIds.filter _
  once := honce
  outOf := by
    simp only [CsCallGraph.toList_edgesOutOf]
    refine flatMap_filter_perm r.state.elements.nodup_callSiteIds honce fun e he => ?_
    obtain ⟨_, _, hsite, -⟩ := h.sound.edge e (Array.mem_toList_iff.1 he)
    exact hsite.mem_callSiteIds
  into := by
    rw [funext r.state.calls.edgesInto_eq]
    refine flatMap_filter_perm r.state.elements.nodup_methodIds honce fun e he => ?_
    obtain ⟨_, _, -, hcallee, -⟩ := h.sound.edge e (Array.mem_toList_iff.1 he)
    exact hcallee.mem_methodIds
  callSites i m hi := hsites i (h.mem_reachable hi) m hi

/-- Reachable methods are told apart by what they are. -/
theorem nodup_methods (honce : r.state.calls.reachable.toList.Nodup) :
    (r.reachableCsMethods.map r.state.elements.method).Nodup := by
  refine honce.map_on fun i hi j hj heq => ?_
  obtain ⟨m, hm⟩ := h.sound.reachable i (Array.mem_toList_iff.1 hi)
  obtain ⟨m', hm'⟩ := h.sound.reachable j (Array.mem_toList_iff.1 hj)
  obtain rfl : m = m' := hm.method.symm.trans (heq.trans hm'.method)
  exact hm.unique hm'

omit h in
/-- A method with a context is listed as reachable exactly if that is a fact. -/
theorem mem_methods_iff {m : CsMethod} :
    m ∈ r.reachableCsMethods.map r.state.elements.method ↔ r.Holds (.reach m) := by
  simp only [List.mem_map, reachableCsMethods, Array.mem_toList_iff]
  rfl

/-- Contexts of a method are those in which it is reachable, each listed once. -/
theorem contextsAgree (honce : r.state.calls.reachable.toList.Nodup) : r.ContextsAgree where
  once m := by
    refine ((h.nodup_methods honce).filter _).map_on fun x hx y hy heq => ?_
    rw [List.mem_filter, decide_eq_true_eq] at hx hy
    cases x
    cases y
    exact congrArg₂ CsMethod.mk heq (hx.2.trans hy.2.symm)
  reach m c := by
    simp only [contextsOf, List.mem_map, List.mem_filter, decide_eq_true_eq]
    rw [← mem_methods_iff, List.mem_map]
    constructor
    · rintro ⟨_, ⟨hx, rfl⟩, rfl⟩
      exact hx
    · intro hx
      exact ⟨_, ⟨hx, rfl⟩, rfl⟩

/-- Edges are told apart by what they say. -/
theorem nodup_calls (honce : r.state.calls.edges.toList.Nodup) :
    (r.state.calls.edges.toList.map fun e => (e.kind, r.state.elements.callSite e.callSite,
      r.state.elements.method e.callee)).Nodup := by
  refine honce.map_on fun e he e' he' heq => ?_
  obtain ⟨site, callee, hsite, hcallee, -⟩ := h.sound.edge e (Array.mem_toList_iff.1 he)
  obtain ⟨site', callee', hsite', hcallee', -⟩ := h.sound.edge e' (Array.mem_toList_iff.1 he')
  obtain ⟨hkind, hends⟩ := Prod.mk.inj heq
  obtain ⟨hsites, hcallees⟩ := Prod.mk.inj hends
  obtain rfl : site = site' := hsite.callSite.symm.trans (hsites.trans hsite'.callSite)
  obtain rfl : callee = callee' := hcallee.method.symm.trans (hcallees.trans hcallee'.method)
  obtain ⟨k, i, j⟩ := e
  obtain ⟨k', i', j'⟩ := e'
  obtain rfl : k = k' := hkind
  obtain rfl : i = i' := hsite.unique hsite'
  obtain rfl : j = j' := hcallee.unique hcallee'
  rfl

/-- No count includes an item twice, so that it is the size of what was found. -/
theorem countsAgree (hreachable : r.state.calls.reachable.toList.Nodup)
    (hedges : r.state.calls.edges.toList.Nodup) : r.CountsAgree where
  reachableMethods := by
    refine (ncard_eq_length (CallGraph.nodup_eraseDups _) fun m => ?_).symm
    rw [List.mem_eraseDups, List.mem_map]
    constructor
    · rintro ⟨c, i, hi, hm⟩
      exact ⟨i, Array.mem_toList_iff.2 hi, by rw [hm]⟩
    · rintro ⟨i, hi, rfl⟩
      exact ⟨_, i, Array.mem_toList_iff.1 hi, rfl⟩
  reachableCsMethods := by
    rw [ncard_eq_length (h.nodup_methods hreachable) fun m => mem_methods_iff.symm, List.length_map]
    rfl
  callEdges := by
    rw [ncard_eq_length (h.nodup_calls hedges) fun x => ?_, List.length_map]
    · rfl
    · simp only [List.mem_map, Array.mem_toList_iff, Prod.ext_iff]
      rfl
  pointers := (ncard_eq_length (Table.nodup_items _) fun _ => State.exists_isPointer_iff).symm
  objects := (ncard_eq_length h.sound.distinct.nodup_objects fun _ => Array.mem_toList_iff.symm).symm
  csObjects := (ncard_eq_length (Table.nodup_items _) fun _ => State.exists_isObject_iff).symm

end Solution.Answers

/-- In the result of a run without further extensions, all queries agree with each other. -/
theorem Analysis.queries_agree {d : ProgramDef} {p : Program} {o : Options} {sel : Selector}
    {r : Solution} (hp : (Program.build d).1 = .ok p)
    (hr : (Analysis.solveWith ⟨p, o, sel, .allocationSite⟩ []).result = .ok r) :
    r.VariablesAgree ∧ r.CallsAgree ∧ r.ContextsAgree ∧ r.CountsAgree := by
  obtain ⟨entry, -, h⟩ := Analysis.answers_of_solveWith (Program.build_wellFormed hp) rfl hr
  obtain ⟨_, _, hlists, -⟩ := Analysis.lists_of_solve hr
  refine ⟨h.variablesAgree, h.callsAgree hlists.edges fun i hi m hm => ?_,
    h.contextsAgree hlists.nodup, h.countsAgree hlists.nodup hlists.edges⟩
  rw [h.program]
  exact Solution.listed_callSites hr hi hm

/-- The parts agree for the sample program, with contexts of one object and a mock array of arguments. -/
theorem Analysis.queries_agree_sample : ∃ p r, (Program.build .sample).1 = .ok p ∧
    (solveWith ⟨p, ⟨.insensitive, none, true⟩, .object 1, .allocationSite⟩ []).result = .ok r ∧
    r.VariablesAgree ∧ r.CallsAgree ∧ r.ContextsAgree ∧ r.CountsAgree := by
  obtain ⟨p, r, hp, hr⟩ := ProgramDef.sample_solved true
  exact ⟨p, r, hp, hr, queries_agree hp hr⟩

end PointsTo
