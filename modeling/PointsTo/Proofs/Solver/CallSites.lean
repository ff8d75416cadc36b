import PointsTo.Proofs.Solver.Notices
import Mathlib.Data.List.Forall2

/-! # Listed call sites

The call sites of a method are listed while its statements are visited, one after the other, and never
again. `Lists` says which methods were visited in a state and what is listed for each of them at the
moment; the others that are reachable wait to be visited. Every operation but a visit keeps it as it is,
whatever extensions do meanwhile, so that in the end the lists of all reachable methods are those of their
bodies.
-/

namespace PointsTo

/-- The call sites of some statements in a context. -/
def Program.callSitesIn (p : Program) (c : Context) (stmts : List StmtId) : List CsCallSite :=
  (stmts.filter fun s => (p.stmtAt s).invoke?.isSome).map (⟨c, ·⟩)

/-- The call sites in the body of a method, in its context. -/
def Program.callSitesOf (p : Program) (m : CsMethod) : List CsCallSite :=
  p.callSitesIn m.context (p.stmtsOf m.method)

/-- A statement alone has one call site, if it is a call. -/
theorem Program.callSitesIn_singleton (p : Program) (c : Context) (s : StmtId) :
    p.callSitesIn c [s] = if (p.stmtAt s).invoke?.isSome then [⟨c, s⟩] else [] := by
  rw [callSitesIn, List.filter_singleton]
  cases (p.stmtAt s).invoke?.isSome <;> rfl

theorem Program.callSitesIn_cons (p : Program) (c : Context) (s : StmtId) (stmts : List StmtId) :
    p.callSitesIn c (s :: stmts) = p.callSitesIn c [s] ++ p.callSitesIn c stmts := by
  rw [callSitesIn, ← List.singleton_append, List.filter_append, List.map_append]
  rfl

namespace State

/-- Some reachable methods were visited, and the others are still to be visited. What is listed for each
method are the given call sites. Nothing is there twice. -/
structure Lists (s : State) (visited : List (CsMethodId × CsMethod))
    (sites : CsMethodId → List CsCallSite) : Prop where
  reachable : s.calls.reachable.toList = visited.map Prod.fst ++ s.pending.toList
  visited : ∀ x ∈ visited, s.IsMethod x.1 x.2
  pending : ∀ i ∈ s.pending.toList, ∃ m, s.IsMethod i m
  listed : ∀ i, List.Forall₂ s.IsCallSite (s.calls.callSitesIn i).toList (sites i)
  nodup : s.calls.reachable.toList.Nodup
  edges : s.calls.edges.toList.Nodup
  unresolved : s.unresolved.toList.Nodup

namespace Lists

variable {s t : State} {visited : List (CsMethodId × CsMethod)} {sites : CsMethodId → List CsCallSite}

/-- A steady state lists the same call sites, and has the same methods to visit. -/
theorem steady (h : s.Lists visited sites) (hst : s.Steady t) : t.Lists visited sites where
  reachable := by
    rw [hst.sameReachable, hst.pending]
    exact h.reachable
  visited x hx := hst.isMethod (h.visited x hx)
  pending i hi := by
    rw [hst.pending] at hi
    exact (h.pending i hi).imp fun _ => hst.isMethod
  listed i := by
    rw [CsCallGraph.callSitesIn, hst.sameSites]
    exact (h.listed i).imp fun _ _ => hst.isCallSite
  nodup := by
    rw [hst.sameReachable]
    exact h.nodup
  edges := by
    rw [hst.sameEdges]
    exact h.edges
  unresolved := hst.marked h.unresolved

/-- A method that becomes reachable is to be visited. -/
theorem reachMethod (h : s.Lists visited sites) {i : CsMethodId} (hi : ∃ m, s.IsMethod i m) :
    (s.reachMethod i).Lists visited sites := by
  rcases s.reachMethod_cases i with ⟨heq, -⟩ | ⟨hnew, heq⟩
  · rwa [heq]
  · rw [heq]
    refine ⟨?_, h.visited, fun j hj => ?_, h.listed, ?_, h.edges, h.unresolved⟩
    · rw [Array.toList_push, h.reachable, Queue.toList_push, List.append_assoc]
    · rw [Queue.toList_push, List.mem_append, List.mem_singleton] at hj
      rcases hj with hj | rfl
      · exact h.pending j hj
      · exact hi
    · rw [Array.toList_push]
      refine h.nodup.append (List.nodup_singleton i) (List.disjoint_singleton.2 ?_)
      rwa [Array.mem_toList_iff]

/-- A new edge changes no list, and is not there twice. -/
theorem addEdge (h : s.Lists visited sites) {e : CallEdge} (hnew : s.calls.hasEdge e = false) :
    Lists { s with calls := s.calls.addEdge e } visited sites := by
  rw [CsCallGraph.addEdge, if_neg (by simp [hnew])]
  refine ⟨h.reachable, h.visited, h.pending, h.listed, h.nodup, ?_, h.unresolved⟩
  rw [Array.toList_push]
  refine h.edges.append (List.nodup_singleton e) (List.disjoint_singleton.2 fun he => ?_)
  rw [CsCallGraph.hasEdge_iff.2 ⟨e, Array.mem_toList_iff.1 he, rfl, rfl⟩] at hnew
  cases hnew

/-- A call site is listed after the others of its method. -/
theorem addCallSite (h : s.Lists visited sites) (j : CsMethodId) {i : CsCallSiteId} {c : CsCallSite}
    (hi : s.IsCallSite i c) : Lists { s with calls := s.calls.addCallSite j i } visited
      (Function.update sites j (sites j ++ [c])) where
  reachable := h.reachable
  visited := h.visited
  pending := h.pending
  listed k := by
    -- the table of lists is indexed by numbers, and `Function.update` by identifiers
    have hidx : k.idx = j.idx ↔ k = j := CsMethodId.mk.injEq _ _ ▸ Iff.rfl
    simp only [CsCallGraph.callSitesIn, CsCallGraph.addCallSite, Family.get_update, hidx]
    by_cases hk : k = j
    · subst hk
      rw [if_pos rfl, Function.update_self, Array.toList_push]
      exact List.rel_append (h.listed k) (.cons hi .nil)
    · rw [if_neg hk, Function.update_of_ne hk]
      exact h.listed k
  nodup := h.nodup
  edges := h.edges
  unresolved := h.unresolved

/-- A method that is taken counts as visited. -/
theorem take (h : s.Lists visited sites) {j : CsMethodId} {rest : Queue CsMethodId}
    (hpop : s.pending.pop? = some (j, rest)) : ∃ m, s.IsMethod j m ∧
      j ∉ visited.map Prod.fst ∧ Lists { s with pending := rest } (visited ++ [(j, m)]) sites := by
  have hpending := Queue.toList_of_pop? hpop
  obtain ⟨m, hm⟩ := h.pending j (by simp [hpending])
  have hreachable := h.reachable
  rw [hpending] at hreachable
  refine ⟨m, hm, fun hj => ?_, ?_, fun x hx => ?_, fun i hi => h.pending i (by simp [hpending, hi]),
    h.listed, h.nodup, h.edges, h.unresolved⟩
  -- A pending method was not visited, because each method is reachable once.
  · have hnodup := h.nodup
    rw [hreachable] at hnodup
    exact List.disjoint_of_nodup_append hnodup hj (List.mem_cons_self ..)
  · rw [hreachable, List.map_append, List.append_assoc]
    rfl
  · rcases List.mem_append.1 hx with hx | hx
    · exact h.visited x hx
    · rw [List.mem_singleton.1 hx]
      exact hm

/-- An entry changes no list. -/
theorem addEntry (h : s.Lists visited sites) (i : CsMethodId) :
    Lists { s with calls := s.calls.addEntry i } visited sites := by
  unfold CsCallGraph.addEntry
  split
  · exact h
  · exact ⟨h.reachable, h.visited, h.pending, h.listed, h.nodup, h.edges, h.unresolved⟩

/-- Objects that are passed on change no list. -/
theorem propagate (h : s.Lists visited sites) (i : PointerId) (objects : ObjectSet) :
    (s.propagate i objects).Lists visited sites := by
  rw [State.propagate, ← Array.foldl_toList]
  obtain ⟨work, heq, -⟩ := foldl_push_eq (s.flow.successors i).toList objects
    { s with elements := s.elements.addObjects i objects }
  rw [heq]
  exact ⟨h.reachable, h.visited, h.pending, h.listed, h.nodup, h.edges, h.unresolved⟩

end Lists

/-- What is listed for the visited methods are the call sites in their bodies, and for the others
nothing. -/
def ListsBodies (s : State) (p : Program) : Prop :=
  ∃ visited sites, s.Lists visited sites ∧ (∀ i, i ∉ visited.map Prod.fst → sites i = []) ∧
    ∀ x ∈ visited, sites x.1 = p.callSitesOf x.2

/-- A steady state lists the call sites of the same bodies. -/
theorem ListsBodies.steady {s t : State} {p : Program} (h : s.ListsBodies p) (hst : s.Steady t) :
    t.ListsBodies p := by
  obtain ⟨visited, sites, hlists, hsites⟩ := h
  exact ⟨visited, sites, hlists.steady hst, hsites⟩

end State

open State

namespace Analysis

variable {a : Analysis} {π : Type} {react : Reaction π} {k : Machine π}
  {visited : List (CsMethodId × CsMethod)} {sites : CsMethodId → List CsCallSite}

/-! ## Operations -/

/-- Entering a callee lists nothing; it may make the callee reachable and pending. -/
theorem lists_enterCallee (call : Invoke) (site : CsCallSite) (callee : CsMethod) {id : CsMethodId}
    {s : State} (h : s.Lists visited sites) (hid : ∃ m, s.IsMethod id m) :
    (a.enterCallee call site callee id s).Lists visited sites := by
  obtain ⟨text, hst⟩ := steady_enterCallee (a := a) call site callee id s
  have hreport := s.steady_report .trace text
  exact ((h.steady hreport).reachMethod (hid.imp fun _ => hreport.isMethod)).steady hst

section Operations

variable (h : k.state.Lists visited sites)

include h

/-- Adding a call lists nothing. -/
theorem lists_addCall (call : Invoke) (site : CsCallSite) (callee : CsMethod) :
    (a.addCall react call site callee k).state.Lists visited sites := by
  obtain ⟨i, j, s, hs, -, hj, hcases⟩ := a.addCall_cases react call site callee k
  have hst : k.state.Steady s := by
    rw [hs]
    exact (State.steady_internCallSite _ _).trans (State.steady_internMethod _ _)
  rcases hcases with ⟨-, heq⟩ | ⟨hnew, heq⟩
  · rw [heq]
    exact h.steady hst
  · rw [heq]
    refine State.Lists.steady ?_ (Machine.notify_steady react _ _)
    exact lists_enterCallee call site callee ((h.steady hst).addEdge hnew) ⟨callee, hj⟩

/-- A call statement is listed when it is visited. -/
theorem lists_visitInvoke (id : CsMethodId) (site : CsCallSite) (call : Invoke) :
    (a.visitInvoke react id site call k).state.Lists visited
      (Function.update sites id (sites id ++ [site])) := by
  have hst := k.state.steady_internCallSite site
  have hself := k.state.isCallSite_internCallSite site
  unfold visitInvoke
  cases hintern : k.state.internCallSite site with
  | mk i s =>
      rw [hintern] at hst hself
      have hsite := (h.steady hst).addCallSite id hself
      dsimp only
      split
      · split
        · exact lists_addCall (k := ⟨{ s with calls := s.calls.addCallSite id i }, k.extensions⟩) hsite
            _ _ _
        · exact hsite
      · exact hsite

/-- No other statement is listed. -/
theorem lists_visitStmt (id : CsMethodId) (method : CsMethod) (stmt : StmtId) :
    (a.visitStmt react id method k stmt).state.Lists visited
      (Function.update sites id (sites id ++ a.program.callSitesIn method.context [stmt])) := by
  have hsame {s : State} (hs : s.Lists visited sites) :
      s.Lists visited (Function.update sites id (sites id ++ [])) := by
    rwa [List.append_nil, Function.update_eq_self]
  have hconnect (p q : Pointer) : (k.modify (·.connect p q)).state.Lists visited sites :=
    h.steady (k.state.steady_connect p q)
  rw [Program.callSitesIn_singleton]
  unfold visitStmt Stmt.invoke?
  cases (a.program.stmtAt stmt).kind with
  | invoke call => exact lists_visitInvoke h _ _ _
  | new => exact hsame (h.steady (steady_visitNew _ _ _ _ _))
  | copy => exact hsame (hconnect _ _)
  | staticStore => exact hsame (hconnect _ _)
  | staticLoad => exact hsame (hconnect _ _)
  | _ => exact hsame h

/-- Visiting statements one after the other lists the call sites among them, in their order. -/
theorem lists_visitStmts (id : CsMethodId) (method : CsMethod) (stmts : List StmtId) :
    (stmts.foldl (a.visitStmt react id method) k).state.Lists visited
      (Function.update sites id (sites id ++ a.program.callSitesIn method.context stmts)) := by
  induction stmts generalizing k sites with
  | nil =>
      rw [Program.callSitesIn, List.filter_nil, List.map_nil, List.append_nil, Function.update_eq_self]
      exact h
  | cons stmt stmts ih =>
      have hrest := ih (k := a.visitStmt react id method k stmt) (lists_visitStmt h id method stmt)
      rw [Function.update_idem, Function.update_self, List.append_assoc,
        ← Program.callSitesIn_cons] at hrest
      exact hrest

/-- A visit lists the call sites in the body of the method. -/
theorem lists_visitMethod (j : CsMethodId) :
    (a.visitMethod react j k).state.Lists visited
      (Function.update sites j (sites j ++ a.program.callSitesOf (k.state.elements.method j))) := by
  rw [visitMethod_eq, visitInOrder]
  refine State.Lists.steady ?_ (Machine.notify_steady react _ _)
  exact lists_visitStmts (k := k.modify _) (h.steady (State.steady_report _ _ _)) j _ _

/-- Resolving a call for a receiver lists nothing. -/
theorem lists_dispatchCall (c : Context) (o : CsObjectId) (stmt : StmtId) :
    (a.dispatchCall react c o k stmt).state.Lists visited sites := by
  unfold dispatchCall
  dsimp only
  split
  · exact h
  · split
    · exact h.steady ((State.steady_report _ _ _).trans (State.steady_markUnresolved _ _))
    · exact lists_addCall (k := k.modify _) (h.steady (steady_bindThis _ _ _)) _ _ _

/-- Processing an object lists nothing. -/
theorem lists_processObject (c : Context) (v : VarId) (o : CsObjectId) :
    (a.processObject react c v k o).state.Lists visited sites := by
  refine List.foldlRecOn (motive := fun k : Machine π => k.state.Lists visited sites) _ _ ?_
    fun k' h' stmt _ => lists_dispatchCall h' c o stmt
  exact h.steady (State.Steady.foldl (fun s stmt => steady_linkAccess c o s stmt) _ _)

/-- Processing objects lists nothing. -/
theorem lists_processObjects (i : PointerId) (objects : ObjectSet) :
    (a.processObjects react i objects k).state.Lists visited sites := by
  unfold processObjects
  split
  · refine State.Lists.steady ?_ (Machine.notify_steady react _ _)
    exact List.foldlRecOn (motive := fun k : Machine π => k.state.Lists visited sites) _ _ h
      fun k' h' o _ => lists_processObject h' _ _ o
  · exact h

/-- Processing an entry of the work list lists nothing. -/
theorem lists_processFact (i : PointerId) (objects : ObjectSet) :
    (a.processFact react i objects k).state.Lists visited sites := by
  have hcounted : Lists { k.state with processed := k.state.processed + 1 } visited sites :=
    h.steady { State.Extends.refl k.state with }
  unfold processFact
  dsimp only
  split
  · exact hcounted
  · exact lists_processObjects (k := ⟨_, k.extensions⟩) (hcounted.propagate i _) i _

end Operations

/-! ## Runs -/

/-- Between steps, the lists of visited methods are those of their bodies. -/
theorem listsBodies_step (h : k.state.ListsBodies a.program) :
    (a.step react k).state.ListsBodies a.program := by
  obtain ⟨visited, sites, hlists, hnone, hsites⟩ := h
  unfold step
  split
  · rename_i j rest hpop
    obtain ⟨m, hm, hnew, htaken⟩ := hlists.take hpop
    have hvisit : (a.visitMethod react j (k.modify fun s => { s with pending := rest })).state.Lists
        _ _ := lists_visitMethod htaken j
    have hmethod : (k.modify fun s => { s with pending := rest }).state.elements.method j = m :=
      hm.method
    rw [hmethod, hnone j hnew, List.nil_append] at hvisit
    -- the list of the method that was taken is now the one of its body, and the other lists are as they
    -- were
    refine ⟨_, _, hvisit, fun i hi => ?_, fun x hx => ?_⟩
    · rw [List.map_append, List.mem_append, not_or] at hi
      rw [Function.update_of_ne fun heq => hi.2 (by simp [heq])]
      exact hnone i hi.1
    · rcases List.mem_append.1 hx with hx | hx
      · rw [Function.update_of_ne fun heq => hnew (List.mem_map.2 ⟨x, hx, heq⟩)]
        exact hsites x hx
      · rw [List.mem_singleton.1 hx, Function.update_self]
  · split
    · rename_i i objects rest hpop
      have htaken : Lists { k.state with work := rest } visited sites :=
        ⟨hlists.reachable, hlists.visited, hlists.pending, hlists.listed, hlists.nodup, hlists.edges,
          hlists.unresolved⟩
      exact ⟨visited, sites, lists_processFact (k := ⟨_, k.extensions⟩) htaken i objects, hnone, hsites⟩
    · exact ⟨visited, sites, hlists, hnone, hsites⟩

/-- At the start no method was visited, and nothing is listed. -/
theorem listsBodies_start {s : State} (hs : State.initial.Agrees s)
    (hsites : s.calls.callSites = State.initial.calls.callSites) (entry : MethodId) (p : Program) :
    (start entry s).ListsBodies p := by
  have hfirst : State.initial.Lists [] fun _ => [] := by
    refine ⟨rfl, List.forall_mem_nil _, List.forall_mem_nil _, fun i => ?_, .nil, .nil, .nil⟩
    rw [CsCallGraph.callSitesIn, State.initial, CsCallGraph.empty, Family.get_empty]
    exact .nil
  have hinterned := (hfirst.steady (hs.steady hsites)).steady (s.steady_internMethod ⟨[], entry⟩)
  have hself := s.isMethod_internMethod ⟨[], entry⟩
  exact ⟨[], _, (hinterned.addEntry _).reachMethod ⟨_, hself⟩, fun _ _ => rfl, List.forall_mem_nil _⟩

/-- At the fixpoint, the lists of visited methods are those of their bodies. -/
theorem listsBodies_fixpoint (entry : MethodId) (es : List π) :
    (a.fixpoint react entry es).state.ListsBodies a.program := by
  have hadvance (isDone : Machine π → Bool) {k : Machine π} (h : k.state.ListsBodies a.program) :
      (a.advance react isDone k).state.ListsBodies a.program :=
    rounds_induction (P := fun k : Machine π => k.state.ListsBodies a.program)
      (fun _ h => listsBodies_step h) h _ _
  have hstart := listsBodies_start a.agrees_checked rfl entry a.program
  exact hadvance isDone ((hadvance isVisited (k := ⟨_, es⟩) hstart).steady (Machine.notify_steady ..))

/-- In the result of a run all reachable methods were visited, and their call sites are listed. -/
theorem lists_of_solve {es : List π} {r : Solution} (hr : (a.solve react es).result = .ok r) :
    ∃ visited sites, r.state.Lists visited sites ∧
      r.state.calls.reachable.toList = visited.map Prod.fst ∧
      ∀ x ∈ visited, sites x.1 = a.program.callSitesOf x.2 := by
  obtain ⟨entry, -, -, hdone, hfinish⟩ := solve_eq_ok _ _ hr
  have hst := steady_finish hfinish
  obtain ⟨visited, sites, hlists, -, hsites⟩ := (listsBodies_fixpoint entry es).steady hst
  refine ⟨visited, sites, hlists, ?_, hsites⟩
  rw [hlists.reachable, hst.pending, (isDone_iff.1 hdone).1, List.append_nil]

end Analysis

/-- The call sites that are listed for a reachable method are those in its body, in order. -/
theorem Solution.listed_callSites {π : Type} {a : Analysis} {react : Reaction π} {es : List π}
    {r : Solution} (hr : (a.solve react es).result = .ok r) {i : CsMethodId} {m : CsMethod}
    (hi : i ∈ r.state.calls.reachable) (hm : r.state.IsMethod i m) :
    List.Forall₂ r.state.IsCallSite (r.state.calls.callSitesIn i).toList (a.program.callSitesOf m) := by
  obtain ⟨visited, sites, hlists, hreachable, hsites⟩ := Analysis.lists_of_solve hr
  rw [← Array.mem_toList_iff, hreachable] at hi
  obtain ⟨x, hx, rfl⟩ := List.mem_map.1 hi
  obtain rfl : x.2 = m := Option.some.inj ((hlists.visited x hx).symm.trans hm)
  rw [← hsites x hx]
  exact hlists.listed x.1

end PointsTo
