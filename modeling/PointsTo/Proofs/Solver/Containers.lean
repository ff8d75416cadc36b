import PointsTo.Proofs.Solver.Truncation

/-! # Objects and their containers

Object sensitivity tells contexts apart by the receivers of calls, type sensitivity by the classes in
which the receivers are allocated. An object determines its container, so contexts of objects can be
read as contexts of classes. That is a translation of facts: it commutes with the choice of contexts,
because an object has the same container in whatever run it is met. So type sensitivity finds whatever
object sensitivity finds.
-/

namespace PointsTo

/-! ## Contexts of containers -/

/-- An object as a token is replaced by its container. -/
def Token.contained (h : Heap) : Token → Token
  | .callSite s => .callSite s
  | .object o => .type (h.get o).container
  | .type c => .type c

/-- A context in which containers stand for objects. -/
def Context.contained (h : Heap) (c : Context) : Context := c.map (Token.contained h)

/-- Objects in contexts are replaced by their containers. -/
def Translation.containers (h : Heap) : Translation := ⟨id, (·.contained h), (·.contained h)⟩

/-- Replacing objects by containers turns the choices of an object-sensitive selector into those of the
type-sensitive one, if the two heaps agree on containers. -/
theorem Translation.containers_selectors (k : Nat) {h h' : Heap}
    (hsame : ∀ {origin : Origin} {i i' : ObjectId}, h.find? origin = some i →
      h'.find? origin = some i' → h'.get i' = h.get i) :
    (containers h).Selectors (.object k) (.type k) h h' where
  context_nil := rfl
  heapContext_nil := rfl
  callee _ := rfl
  heap _ := Context.map_lastK _ _ _
  receiver {origin i i'} hi hi' site c := by
    rw [origin_of_id rfl] at hi'
    rw [hsame hi hi']
    exact Context.map_extend _ c (.object i) k

/-! ## Objects of two runs -/

section Objects

variable {a a' : Analysis} {wf : a.program.WellFormed} {wf' : a'.program.WellFormed}
  {entry : MethodId} {s s' : State}

/-- Two runs of a program from the same entry method make the same object of an origin. -/
theorem Sound.get_eq_of_find? (hs : Sound (a.theory wf entry) s)
    (hs' : Sound (a'.theory wf' entry) s') (hprogram : a'.program = a.program) {origin : Origin}
    {i i' : ObjectId} (hi : s.heap.find? origin = some i) (hi' : s'.heap.find? origin = some i') :
    s'.heap.get i' = s.heap.get i := by
  obtain ⟨x, hx, rfl⟩ := Heap.exists_of_find? hi
  obtain ⟨x', hx', horigin⟩ := Heap.exists_of_find? hi'
  have hmade : a.program.Makes entry x := (hs.made _ _ hx).1
  have hmade' : a'.program.Makes entry x' := (hs'.made _ _ hx').1
  rw [hprogram] at hmade'
  rw [Heap.get_of_getElem? hx, Heap.get_of_getElem? hx']
  exact hmade'.unique hmade horigin

/-- The container of what a statement allocates is the class of the method that the statement is in. -/
theorem Sound.container_eq (hs : Sound (a.theory wf entry) s) {i : ObjectId} {x : Object}
    (hx : s.heap.objects[i.idx]? = some x) {stmt : StmtId} (horigin : x.origin = .site stmt) :
    x.container = (a.program.methodAt (a.program.stmtAt stmt).method).owner := by
  have hmade : a.program.Makes entry x := (hs.made _ _ hx).1
  cases hmade with
  | new kind =>
      cases horigin
      rfl
  | array => cases horigin
  | element => cases horigin

end Objects

/-! ## Runs with objects and with containers -/

section Runs

variable {d : ProgramDef} {p : Program}

/-- Object sensitivity refines type sensitivity. With the same number of tokens, one leads to a result
whenever the other one does, and the result for types holds whatever the result for objects holds, with
objects in contexts replaced by the classes of the methods that allocate them. So answers to queries can
only grow. -/
theorem Program.analyse_contained (hp : (Program.build d).1 = .ok p) (o : Options) (k : Nat) :
    ((∃ r, (p.analyse { o with selector := .object k }).result = .ok r) ↔
      ∃ r', (p.analyse { o with selector := .type k }).result = .ok r') ∧
    ∀ r r', (p.analyse { o with selector := .object k }).result = .ok r →
      (p.analyse { o with selector := .type k }).result = .ok r' →
      (∀ q, r.Holds q → r'.Holds ((Translation.containers r.state.heap).fact q)) ∧
      (∀ (i : ObjectId) (x : Object), r.state.heap.objects[i.idx]? = some x →
        (∃ i' : ObjectId, r'.state.heap.objects[i'.idx]? = some x) ∧
        ∀ s, x.origin = .site s → x.container = (p.methodAt (p.stmtAt s).method).owner) ∧
      (∀ v, ∀ i ∈ r.pointsToVar v,
        ∃ i' ∈ r'.pointsToVar v, r'.state.heap.get i' = r.state.heap.get i) ∧
      (∀ f, ∀ i ∈ r.pointsToStaticField f,
        ∃ i' ∈ r'.pointsToStaticField f, r'.state.heap.get i' = r.state.heap.get i) ∧
      (∀ s, r.calleesOf s ⊆ r'.calleesOf s) ∧ r.reachableMethods ⊆ r'.reachableMethods := by
  have wf := Program.build_wellFormed hp
  refine ⟨?_, fun r r' hr hr' => ?_⟩
  · rw [analyse_ok_iff wf, analyse_ok_iff wf]
    rfl
  -- Both runs start from the same method and have finished.
  obtain ⟨entry, hentry, -, hprogram, hfinished, -⟩ := Analysis.finished_of_solveWith
    (a := ⟨p, { o with selector := .object k }, .object k, .allocationSite⟩) wf rfl hr
  obtain ⟨entry', hentry', -, hprogram', hfinished', hgiven'⟩ := Analysis.finished_of_solveWith
    (a := ⟨p, { o with selector := .type k }, .type k, .allocationSite⟩) wf rfl hr'
  obtain rfl : entry' = entry := Except.ok.inj (hentry'.symm.trans hentry)
  -- Replacing objects by their containers takes the contexts of the one selector to those of the other.
  have hselectors := Translation.containers_selectors k
    (hfinished.sound.get_eq_of_find? hfinished'.sound rfl)
  have htranslates := hfinished.translates hfinished' hgiven' rfl
    (Translation.Programs.refl (t := .containers r.state.heap) rfl p) hselectors
  obtain ⟨hvars, hfields, hcallees, hmethods⟩ := htranslates.answers rfl hfinished.sound
    hfinished'.sound (hprogram'.trans hprogram.symm)
  refine ⟨fun q => htranslates.holds, fun i x hx => ⟨?_, fun s => hfinished.sound.container_eq hx⟩,
    hvars, hfields, hcallees, hmethods⟩
  obtain ⟨j, hj⟩ := htranslates.heap hx
  rw [Translation.object_of_id rfl] at hj
  exact ⟨⟨j⟩, hj⟩

/-- The sample has results with a receiver and with the class of a receiver as context. -/
theorem Program.analyse_contained_sample : ∃ p r r', (Program.build .sample).1 = .ok p ∧
    (p.analyse ⟨.object 1, none, true⟩).result = .ok r ∧
    (p.analyse ⟨.type 1, none, true⟩).result = .ok r' ∧
    (∀ q, r.Holds q → r'.Holds ((Translation.containers r.state.heap).fact q)) ∧
    r.reachableMethods ⊆ r'.reachableMethods := by
  obtain ⟨p, r₀, hp, hr₀⟩ := ProgramDef.sample_solved true
  have wf := Program.build_wellFormed hp
  obtain ⟨entry, hentry, hcheck, -⟩ := Analysis.finished_of_solveWith wf rfl hr₀
  obtain ⟨r, hr⟩ := (analyse_ok_iff wf ⟨.object 1, none, true⟩).2 ⟨⟨entry, hentry⟩, hcheck⟩
  obtain ⟨hok, hfacts⟩ := analyse_contained hp ⟨.insensitive, none, true⟩ 1
  obtain ⟨r', hr'⟩ := hok.1 ⟨r, hr⟩
  obtain ⟨hholds, -, -, -, -, hmethods⟩ := hfacts r r' hr hr'
  exact ⟨p, r, r', hp, hr, hr', hholds, hmethods⟩

end Runs

end PointsTo
