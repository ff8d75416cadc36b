import PointsTo.Proofs.Execution.Coverage
import PointsTo.Proofs.Solver.Exactness
import PointsTo.Proofs.Solver.Universe

/-! # Solutions cover executions

Whatever happens in an execution of a loaded program, the solution of the program says that it may
happen: what a location holds is among the objects of the location, methods that run are reachable,
and calls are calls of the call graph. This holds for every selector.
-/

namespace PointsTo

/-- The abstract object stands for the allocations of the statement that allocated the instance, and
has its type. -/
def Solution.Represents (r : Solution) (id : ObjectId) (x : Instance) : Prop :=
  r.state.heap.find? (.site x.site) = some id ∧ (r.state.heap.get id).type = x.type

/-- The answers of a solution account for all that a configuration shows. -/
structure Solution.Covers (r : Solution) (c : Config) : Prop where
  method : ∀ f ∈ c.frames, f.method ∈ r.reachableMethods
  callee : ∀ f ∈ c.frames, ∀ caller s, f.caller? = some (caller, s) → f.method ∈ r.calleesOf s
  var : ∀ i v o, c.store (.var i v) = some o → ∃ x id, c.objects[o]? = some x ∧
    r.Represents id x ∧ id ∈ r.pointsToVar v
  staticField : ∀ f o, c.store (.staticField f) = some o → ∃ x id, c.objects[o]? = some x ∧
    r.Represents id x ∧ id ∈ r.pointsToStaticField f
  instanceField : ∀ base f o, c.store (.instanceField base f) = some o → ∃ x y i j,
    c.objects[base]? = some x ∧ c.objects[o]? = some y ∧
    r.Represents (r.state.elements.object i).object x ∧
    r.Represents (r.state.elements.object j).object y ∧
    (r.pointsToInstanceField i f).contains j = true
  element : ∀ base n o, c.store (.element base n) = some o → ∃ x y i j,
    c.objects[base]? = some x ∧ c.objects[o]? = some y ∧
    r.Represents (r.state.elements.object i).object x ∧
    r.Represents (r.state.elements.object j).object y ∧
    (r.pointsToArrayIndex i).contains j = true

section Answers

variable {a : Analysis} {given : Fact → Prop} {T : Theory a given} {r : Solution} {g : Ghost}
  {c : Config}

/-- Objects that are allocated are found under their numbers. -/
theorem Config.getElem?_objectAt {o : Nat} (h : o < c.objects.size) :
    c.objects[o]? = some (c.objectAt o) := by
  rw [objectAt, Array.getD_eq_getD_getElem?, Array.getElem?_eq_getElem h, Option.getD_some]

/-- An identifier of what the analysis takes an instance for. -/
theorem State.Denotes.represents (hd : r.state.heap.Distinct) {p : Program} {i : CsObjectId} {o : Nat}
    (h : r.state.Denotes i (g.heapObject p c o)) :
    r.Represents (r.state.elements.object i).object (c.objectAt o) := by
  refine ⟨h.find? hd, ?_⟩
  obtain ⟨id, hi, hid⟩ := h
  rw [hi.object, Heap.get_of_getElem? hid]
  rfl

/-- What covers a configuration with contexts covers it without them. -/
theorem Ghost.Covers.solution (hs : Sound T r.state) {p : Program} (hprogram : r.program = a.program)
    (hrange : ∀ c m, r.Holds (.reach ⟨c, m⟩) → m.idx < a.program.methods.size)
    (hcallee : ∀ k site m, r.Holds (.call k site m) → r.Holds (.reach m))
    (h : g.Covers p r.Holds c) : r.Covers c := by
  have hnamed : ∀ {x o}, o < c.objects.size → r.Holds (.pointsTo x (g.heapObject p c o)) →
      ∃ id, c.objects[o]? = some (c.objectAt o) ∧ r.Represents id (c.objectAt o) ∧
        r.state.heap.find? (g.heapObject p c o).object.origin = some id := by
    intro x o ho hx
    obtain ⟨_, _, i, _, _, hi, _⟩ := hs.holds_pointsTo_iff.1 hx
    exact ⟨_, Config.getElem?_objectAt ho, hi.represents hs.distinct, hi.find? hs.distinct⟩
  -- methods and calls forget their contexts, and what is held is named by the statement that made it
  constructor
  · intro f hf
    obtain ⟨i, hi⟩ := Array.mem_iff_getElem?.1 hf
    have hreach := h.reach i f hi
    rw [Solution.mem_reachableMethods, hprogram]
    exact ⟨hrange _ _ hreach, _, hreach⟩
  · intro f hf caller s hs
    obtain ⟨i, hi⟩ := Array.mem_iff_getElem?.1 hf
    obtain ⟨-, k, call, -, hcall⟩ := h.call i f caller s hi hs
    rw [Solution.mem_calleesOf, hprogram]
    exact ⟨hrange _ _ (hcallee _ _ _ hcall), k, _, _, hcall⟩
  · intro i v o ho
    obtain ⟨-, hlt, hfact⟩ := h.store _ _ ho
    obtain ⟨id, hx, hid, hfind⟩ := hnamed hlt hfact
    exact ⟨_, id, hx, hid, hs.mem_pointsToVar.2 ⟨_, _, hfact, hfind⟩⟩
  · intro f o ho
    obtain ⟨-, hlt, hfact⟩ := h.store _ _ ho
    obtain ⟨id, hx, hid, hfind⟩ := hnamed hlt hfact
    exact ⟨_, id, hx, hid, hs.mem_pointsToStaticField.2 ⟨_, hfact, hfind⟩⟩
  · intro base f o ho
    obtain ⟨hbase, hlt, hfact⟩ := h.store _ _ ho
    obtain ⟨i, q, j, hi, hq, hj, hmem⟩ := hs.holds_pointsTo_iff.1 hfact
    cases hq with
    | @instanceField b _ hb _ =>
        refine ⟨_, _, b, j, Config.getElem?_objectAt hbase, Config.getElem?_objectAt hlt,
          hb.represents hs.distinct, hj.represents hs.distinct, ?_⟩
        rwa [Solution.pointsToInstanceField, hi.objectsOf]
  · intro base n o ho
    obtain ⟨hbase, hlt, hfact⟩ := h.store _ _ ho
    obtain ⟨i, q, j, hi, hq, hj, hmem⟩ := hs.holds_pointsTo_iff.1 hfact
    cases hq with
    | @arrayIndex b _ hb =>
        refine ⟨_, _, b, j, Config.getElem?_objectAt hbase, Config.getElem?_objectAt hlt,
          hb.represents hs.distinct, hj.represents hs.distinct, ?_⟩
        rwa [Solution.pointsToArrayIndex, hi.objectsOf]

end Answers

/-- The solution of a loaded program covers every configuration of every execution of the program,
whatever the selector. -/
theorem Solution.covers_run {d : ProgramDef} {p : Program} (hp : (Program.build d).1 = .ok p)
    {o : Options} {sel : Selector} {r : Solution}
    (hr : (Analysis.solveWith ⟨p, o, sel, .allocationSite⟩ []).result = .ok r) :
    ∃ entry, Analysis.entryMethod ⟨p, o, sel, .allocationSite⟩ = .ok entry ∧
      ∀ xs, r.Covers (Config.run p (.start entry) xs) := by
  have wf := Program.build_wellFormed hp
  obtain ⟨entry, hentry, -, hprogram, hfinished, hgiven⟩ :=
    Analysis.finished_of_solveWith (a := ⟨p, o, sel, .allocationSite⟩) wf rfl hr
  have hclosed := hfinished.closed wf hgiven
  have hlt := Analysis.entryMethod_lt (a := ⟨p, o, sel, .allocationSite⟩) wf hentry
  refine ⟨entry, hentry, fun xs => ?_⟩
  obtain ⟨g, hg⟩ := (Ghost.covers_start (hgiven _ .entry)).run hclosed
    (fun x y hxy => hfinished.sound.named hxy) xs
  refine hg.solution hfinished.sound hprogram (fun c m hm => ?_) fun k site m => hclosed.reach_of_call
  exact (hfinished.sound.inRange hlt (hfinished.sound.admits hm)).2

/-- The call of the sample returns the object that it is made on. -/
theorem Solution.covers_run_sample : ∃ p r entry xs,
    (Program.build .sample).1 = .ok p ∧
    (Analysis.solveWith ⟨p, ⟨.insensitive, none, false⟩, .object 1, .allocationSite⟩ []).result =
      .ok r ∧
    Analysis.entryMethod ⟨p, ⟨.insensitive, none, false⟩, .object 1, .allocationSite⟩ = .ok entry ∧
    (Config.run p (.start entry) xs).store (.var 0 ⟨2⟩) = some 0 ∧
    r.Covers (Config.run p (.start entry) xs) := by
  let xs : List Choice := [⟨0, ⟨0⟩, 0⟩, ⟨0, ⟨3⟩, 0⟩, ⟨0, ⟨4⟩, 0⟩, ⟨1, ⟨5⟩, 0⟩, ⟨1, ⟨6⟩, 0⟩]
  obtain ⟨p, r, hp, hr⟩ := ProgramDef.sample_solved false
  obtain ⟨entry, hentry, hcovers⟩ := Solution.covers_run hp hr
  have hrun : (match (Program.build .sample).1 with
      | .ok p => match Analysis.entryMethod ⟨p, ⟨.insensitive, none, false⟩, .object 1,
          .allocationSite⟩ with
        | .ok entry => (Config.run p (.start entry) xs).store (.var 0 ⟨2⟩)
        | .error _ => none
      | .error _ => none) = some 0 := by decide +kernel
  simp only [hp, hentry] at hrun
  exact ⟨p, r, entry, xs, hp, hr, hentry, hrun, hcovers xs⟩

end PointsTo
