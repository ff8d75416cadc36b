import PointsTo.Proofs.Solver.Fixpoint

/-! # The start of a run

The facts that can be derived from the rules form a theory of the analysis. A run starts from a sound
and saturated state, in which the entry method is reachable; mocking the arguments of the entry method
consists of moves that bring about the other facts that are given.
-/

namespace PointsTo

/-! ## The theory of derivations -/

/-- The objects that a run can make. -/
inductive Program.Makes (p : Program) (entry : MethodId) : Object → Prop where
  | new {s : StmtId} {x : VarId} {t : Ty} (kind : (p.stmtAt s).kind = .new x t) :
      Makes p entry (p.allocated s t)
  | array {param : VarId} {type element : Ty}
      (arg : p.mainArgument? entry = some (param, type, element)) :
      Makes p entry (p.mockArray entry type).object
  | element {param : VarId} {type element : Ty}
      (arg : p.mainArgument? entry = some (param, type, element)) :
      Makes p entry (p.mockElement entry element).object

/-- An object that a run can make is known by its origin. -/
theorem Program.Makes.unique {p : Program} {entry : MethodId} {o o' : Object}
    -- origins tell a site from a mock object, and the two mock objects by their names
    (h : p.Makes entry o) (h' : p.Makes entry o') (horigin : o.origin = o'.origin) : o = o' := by
  cases h with
  | new kind =>
      cases h' with
      | new kind' =>
          cases horigin
          cases kind.symm.trans kind'
          rfl
      | _ => cases horigin
  | array arg =>
      cases h' with
      | array arg' =>
          cases arg.symm.trans arg'
          rfl
      | new => cases horigin
      | element => simp [mockArray, mockElement] at horigin
  | element arg =>
      cases h' with
      | element arg' =>
          cases arg.symm.trans arg'
          rfl
      | new => cases horigin
      | array => simp [mockArray, mockElement] at horigin

/-- The facts that can be derived, with the names that a heap gives to objects. -/
def Analysis.Derives (a : Analysis) (entry : MethodId) (h : Heap) : Fact → Prop :=
  Derivable (Rule a.program a.selector h.find? (Given a.program entry a.options.mockMainArgs))

/-- The derivable facts are a theory of the analysis. -/
def Analysis.theory (a : Analysis) (wf : a.program.WellFormed) (entry : MethodId) :
    Theory a (Given a.program entry a.options.mockMainArgs) where
  Open := False
  Admits := a.Derives entry
  Made := a.program.Makes entry
  mono he hd := Derivable.mono fun _ _ => Rule.mono fun _ _ => hd.find?_mono he
  closed h := Derivable.closed _
  owner := Derivable.owner wf
  kind hcall hkind := by
    obtain ⟨m, call', -, hkind', hk, -⟩ := Derivable.caller hcall
    cases hkind.symm.trans hkind'
    exact hk
  made_new := .new
  made_unique kind ho := ho.unique (.new kind)

/-! ## The first state -/

section First

variable {a : Analysis} {given : Fact → Prop} (T : Theory a given)

/-- Nothing is known at first, so nothing has to be justified. -/
theorem Sound.initial : Sound T State.initial where
  distinct i j o o' hi := by simp [State.initial, Heap.empty] at hi
  made i o hi := by simp [State.initial, Heap.empty] at hi
  object i o hi := by simp [State.IsObject, State.initial, Elements.empty, Table.empty] at hi
  pointer i p hi := by simp [State.IsPointer, State.initial, Elements.empty, Table.empty] at hi
  callSite i c hi := by simp [State.IsCallSite, State.initial, Elements.empty, Table.empty] at hi
  method i m hi := by simp [State.IsMethod, State.initial, Elements.empty, Table.empty] at hi
  reachable i hi := absurd hi (Array.not_mem_empty i)
  pending i hi := by simp [State.initial] at hi
  simple := FlowGraph.simple_empty
  edge e he := absurd he (Array.not_mem_empty e)
  flow i j hij := by simp [State.initial] at hij
  work i objects hi := by simp [State.initial] at hi
  -- All tables are empty, and the default of a set of objects is empty, too.
  pointsTo i o ho := by
    have hnone : State.initial.elements.pointsTo i = ObjectSet.empty := Family.get_empty i.idx
    rw [hnone, ObjectSet.contains_empty] at ho
    cases ho
  unresolved c hc := absurd hc (Array.not_mem_empty c)

/-- Nothing is open at first. -/
theorem Saturated.initial (a : Analysis) :
    Saturated a State.initial (fun _ => False) fun _ _ => False where
  flow i j hij := by simp [State.initial] at hij
  visited i hi := absurd hi (Array.not_mem_empty i)
  processed i c v hi := by simp [State.IsPointer, State.initial, Elements.empty, Table.empty] at hi
  wired e he := absurd he (Array.not_mem_empty e)

end First

/-! ## The entry method -/

section Entry

variable {a : Analysis} {given : Fact → Prop} {T : Theory a given} {s : State}

/-- Before the start there is no entry method, so the first one is the only one. -/
theorem CsCallGraph.addEntry_of_empty {g : CsCallGraph} (h : g.entries = #[]) (i : CsMethodId) :
    g.addEntry i = { g with entries := #[i] } := by
  have hnot : g.entries.contains i = false := by
    rw [h]
    exact Bool.eq_false_iff.2 fun hi => Array.not_mem_empty i (Array.contains_iff_mem.1 hi)
  rw [addEntry, if_neg (Bool.eq_false_iff.1 hnot), h]
  rfl

/-- After the start, the entry method is the only one that is reachable. -/
structure Started (T : Theory a given) (entry : MethodId) (s : State) : Prop where
  sound : Sound T s
  saturated : Saturated a s (fun _ => False) fun _ _ => False
  entries : ∃ i, s.calls.entries = #[i] ∧ s.IsMethod i ⟨[], entry⟩ ∧ i ∈ s.calls.reachable

/-- The start interns the entry method, records it as the entry and makes it reachable. -/
theorem Analysis.start_eq (entry : MethodId) (s : State) {i : CsMethodId} {t : State}
    (h : s.internMethod ⟨[], entry⟩ = (i, t)) (hentries : t.calls.entries = #[]) :
    start entry s = { t with calls := { t.calls with entries := #[i] } }.reachMethod i := by
  simp only [start, h, CsCallGraph.addEntry_of_empty hentries]

/-- From a sound state without an entry method, the start leads to a started one. -/
theorem Analysis.started_start {entry : MethodId} (hs : Sound T s)
    (hsat : Saturated a s (fun _ => False) fun _ _ => False) (hentries : s.calls.entries = #[])
    (hentry : T.Admits s.heap (.reach ⟨[], entry⟩)) : Started T entry (start entry s) := by
  have hmethod : Move T s _ := .method hentry
  have hself := s.isMethod_internMethod ⟨[], entry⟩
  cases hintern : s.internMethod ⟨[], entry⟩ with
  | mk i t =>
      rw [hintern] at hmethod hself
      -- first the method is interned, then it is recorded as an entry, then it becomes reachable
      rw [start_eq entry s hintern (hmethod.entries.trans hentries)]
      have hs₁ := hmethod.sound hs
      have hext : t.Extends { t with calls := { t.calls with entries := #[i] } } :=
        { State.Extends.refl t with }
      have hs₂ : Sound T { t with calls := { t.calls with entries := #[i] } } :=
        Gains.sound { hext with distinct := hs₁.distinct, simple := hs₁.simple } hs₁
      have hevolves : Evolves a.program t { t with calls := { t.calls with entries := #[i] } } :=
        ⟨hext, fun _ => rfl, fun _ => id, fun _ => Or.inl, fun _ _ => Or.inl, fun _ => Or.inl⟩
      have hsat₂ := (hsat.evolve hs hmethod.evolves).evolve hs₁ hevolves
      have hreach : Move T _ _ := .reach (hext.isMethod hself)
      exact ⟨hreach.sound hs₂, hsat₂.evolve hs₂ hreach.evolves, i, hreach.entries,
        hreach.extends.isMethod hself, State.mem_reachable_reachMethod _ i⟩

end Entry

/-! ## Mock arguments -/

section Mocks

/-- One script after another runs from where the first one ends. -/
theorem Script.run_bind {π α β : Type} (x : Script π α) (f : α → Script π β) (s : State)
    (arrivals : List π) :
    (x.bind f).run s arrivals =
      (f (x.run s arrivals).1).run (x.run s arrivals).2.1 (x.run s arrivals).2.2 := by
  induction x generalizing s arrivals with
  | done => rfl
  | view next ih => exact ih s s arrivals
  | pointer p next ih => exact ih _ _ arrivals
  | object c o next ih => exact ih _ _ arrivals
  | callSite c next ih => exact ih _ _ arrivals
  | method m next ih => exact ih _ _ arrivals
  | mock d t c next ih => exact ih _ _ arrivals
  | inject p objects next ih => exact ih _ arrivals
  | flow source target next ih => exact ih _ arrivals
  | register e next ih => exact ih s _
  | report severity text next ih => exact ih _ arrivals
  | note event next ih => exact ih _ arrivals

variable {a : Analysis} {given : Fact → Prop} {T : Theory a given} {s : State}

/-- The mock array and its element are there, and they are promised to the first parameter and to the
slot of the array. -/
def State.Mocks (p : Program) (entry : MethodId) (s : State) : Prop :=
  ∀ param type element, p.mainArgument? entry = some (param, type, element) →
    ∃ i j, s.Denotes i (p.mockArray entry type) ∧ s.Denotes j (p.mockElement entry element) ∧
      s.Promises (.var [] param) i ∧ s.Promises (.arrayIndex i) j

/-- Mock objects that are there and promised stay so. -/
theorem State.Mocks.mono {p : Program} {entry : MethodId} {t : State} (h : s.Mocks p entry)
    (hst : s.Extends t) : t.Mocks p entry := by
  intro param type element harg
  obtain ⟨i, j, hi, hj, hparam, hslot⟩ := h param type element harg
  exact ⟨i, j, hst.denotes hi, hst.denotes hj, hst.promises hparam, hst.promises hslot⟩

/-- A mock object is made, and it is the only object of its origin that may be made. -/
theorem State.move_mock (hs : Sound T s) {d : String} {type : Ty} {c : ClassId} {i : ObjectId}
    {t : State} (h : s.mock d type c = (i, t)) (hmade : T.Made ⟨.mock d, type, none, c⟩)
    (hunique : ∀ o, T.Made o → o.origin = .mock d → o = ⟨.mock d, type, none, c⟩) {context : Context}
    (hfounded : T.Founded s context ⟨.mock d, type, none, c⟩) :
    Move T s t ∧ t.heap.objects[i.idx]? = some ⟨.mock d, type, none, c⟩ := by
  have hmove : Move T s _ := .create hmade hfounded
  have hself := hs.getElem?_intern (o := ⟨.mock d, type, none, c⟩) hunique
  simp only [State.mock, Heap.mock] at h
  cases h
  exact ⟨hmove, hself⟩

/-- An object that some place may have is interned. -/
theorem State.move_internObject {c : Context} {o : ObjectId} {x : Object} {i : CsObjectId}
    {t : State} (h : s.internObject c o = (i, t)) (hx : s.heap.objects[o.idx]? = some x)
    (hc : T.Founded s c x) : Move T s t ∧ t.Denotes i ⟨c, x⟩ := by
  have hmove : Move T s _ := .object hx hc
  have hself := State.denotes_internObject hx c
  rw [h] at hmove hself
  exact ⟨hmove, hself⟩

/-- A pointer that may be met is interned. -/
theorem State.move_internPointer {p : Pointer} {i : PointerId} {t : State}
    (h : s.internPointer p = (i, t)) (hp : T.Relevant s p) : Move T s t ∧ t.IsPointer i p := by
  have hmove : Move T s _ := .pointer hp
  have hself := s.isPointer_internPointer p
  rw [h] at hmove hself
  exact ⟨hmove, hself⟩

/-- Injecting an object is a push of its own. -/
theorem State.moves_inject {i : PointerId} {p : Pointer} {x : Place} {o : CsObjectId}
    {y : HeapObject} (hi : s.IsPointer i p) (hx : s.Stands p x) (hy : s.Denotes o y)
    (hadm : T.Admits s.heap (.pointsTo x y)) :
    Moves T 1 s (s.inject i (.singleton o)) ∧ (s.inject i (.singleton o)).Promises p o := by
  unfold inject
  -- the report comes first, then the push
  generalize hr : s.report _ _ = t
  have hmove : Move T s t := .silent (hr ▸ s.agrees_report _ _)
  have hext := hmove.extends
  refine ⟨.move hmove (.push (fun o' ho' => ?_) (.refl _ _)), i, hext.isPointer hi, ?_⟩
  · rw [ObjectSet.contains_singleton, decide_eq_true_eq] at ho'
    subst ho'
    refine ⟨p, x, y, hext.isPointer hi, hext.stands hx, hext.denotes hy, ?_⟩
    rw [← hr]
    exact hadm
  · exact State.awaits_push _ _ (by simp)

/-- Without an argument to mock, a warning is all that is left behind. -/
theorem Extension.run_mockArguments_of_none {p : Program} (entry : CsMethod)
    (h : p.mainArgument? entry.method = none) (s : State) (arrivals : List Extension) :
    ∃ text, (mockArguments p entry).run s arrivals = ((), s.report .warn text, arrivals) := by
  cases hparam : (p.methodAt entry.method).body?.bind (·.params.head?) with
  | none =>
      simp only [mockArguments, hparam, Script.run]
      exact ⟨_, rfl⟩
  | some param =>
      cases helement : (p.varAt param).type.element?.filter (·.className?.isSome) with
      | none =>
          simp only [mockArguments, hparam, helement, Script.run]
          exact ⟨_, rfl⟩
      | some element => simp [Program.mainArgument?, hparam, helement] at h

/-- With an argument to mock, both objects are made, interned and injected, in this order. -/
theorem Extension.run_mockArguments_of_some {p : Program} (entry : CsMethod) {param : VarId}
    {type element : Ty} (h : p.mainArgument? entry.method = some (param, type, element)) {s : State}
    (arrivals : List Extension) {s₁ s₂ s₃ s₄ s₅ s₆ : State} {o₁ o₂ : ObjectId} {i j : CsObjectId}
    {slot arg : PointerId}
    (h₁ : s.mock "<main-args>" type (p.methodAt entry.method).owner = (o₁, s₁))
    (h₂ : s₁.mock "<main-arg>" element (p.methodAt entry.method).owner = (o₂, s₂))
    (h₃ : s₂.internObject entry.context o₁ = (i, s₃))
    (h₄ : s₃.internObject entry.context o₂ = (j, s₄))
    (h₅ : s₄.internPointer (.arrayIndex i) = (slot, s₅))
    (h₆ : s₅.internPointer (.var entry.context param) = (arg, s₆)) :
    ∃ text, (mockArguments p entry).run s arrivals =
      ((), ((s₆.report .debug text).inject slot (.singleton j)).inject arg (.singleton i),
        arrivals) := by
  -- Both searches for the first parameter find the same variable.
  simp only [Program.mainArgument?, Option.bind_eq_bind, Option.bind_eq_some_iff, Option.pure_def,
    Option.some.injEq, Prod.mk.injEq] at h
  obtain ⟨v, hv, t, ht, rfl, rfl, rfl⟩ := h
  refine ⟨"mocking arguments of entry method " ++ p.methodText entry.method, ?_⟩
  have hparam : (p.methodAt entry.method).body?.bind (·.params.head?) = some v :=
    Option.bind_eq_some_iff.2 hv
  simp only [mockArguments, hparam, ht, Script.run, h₁, h₂, h₃, h₄, h₅, h₆]

/-- Mocking the arguments of the entry method makes two objects, and pushes each of them once. -/
theorem Analysis.moves_mockArguments (wf : a.program.WellFormed) {entry : MethodId}
    (hmock : a.options.mockMainArgs = true) (hs : Sound (a.theory wf entry) s)
    (arrivals : List Extension) :
    ∃ t, (Extension.mockArguments a.program ⟨[], entry⟩).run s arrivals = ((), t, arrivals) ∧
      Moves (a.theory wf entry) 2 s t ∧ t.Mocks a.program entry := by
  cases harg : a.program.mainArgument? entry with
  | none =>
      obtain ⟨text, hrun⟩ := Extension.run_mockArguments_of_none ⟨[], entry⟩ harg s arrivals
      refine ⟨_, hrun, .single (.silent (s.agrees_report _ _)), fun param type element harg' => ?_⟩
      cases harg.symm.trans harg'
  | some arg =>
      obtain ⟨param, type, element⟩ := arg
      have hgiven {h : Heap} {q : Fact} (hq : Given a.program entry true q) :
          (a.theory wf entry).Admits h q :=
        (a.theory wf entry).closed h [] q (.given (hmock ▸ hq)) (by simp)
      have harray {s : State} : (a.theory wf entry).Founded s [] _ := ⟨_, hgiven (.array rfl harg)⟩
      have helement {s : State} : (a.theory wf entry).Founded s [] _ :=
        ⟨_, hgiven (.element rfl harg)⟩
      obtain ⟨b, hb, hparam⟩ := Program.mainArgument?_eq_some harg
      -- the two objects
      obtain ⟨o₁, s₁, h₁⟩ : ∃ o t, s.mock "<main-args>" type (a.program.methodAt entry).owner =
        (o, t) := ⟨_, _, rfl⟩
      obtain ⟨hm₁, hx₁⟩ := State.move_mock hs h₁ (.array harg)
        (fun o ho => ho.unique (.array harg)) harray
      have hs₁ := hm₁.sound hs
      obtain ⟨o₂, s₂, h₂⟩ : ∃ o t, s₁.mock "<main-arg>" element (a.program.methodAt entry).owner =
        (o, t) := ⟨_, _, rfl⟩
      obtain ⟨hm₂, hx₂⟩ := State.move_mock hs₁ h₂ (.element harg)
        (fun o ho => ho.unique (.element harg)) helement
      have hs₂ := hm₂.sound hs₁
      -- their identifiers in the empty context
      obtain ⟨i, s₃, h₃⟩ : ∃ i t, s₂.internObject [] o₁ = (i, t) := ⟨_, _, rfl⟩
      obtain ⟨hm₃, hi₃⟩ := State.move_internObject (T := a.theory wf entry) h₃
        (hm₂.extends.heap _ _ hx₁) harray
      have hs₃ := hm₃.sound hs₂
      obtain ⟨j, s₄, h₄⟩ : ∃ j t, s₃.internObject [] o₂ = (j, t) := ⟨_, _, rfl⟩
      obtain ⟨hm₄, hj₄⟩ := State.move_internObject (T := a.theory wf entry) h₄
        (hm₃.extends.heap _ _ hx₂) helement
      have hs₄ := hm₄.sound hs₃
      -- the slot of the array, and the parameter
      obtain ⟨slot, s₅, h₅⟩ : ∃ k t, s₄.internPointer (.arrayIndex i) = (k, t) := ⟨_, _, rfl⟩
      obtain ⟨hm₅, hslot⟩ := State.move_internPointer (T := a.theory wf entry) h₅
        ⟨_, hm₄.extends.denotes hi₃⟩
      have hs₅ := hm₅.sound hs₄
      obtain ⟨arg, s₆, h₆⟩ : ∃ k t, s₅.internPointer (.var [] param) = (k, t) := ⟨_, _, rfl⟩
      obtain ⟨hm₆, harg₆⟩ := State.move_internPointer (T := a.theory wf entry) h₆
        (Theory.relevant_var ((wf.body _ b hb).param param hparam) (hgiven .entry))
      obtain ⟨text, hrun⟩ := Extension.run_mockArguments_of_some ⟨[], entry⟩ harg
        arrivals h₁ h₂ h₃ h₄ h₅ h₆
      generalize hs₇ : s₆.report .debug text = s₇ at hrun
      have hm₇ : Move (a.theory wf entry) s₆ s₇ := .silent (hs₇ ▸ s₆.agrees_report _ _)
      have hext₅ := hm₅.extends.trans (hm₆.extends.trans hm₇.extends)
      have hi := hext₅.denotes (hm₄.extends.denotes hi₃)
      have hj := hext₅.denotes hj₄
      obtain ⟨hslotMoves, hslotPromise⟩ := State.moves_inject
        ((hm₆.extends.trans hm₇.extends).isPointer hslot) (.arrayIndex hi) hj
        (hgiven (.element rfl harg))
      have hext₈ := hslotMoves.extends
      obtain ⟨hargMoves, hargPromise⟩ := State.moves_inject
        (hext₈.isPointer (hm₇.extends.isPointer harg₆)) (.var _ _) (hext₈.denotes hi)
        (hgiven (.array rfl harg))
      refine ⟨_, hrun, .move hm₁ (.move hm₂ (.move hm₃ (.move hm₄ (.move hm₅ (.move hm₆ (.move hm₇
        (hslotMoves.trans hargMoves))))))), fun param' type' element' harg' => ?_⟩
      cases harg.symm.trans harg'
      have hext₉ := hargMoves.extends
      exact ⟨i, j, (hext₈.trans hext₉).denotes hi, (hext₈.trans hext₉).denotes hj, hargPromise,
        hext₉.promises hslotPromise⟩

end Mocks

end PointsTo
