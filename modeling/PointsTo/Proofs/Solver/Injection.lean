import PointsTo.Proofs.Solver.Exactness
import PointsTo.Proofs.Solver.Recording

/-! # What extensions add

Extensions may add facts and flow edges at any time before the end of a run. If all identifiers that
they use are those of the state, or were given to them, then a run that gives a result ends with all that
was added: sets that were injected are there, flow edges carry what their sources have, and the
constraints of the program hold for the additional facts as for the others. What is added when the run
is over changes nothing that was found.

The run is described by an open theory, which admits additional elements and facts; its states are sound
and saturated as those of any other run.
-/

namespace PointsTo

variable {π α β : Type} {a : Analysis} {s t : State}

/-! ## The open theory -/

/-- The theory of runs to which anything may be added, but that call edges are of the kinds of their
calls, and that the objects of allocations are made by them. -/
def Analysis.openTheory (a : Analysis) : Theory a fun _ => False where
  Open := True
  Admits _ q := ∀ k site callee call, q = .call k site callee →
    (a.program.stmtAt site.stmt).kind = .invoke call → k = call.binding.kind
  Made o := ∀ s x t, (a.program.stmtAt s).kind = .new x t → o.origin = .site s →
    o = a.program.allocated s t
  mono _ _ h := h
  closed h ps q rule _ k site callee call hq hkind := by
    cases rule with
    | given h => exact h.elim
    | staticCall _ kind binding _ =>
        cases hq
        cases hkind.symm.trans kind
        rw [binding]
        rfl
    | dispatch d =>
        cases hq
        cases hkind.symm.trans d.kind
        rfl
    | _ => cases hq
  owner _ _ _ _ _ hq := by cases hq
  kind h hkind := h _ _ _ _ rfl hkind
  made_new {s x t} kind s' x' t' kind' horigin := by
    cases horigin
    cases kind.symm.trans kind'
    rfl
  made_unique kind h horigin := h _ _ _ kind horigin

/-- The open theory admits every method. -/
theorem Analysis.openTheory_reach (h : Heap) (m : CsMethod) : a.openTheory.Admits h (.reach m) := by
  intro _ _ _ _ hq
  cases hq

/-- The open theory admits every object of every place. -/
theorem Analysis.openTheory_pointsTo (h : Heap) (x : Place) (y : HeapObject) :
    a.openTheory.Admits h (.pointsTo x y) := by
  intro _ _ _ _ hq
  cases hq

theorem Analysis.openTheory_founded (c : Context) (x : Object) : a.openTheory.Founded s c x :=
  ⟨.staticField ⟨0⟩, openTheory_pointsTo _ _ _⟩

/-- Mock objects may be made at any time. -/
theorem Analysis.openTheory_made_mock (d : String) (type : Ty) (c : ClassId) :
    a.openTheory.Made ⟨.mock d, type, none, c⟩ := by
  intro _ _ _ _ horigin
  cases horigin

/-- The identifier of an object stands for an object of the heap. -/
theorem Sound.denotes {given : Fact → Prop} {T : Theory a given} (hs : Sound T s) {i : CsObjectId}
    {o : CsObject} (hi : s.IsObject i o) : ∃ y, s.Denotes i y := by
  obtain ⟨x, hx, hcontainer, -⟩ := hs.object i o hi
  refine ⟨⟨o.context, x⟩, o.object, ?_, hx⟩
  rwa [← hcontainer]

/-- The base of a slot is an object of the state. -/
def State.HasBase (s : State) : Pointer → Prop
  | .instanceField i _ => ∃ o, s.IsObject i o
  | .arrayIndex i => ∃ o, s.IsObject i o
  | _ => True

/-- A pointer is relevant in the open theory if the slots that it stands for belong to objects of the
state. -/
theorem Sound.relevant (hs : Sound a.openTheory s) {p : Pointer} (hp : s.HasBase p) :
    a.openTheory.Relevant s p := by
  cases p with
  | var c v => exact ⟨Or.inl trivial, Analysis.openTheory_reach _ _⟩
  | staticField f => exact Or.inl trivial
  | instanceField i f =>
      obtain ⟨o, ho⟩ := hp
      exact ⟨hs.denotes ho, Or.inl trivial⟩
  | arrayIndex i =>
      obtain ⟨o, ho⟩ := hp
      exact hs.denotes ho

/-- Any set of objects of the state is justified in the open theory. -/
theorem Sound.justified (hs : Sound a.openTheory s) {i : PointerId} {p : Pointer}
    (hi : s.IsPointer i p) {objects : ObjectSet}
    (hobjects : ∀ o, objects.contains o = true → ∃ y, s.IsObject o y) :
    a.openTheory.Justified s i objects := by
  intro o ho
  obtain ⟨x, hx⟩ := (hs.pointer i p hi).stands
  obtain ⟨c, hc⟩ := hobjects o ho
  obtain ⟨y, hy⟩ := hs.denotes hc
  exact ⟨p, x, y, hi, hx, hy, Analysis.openTheory_pointsTo _ _ _⟩

/-- Any two pointers of the state may be linked in the open theory. -/
theorem Sound.flows (hs : Sound a.openTheory s) {i j : PointerId} {p q : Pointer}
    (hi : s.IsPointer i p) (hj : s.IsPointer j q) : a.openTheory.Flows s i j := by
  obtain ⟨x, hx⟩ := (hs.pointer i p hi).stands
  obtain ⟨y, hy⟩ := (hs.pointer j q hj).stands
  exact ⟨p, q, x, y, hi, hj, hx, hy, fun _ _ _ _ _ => Analysis.openTheory_pointsTo _ _ _⟩

theorem State.agrees_note (s : State) (event : String) : s.Agrees (s.note event) :=
  ⟨rfl, rfl, rfl, rfl, rfl, rfl, rfl, rfl, rfl, rfl⟩

theorem State.extends_mock (s : State) (d : String) (type : Ty) (c : ClassId) :
    s.Extends (s.mock d type c).2 :=
  { State.Extends.refl s with heap := s.heap.extends_intern _ }

/-- Injecting objects extends the state. -/
theorem State.extends_inject (s : State) (i : PointerId) (objects : ObjectSet) :
    s.Extends (s.inject i objects) :=
  (s.agrees_report _ _).extends.trans (State.extends_push _ i objects)

/-- The state before a run knows nothing. -/
theorem State.initial_extends (s : State) : State.initial.Extends s where
  heap i o hi := by simp [initial, Heap.empty] at hi
  pointers i p hi := by simp [initial, Elements.empty, Table.empty] at hi
  objects i o hi := by simp [initial, Elements.empty, Table.empty] at hi
  callSites i c hi := by simp [initial, Elements.empty, Table.empty] at hi
  methods i m hi := by simp [initial, Elements.empty, Table.empty] at hi
  flow i j hij := by simp [initial] at hij
  edges e he := absurd he (Array.not_mem_empty e)
  reachable m hm := absurd hm (Array.not_mem_empty m)
  awaits i o ho := by
    rcases ho with ho | ⟨objects, hwork, -⟩
    · have hnone : initial.elements.pointsTo i = ObjectSet.empty := Family.get_empty i.idx
      rw [hnone, ObjectSet.contains_empty] at ho
      cases ho
    · simp [initial] at hwork
  unresolved c hc := absurd hc (Array.not_mem_empty c)

/-- Injecting objects only reports and pushes. -/
theorem Sound.links_inject (hs : Sound a.openTheory s) {i : PointerId} {p : Pointer}
    (hi : s.IsPointer i p) {objects : ObjectSet}
    (hobjects : ∀ o, objects.contains o = true → ∃ y, s.IsObject o y) :
    Links a.openTheory s (s.inject i objects) := by
  unfold State.inject
  generalize hr : s.report _ _ = t
  have hreport : Move a.openTheory s t := .silent (hr ▸ s.agrees_report _ _)
  refine (Relation.ReflTransGen.single hreport).tail (.inject trivial ?_)
  exact (hs.justified hi hobjects).mono hreport.extends (hreport.sound hs).distinct

/-! ## Lawful extensions -/

/-- A script that uses only identifiers of the state that it is carried out in. Extensions that it
registers are as `I` says, and its value is as `Q` says. -/
def Script.Lawful (I : π → State → Prop) (Q : α → State → Prop) : Script π α → State → Prop
  | done x, s => Q x s
  | view next, s => (next s).Lawful I Q s
  | pointer p next, s =>
    s.HasBase p ∧ (next (s.internPointer p).1).Lawful I Q (s.internPointer p).2
  | object c o next, s => (∃ x, s.heap.objects[o.idx]? = some x) ∧
    (next (s.internObject c o).1).Lawful I Q (s.internObject c o).2
  | callSite c next, s => (next (s.internCallSite c).1).Lawful I Q (s.internCallSite c).2
  | method m next, s => (next (s.internMethod m).1).Lawful I Q (s.internMethod m).2
  | mock d t c next, s => (next (s.mock d t c).1).Lawful I Q (s.mock d t c).2
  | inject i objects next, s => (∃ p, s.IsPointer i p) ∧
    (∀ o, objects.contains o = true → ∃ y, s.IsObject o y) ∧ next.Lawful I Q (s.inject i objects)
  | flow i j next, s => (∃ p, s.IsPointer i p) ∧ (∃ q, s.IsPointer j q) ∧
    next.Lawful I Q (s.addFlow i j)
  | register e next, s => I e s ∧ next.Lawful I Q s
  | report severity text next, s => next.Lawful I Q (s.report severity text)
  | note event next, s => next.Lawful I Q (s.note event)

/-- Extensions that answer every notice by a lawful script, in every state that a run can come to.
The invariant `I` says what an extension knows about the state, such as the identifiers that it keeps
for later. -/
structure Reaction.Lawful (a : Analysis) (react : Reaction π) (I : π → State → Prop) : Prop where
  mono : ∀ (e : π) {s t : State}, s.Extends t → I e s → I e t
  answers : ∀ {n : Notice} {e : π} {s : State}, Sound a.openTheory s → s.Knows n → I e s →
    (react n e).Lawful I I s

section Run

/-- What carrying out a script from a state comes to: moves of the open theory, a value as `Q` says, and
arrivals as `I` says. -/
structure Carried (a : Analysis) (I : π → State → Prop) (Q : α → State → Prop) (s : State)
    (r : α × State × List π) : Prop where
  links : Links a.openTheory s r.2.1
  value : Q r.1 r.2.1
  arrivals : ∀ e ∈ r.2.2, I e r.2.1

variable {I : π → State → Prop} {Q : α → State → Prop}

/-- What is carried out after moves is carried out from the state before them. -/
theorem Carried.linked {r : α × State × List π} (h : Carried a I Q t r)
    (hlinks : Links a.openTheory s t) : Carried a I Q s r :=
  ⟨hlinks.trans h.links, h.value, h.arrivals⟩

/-- A lawful script makes moves of the open theory. -/
theorem Script.Lawful.run {x : Script π α} {s : State} (h : x.Lawful I Q s)
    (hmono : ∀ (e : π) {s t : State}, s.Extends t → I e s → I e t) (hs : Sound a.openTheory s)
    {arrivals : List π} (harrivals : ∀ e ∈ arrivals, I e s) :
    Carried a I Q s (x.run s arrivals) := by
  -- the rest of a script is carried out in the state that its first action leads to
  have hkeep : ∀ {s t : State} {arrivals : List π}, Links a.openTheory s t →
      (∀ e ∈ arrivals, I e s) → ∀ e ∈ arrivals, I e t :=
    fun hlinks harrivals e he => hmono e hlinks.extends (harrivals e he)
  -- one case for each action; a lawful script refers to elements of the state only, which is what each
  -- move asks for
  induction x generalizing s arrivals with
  | done => exact ⟨.refl, h, harrivals⟩
  | view next ih => exact ih s h hs harrivals
  | pointer p next ih =>
      have hmove : Links a.openTheory s _ := .single (.pointer (hs.relevant h.1))
      exact (ih _ h.2 (hmove.sound hs) (hkeep hmove harrivals)).linked hmove
  | object c o next ih =>
      obtain ⟨⟨x, hx⟩, h⟩ := h
      have hmove : Links a.openTheory s _ := .single (.object hx (Analysis.openTheory_founded c x))
      exact (ih _ h (hmove.sound hs) (hkeep hmove harrivals)).linked hmove
  | callSite c next ih =>
      have hmove : Links a.openTheory s (s.internCallSite c).2 :=
        .single (.callSite ⟨Or.inl trivial, Analysis.openTheory_reach _ _⟩)
      exact (ih _ h (hmove.sound hs) (hkeep hmove harrivals)).linked hmove
  | method m next ih =>
      have hmove : Links a.openTheory s _ := .single (.method (Analysis.openTheory_reach _ m))
      exact (ih _ h (hmove.sound hs) (hkeep hmove harrivals)).linked hmove
  | mock d type c next ih =>
      have hmove : Links a.openTheory s (s.mock d type c).2 := .single (.create
        (Analysis.openTheory_made_mock d type c) (Analysis.openTheory_founded [] _))
      exact (ih _ h (hmove.sound hs) (hkeep hmove harrivals)).linked hmove
  | inject i objects next ih =>
      obtain ⟨⟨p, hp⟩, hobjects, h⟩ := h
      have hmove := hs.links_inject hp hobjects
      exact (ih h (hmove.sound hs) (hkeep hmove harrivals)).linked hmove
  | flow i j next ih =>
      obtain ⟨⟨p, hp⟩, ⟨q, hq⟩, h⟩ := h
      have hmove : Links a.openTheory s _ := .single (.flow (hs.flows hp hq))
      exact (ih h (hmove.sound hs) (hkeep hmove harrivals)).linked hmove
  | register e next ih =>
      refine ih h.2 hs fun e' he' => ?_
      rcases List.mem_append.1 he' with he' | he'
      · exact harrivals e' he'
      · rw [List.mem_singleton.1 he']
        exact h.1
  | report severity text next ih =>
      have hmove : Links a.openTheory s _ := .single (.silent (s.agrees_report severity text))
      exact (ih h (hmove.sound hs) (hkeep hmove harrivals)).linked hmove
  | note event next ih =>
      have hmove : Links a.openTheory s _ := .single (.silent (s.agrees_note event))
      exact (ih h (hmove.sound hs) (hkeep hmove harrivals)).linked hmove

variable {react : Reaction π} (h : react.Lawful a I)

include h

/-- Lawful extensions make moves of the open theory, and stay as they are said to be. -/
theorem Reaction.Lawful.round {n : Notice} (es : List π) {s : State} (hs : Sound a.openTheory s)
    (hn : s.Knows n) (hes : ∀ e ∈ es, I e s) {arrivals : List π} (harrivals : ∀ e ∈ arrivals, I e s) :
    Carried a I (fun es t => ∀ e ∈ es, I e t) s (Machine.round react n es s arrivals) := by
  induction es generalizing s arrivals with
  | nil => exact ⟨.refl, hes, harrivals⟩
  | cons e es ih =>
      have hfirst := (h.answers hs hn (hes e (List.mem_cons_self ..))).run h.mono hs harrivals
      have hext := hfirst.links.extends
      have hrest := ih (hfirst.links.sound hs) (hn.mono hext)
        (fun e' he' => h.mono e' hext (hes e' (List.mem_cons_of_mem _ he'))) hfirst.arrivals
      refine ⟨hfirst.links.trans hrest.links, fun e' he' => ?_, hrest.arrivals⟩
      rcases List.mem_cons.1 he' with rfl | he'
      · exact h.mono _ hrest.links.extends hfirst.value
      · exact hrest.value e' he'

/-- Lawful extensions answer a notice by moves of the open theory, and stay as `I` says. -/
theorem Reaction.Lawful.notify {n : Notice} {k : Machine π} (hs : Sound a.openTheory k.state)
    (hes : ∀ e ∈ k.extensions, I e k.state) (hn : k.state.Knows n) :
    Links a.openTheory k.state (k.notify react n).state ∧
      ∀ e ∈ (k.notify react n).extensions, I e (k.notify react n).state := by
  have hround := h.round k.extensions hs hn hes (List.forall_mem_nil _)
  refine ⟨hround.links, fun e he => ?_⟩
  rcases List.mem_append.1 he with he | he
  · exact hround.value e he
  · exact hround.arrivals e he

/-- Lawful extensions are tame, with `I` as what is known of them. -/
theorem Reaction.Lawful.tame : Tame a.openTheory react fun es s => ∀ e ∈ es, I e s where
  mono hst hes e he := h.mono e hst (hes e he)
  notify _ hs hes hn := h.notify hs hes hn

end Run

/-! ## What was added -/

namespace Act

/-- What an action brings about at once: the objects of a set are awaited, or there is a flow edge. -/
def Underway (s : State) : Act → Prop
  | inject i objects => ∀ o, objects.contains o = true → s.Awaits i o
  | flow i j => s.flow.hasEdge i j = true

/-- What an action brings about in the end: the pointer has all objects of the set, or the target has
all objects of the source. -/
def Joined (s : State) : Act → Prop
  | inject i objects => ∀ o, objects.contains o = true → (s.elements.pointsTo i).contains o = true
  | flow i j => ∀ o, (s.elements.pointsTo i).contains o = true →
    (s.elements.pointsTo j).contains o = true

/-- What is under way stays so while the state extends. -/
theorem Underway.mono {act : Act} (h : act.Underway s) (hst : s.Extends t) : act.Underway t := by
  cases act with
  | inject i objects => exact fun o ho => hst.awaits i o (h o ho)
  | flow i j => exact hst.flow i j h

/-- Injected objects are awaited at once. -/
theorem underway_inject (s : State) (i : PointerId) (objects : ObjectSet) :
    (inject i objects).Underway (s.inject i objects) :=
  fun _ ho => State.awaits_push _ _ ho

/-- A flow edge is there at once. -/
theorem underway_flow (s : State) (i j : PointerId) : (flow i j).Underway (s.addFlow i j) :=
  (s.hasEdge_addFlow i j i j).2 (Or.inr ⟨rfl, rfl⟩)

end Act

/-- In a finished state all that was under way has arrived. -/
theorem Finished.joined {given : Fact → Prop} {T : Theory a given} (h : Finished T s) {act : Act}
    (hact : act.Underway s) : act.Joined s := by
  cases act with
  | inject i objects => exact fun o ho => h.contains_of_awaits (hact o ho)
  | flow i j => exact fun o ho => h.contains_of_awaits (h.saturated.flow i j hact o ho)

/-- The extension is as `I` says, and all that it has recorded is under way. -/
def Recorded (I : π → State → Prop) (e : π × List Act) (s : State) : Prop :=
  I e.1 s ∧ ∀ act ∈ e.2, act.Underway s

/-- What was recorded stays under way, and so does the action that comes last. -/
theorem forall_underway_append {acts : List Act} {act : Act} (hst : s.Extends t)
    (hacts : ∀ x ∈ acts, x.Underway s) (hact : act.Underway t) :
    ∀ x ∈ acts ++ [act], x.Underway t := by
  intro x hx
  rcases List.mem_append.1 hx with hx | hx
  · exact (hacts x hx).mono hst
  · rwa [List.mem_singleton.1 hx]

section Record

variable {I : π → State → Prop}

/-- The record of a lawful script is a lawful script. -/
theorem Script.Lawful.recorded {x : Script π α} {Q : α → State → Prop} {s : State}
    (h : x.Lawful I Q s) {acts : List Act} (hacts : ∀ act ∈ acts, act.Underway s) :
    (x.recorded acts).Lawful (Recorded I)
      (fun v t => Q v.1 t ∧ ∀ act ∈ v.2, act.Underway t) s := by
  have hkeep : ∀ {s t : State} {acts : List Act}, s.Extends t → (∀ act ∈ acts, act.Underway s) →
      ∀ act ∈ acts, act.Underway t := fun hst hacts act hact => (hacts act hact).mono hst
  induction x generalizing s acts with
  | done => exact ⟨h, hacts⟩
  | view next ih => exact ih s h hacts
  | pointer p next ih => exact ⟨h.1, ih _ h.2 (hkeep (s.extends_internPointer p) hacts)⟩
  | object c o next ih => exact ⟨h.1, ih _ h.2 (hkeep (s.extends_internObject c o) hacts)⟩
  | callSite c next ih => exact ih _ h (hkeep (s.extends_internCallSite c) hacts)
  | method m next ih => exact ih _ h (hkeep (s.extends_internMethod m) hacts)
  | mock d type c next ih => exact ih _ h (hkeep (s.extends_mock d type c) hacts)
  | inject i objects next ih =>
      exact ⟨h.1, h.2.1, ih h.2.2 (forall_underway_append (s.extends_inject i objects) hacts
        (Act.underway_inject s i objects))⟩
  | flow i j next ih =>
      exact ⟨h.1, h.2.1, ih h.2.2 (forall_underway_append (s.extends_addFlow i j) hacts
        (Act.underway_flow s i j))⟩
  | register e next ih => exact ⟨⟨h.1, List.forall_mem_nil _⟩, ih h.2 hacts⟩
  | report severity text next ih =>
      exact ih h (hkeep (s.agrees_report severity text).extends hacts)
  | note event next ih => exact ih h (hkeep (s.agrees_note event).extends hacts)

/-- Lawful extensions stay lawful when they are recorded, and what is recorded is under way. -/
theorem Reaction.Lawful.recorded {react : Reaction π} (h : react.Lawful a I) :
    react.recorded.Lawful a (Recorded I) where
  mono e _ _ hst he := ⟨h.mono e.1 hst he.1, fun act hact => (he.2 act hact).mono hst⟩
  answers hs hn he := (h.answers hs hn he.1).recorded he.2

end Record

/-! ## Runs with lawful extensions -/

section Runs

variable {react : Reaction π} {I : π → State → Prop} (wf : a.program.WellFormed)
  (hmodel : a.heapModel = .allocationSite) (h : react.Lawful a I)

theorem Analysis.agrees_checked (a : Analysis) : State.initial.Agrees a.checked :=
  (State.agrees_report _ _ _).trans (State.agrees_report _ _ _)

include wf hmodel h

/-- A run with lawful extensions that has done all its work is in a finished state of the open theory,
in which the entry method is reachable. -/
theorem Analysis.finished_fixpoint {entry : MethodId} {es : List π} (hes : ∀ e ∈ es, I e .initial)
    (hdone : isDone (a.fixpoint react entry es) = true) :
    Finished a.openTheory (a.fixpoint react entry es).state ∧
      (∀ e ∈ (a.fixpoint react entry es).extensions, I e (a.fixpoint react entry es).state) ∧
      (a.fixpoint react entry es).state.Holds (.reach ⟨[], entry⟩) := by
  -- the state between two phases is named anew each time, as the term for it doubles with every phase
  have hfirst := started_first a.openTheory a.agrees_checked (openTheory_reach _ ⟨[], entry⟩)
  have hes₀ : ∀ e ∈ es, I e (start entry a.checked) := fun e he =>
    h.mono e (State.initial_extends _) (hes e he)
  unfold fixpoint at hdone ⊢
  obtain ⟨hes₁, hsteps₁⟩ := a.advance_stepsTo wf hmodel isVisited
    (k := ⟨start entry a.checked, es⟩) hfirst.sound h.tame hes₀
  generalize a.advance react isVisited _ = k₁ at *
  have hstarted₁ := hfirst.steps hsteps₁
  obtain ⟨hlinks, hes₂⟩ := h.notify (n := .started) hstarted₁.sound hes₁ trivial
  generalize k₁.notify react .started = k₂ at *
  have hstarted₂ := hstarted₁.moves (.of_links (n := 0) hlinks)
  obtain ⟨hes₃, hsteps₃⟩ := a.advance_stepsTo wf hmodel isDone hstarted₂.sound h.tame hes₂
  generalize a.advance react isDone _ = k₃ at *
  have hstarted₃ := hstarted₂.steps hsteps₃
  obtain ⟨hpending, hwork⟩ := isDone_iff.1 hdone
  obtain ⟨i, -, hi, hmem⟩ := hstarted₃.entries
  exact ⟨⟨hstarted₃.sound, hstarted₃.saturated, hpending, hwork⟩, hes₃, i, hmem, hi.method⟩

end Runs

/-! ## The end of a run -/

/-- What an action cannot change: the call graph, and the objects of pointers. -/
def State.found (s : State) : CsCallGraph × (PointerId → ObjectSet) :=
  (s.calls, s.elements.pointsTo)

/-- A script changes neither the call graph nor the objects of pointers: what it injects is pushed on
the work list only. -/
theorem Script.run_found (x : Script π α) (s : State) (arrivals : List π) :
    (x.run s arrivals).2.1.found = s.found := by
  induction x generalizing s arrivals with
  | done => rfl
  | view next ih => exact ih s s arrivals
  | pointer p next ih =>
      exact (ih _ _ arrivals).trans (congrArg (s.calls, ·) (s.pointsTo_internPointer p))
  | object c o next ih => exact ih _ _ arrivals
  | callSite c next ih => exact ih _ _ arrivals
  | method m next ih => exact ih _ _ arrivals
  | mock d t c next ih => exact ih _ _ arrivals
  | inject p objects next ih => exact ih _ arrivals
  | flow i j next ih =>
      rw [run, ih]
      obtain ⟨flow, work, heq⟩ := s.addFlow_with i j
      rw [heq]
      rfl
  | register e next ih => exact ih s _
  | report severity text next ih => exact ih _ arrivals
  | note event next ih => exact ih _ arrivals

/-- A round of answers changes neither the call graph nor the objects of pointers. -/
theorem Machine.round_found (react : Reaction π) (n : Notice) (es : List π) (s : State)
    (arrivals : List π) : (round react n es s arrivals).2.1.found = s.found := by
  induction es generalizing s arrivals with
  | nil => rfl
  | cons e es ih =>
      simp only [round]
      rw [ih, Script.run_found]

/-- Whatever extensions do, they change neither the call graph nor the objects of pointers. -/
theorem Machine.notify_found (react : Reaction π) (n : Notice) (k : Machine π) :
    (k.notify react n).state.found = k.state.found :=
  round_found react n k.extensions k.state []

/-- The answers to the notice that a run is over leave what was found as it is. -/
theorem Analysis.found_of_finish {react : Reaction π} {k : Machine π} {r : Solution}
    (hr : (a.finish react k).result = .ok r) : r.state.found = k.state.found := by
  obtain ⟨before, after, hresult⟩ := a.finish_result react k
  cases hr.symm.trans hresult
  exact Machine.notify_found react .finished ⟨{ k.state with log := before }, k.extensions⟩

/-- The answers of lawful extensions to the end of a run keep the state sound. -/
theorem Analysis.sound_of_finish {react : Reaction π} {I : π → State → Prop}
    (h : react.Lawful a I) {k : Machine π} (hs : Sound a.openTheory k.state)
    (hes : ∀ e ∈ k.extensions, I e k.state) {r : Solution}
    (hr : (a.finish react k).result = .ok r) :
    Sound a.openTheory r.state ∧ k.state.Extends r.state := by
  obtain ⟨before, after, hresult⟩ := a.finish_result react k
  cases hr.symm.trans hresult
  have hreport : Links a.openTheory k.state { k.state with log := before } :=
    .single (.silent (k.state.agrees_log before))
  obtain ⟨hlinks, -⟩ := h.notify (n := .finished)
    (k := ⟨{ k.state with log := before }, k.extensions⟩) (hreport.sound hs)
    (fun e he => h.mono e hreport.extends (hes e he)) trivial
  have hall := (hreport.trans hlinks).tail (.silent (State.agrees_log _ after))
  exact ⟨Links.sound hall hs, Links.extends hall⟩

section Later

variable {given : Fact → Prop} {T : Theory a given} (hs : Sound T s) (ht : Sound T t)
  (hst : s.Extends t) (hfound : t.found = s.found)

include hs ht hst hfound

/-- A state that extends another one, with the same call graph and the same objects of pointers, holds
the same facts. -/
theorem State.holds_iff_of_found {q : Fact} : t.Holds q ↔ s.Holds q := by
  obtain ⟨hcalls, hsets⟩ := Prod.mk.inj hfound
  have hpointsTo : ∀ i, t.elements.pointsTo i = s.elements.pointsTo i := congrFun hsets
  -- identifiers in the call graph and in the sets are identifiers of the first state
  cases q with
  | reach m =>
      rw [hs.holds_reach_iff, ht.holds_reach_iff, hcalls]
      constructor
      · rintro ⟨i, hi, hm⟩
        obtain ⟨m', hm'⟩ := hs.reachable i hi
        cases hm.symm.trans (hst.isMethod hm')
        exact ⟨i, hi, hm'⟩
      · rintro ⟨i, hi, hm⟩
        exact ⟨i, hi, hst.isMethod hm⟩
  | call k site callee =>
      rw [hs.holds_call_iff, ht.holds_call_iff, hcalls]
      constructor
      · rintro ⟨e, he, hk, hsite, hcallee⟩
        obtain ⟨site', callee', hsite', hcallee', -⟩ := hs.edge e he
        cases hsite.symm.trans (hst.isCallSite hsite')
        cases hcallee.symm.trans (hst.isMethod hcallee')
        exact ⟨e, he, hk, hsite', hcallee'⟩
      · rintro ⟨e, he, hk, hsite, hcallee⟩
        exact ⟨e, he, hk, hst.isCallSite hsite, hst.isMethod hcallee⟩
  | pointsTo x y =>
      rw [hs.holds_pointsTo_iff, ht.holds_pointsTo_iff]
      constructor
      · rintro ⟨i, p, o, hi, hx, hy, ho⟩
        rw [hpointsTo] at ho
        obtain ⟨p', x', y', hi', hx', hy', -⟩ := hs.pointsTo i o ho
        cases hi.symm.trans (hst.isPointer hi')
        cases hx.place.symm.trans (hst.stands hx').place
        cases hy.heapObject.symm.trans (hst.denotes hy').heapObject
        exact ⟨i, p, o, hi', hx', hy', ho⟩
      · rintro ⟨i, p, o, hi, hx, hy, ho⟩
        exact ⟨i, p, o, hst.isPointer hi, hst.stands hx, hst.denotes hy, by rwa [hpointsTo]⟩

/-- The facts of the second state are closed under the rules if those of the first one are. -/
theorem State.closed_of_found (h : Closed (Rule a.program a.selector s.heap.find? given) s.Holds) :
    Closed (Rule a.program a.selector t.heap.find? given) t.Holds := by
  intro ps q rule hps
  have hholds : ∀ {q : Fact}, t.Holds q ↔ s.Holds q := State.holds_iff_of_found hs ht hst hfound
  refine hholds.2 (h ps q (rule.rename fun x y i hmem hi => ?_) fun q hq => hholds.1 (hps q hq))
  -- the first state has a name for the object, which is still its name
  obtain ⟨_, _, o, -, -, ho, -⟩ := hs.holds_pointsTo_iff.1 (hholds.1 (hps _ hmem))
  have hname := ho.find? hs.distinct
  cases hi.symm.trans (ht.distinct.find?_mono hst.heap hname)
  exact hname

end Later

/-! ## Stock extensions -/

namespace Script

variable {I : π → State → Prop} {Q : α → State → Prop}

/-- A script is lawful if its first part is, with values for which the second part is lawful. -/
theorem Lawful.bind {x : Script π β} {f : β → Script π α} {s : State}
    (h : x.Lawful I (fun v t => (f v).Lawful I Q t) s) : (x.bind f).Lawful I Q s := by
  induction x generalizing s with
  | done => exact h
  | view next ih => exact ih s h
  | pointer p next ih => exact ⟨h.1, ih _ h.2⟩
  | object c o next ih => exact ⟨h.1, ih _ h.2⟩
  | callSite c next ih => exact ih _ h
  | method m next ih => exact ih _ h
  | mock d t c next ih => exact ih _ h
  | inject i objects next ih => exact ⟨h.1, h.2.1, ih h.2.2⟩
  | flow i j next ih => exact ⟨h.1, h.2.1, ih h.2.2⟩
  | register e next ih => exact ⟨h.1, ih h.2⟩
  | report severity text next ih => exact ih h
  | note event next ih => exact ih h

/-- After a mock object was made, it is in the heap. -/
theorem lawful_mock {d : String} {type : Ty} {c : ClassId} {next : ObjectId → Script π α}
    (h : ∀ o t, s.Extends t → (∃ x, t.heap.objects[o.idx]? = some x) → (next o).Lawful I Q t) :
    (Script.mock d type c next).Lawful I Q s := by
  obtain ⟨x, hx, -⟩ := s.heap.getElem?_intern_self ⟨.mock d, type, none, c⟩
  exact h _ _ (s.extends_mock d type c) ⟨x, hx⟩

/-- Interning an object of the heap in a context is lawful if the rest of the script is. -/
theorem lawful_object {c : Context} {o : ObjectId} {next : CsObjectId → Script π α}
    (ho : ∃ x, s.heap.objects[o.idx]? = some x)
    (h : ∀ i t, s.Extends t → (∃ y, t.IsObject i y) → (next i).Lawful I Q t) :
    (Script.object c o next).Lawful I Q s :=
  ⟨ho, h _ _ (s.extends_internObject c o) ⟨_, s.elements.objects.getElem?_intern_self _⟩⟩

/-- Interning a pointer is lawful if its base is an object of the state. -/
theorem lawful_pointer {p : Pointer} {next : PointerId → Script π α} (hp : s.HasBase p)
    (h : ∀ i t, s.Extends t → t.IsPointer i p → (next i).Lawful I Q t) :
    (Script.pointer p next).Lawful I Q s :=
  ⟨hp, h _ _ (s.extends_internPointer p) (s.isPointer_internPointer p)⟩

/-- Injecting one object of the state into a pointer of the state is lawful. -/
theorem lawful_inject_singleton {i : PointerId} {p : Pointer} {o : CsObjectId}
    {next : Script π α} (hi : s.IsPointer i p) (ho : ∃ y, s.IsObject o y)
    (h : ∀ t, s.Extends t → next.Lawful I Q t) :
    (Script.inject i (.singleton o) next).Lawful I Q s := by
  refine ⟨⟨p, hi⟩, fun o' ho' => ?_, h _ (s.extends_inject i _)⟩
  rw [ObjectSet.contains_singleton, decide_eq_true_eq] at ho'
  rwa [← ho']

theorem lawful_report {severity : Severity} {text : String} {next : Script π α}
    (h : ∀ t, s.Extends t → next.Lawful I Q t) : (Script.report severity text next).Lawful I Q s :=
  h _ (s.agrees_report severity text).extends

end Script

namespace Extension

variable {J : Extension → State → Prop} {Q : Unit → State → Prop} (hQ : ∀ s, Q () s)

include hQ

/-- The mock arguments of the entry are injected lawfully. -/
theorem lawful_mockArguments (p : Program) (entry : CsMethod) (s : State) :
    (mockArguments p entry).Lawful J Q s := by
  -- each identifier that the script obtains is carried to the states in which it is used, as these
  -- extend each other
  unfold mockArguments
  dsimp only
  split
  · exact hQ _
  · split
    · exact hQ _
    · refine Script.lawful_mock fun o₁ s₁ hext₁ ho₁ => Script.lawful_mock fun o₂ s₂ hext₂ ho₂ => ?_
      refine Script.lawful_object (ho₁.imp fun x => hext₂.heap _ x) fun i s₃ hext₃ hi => ?_
      refine Script.lawful_object (ho₂.imp fun x => hext₃.heap _ x) fun j s₄ hext₄ hj => ?_
      have hi₄ := hi.imp fun y => hext₄.isObject (o := y)
      refine Script.lawful_pointer hi₄ fun slot s₅ hext₅ hslot => ?_
      refine Script.lawful_pointer trivial fun arg s₆ hext₆ harg => ?_
      refine Script.lawful_report fun s₇ hext₇ => ?_
      have hext := hext₅.trans (hext₆.trans hext₇)
      refine Script.lawful_inject_singleton ((hext₆.trans hext₇).isPointer hslot)
        (hj.imp fun y => hext.isObject) fun s₈ hext₈ => ?_
      exact Script.lawful_inject_singleton ((hext₇.trans hext₈).isPointer harg)
        (hi₄.imp fun y => (hext.trans hext₈).isObject) fun t _ => hQ t

/-- Injecting a mock object into a variable is lawful. -/
theorem lawful_injectMock (object : MockSpec) (container : ClassId) (context : Context) (v : VarId)
    (s : State) : (injectMock object container context v).Lawful J Q s := by
  refine Script.lawful_mock fun o s₁ _ ho => Script.lawful_object ho fun i s₂ _ hi => ?_
  refine Script.lawful_pointer trivial fun q s₃ hext hq => ?_
  exact Script.lawful_inject_singleton hq (hi.imp fun y => hext.isObject) fun t _ => hQ t

/-- Injecting a mock object into the results of a call is lawful. -/
theorem lawful_injectResult (p : Program) (callee : String) (object : MockSpec) (e : CallEdge)
    (s : State) : (injectResult p callee object e).Lawful J Q s := by
  unfold injectResult
  dsimp only [Script.Lawful]
  split
  · split
    · exact lawful_injectMock hQ _ _ _ _ s
    · exact hQ s
  · exact hQ s

/-- Adding a flow edge between two variables is lawful. -/
theorem lawful_addFlow (v w : VarId) (s : State) : (addFlow v w).Lawful J Q s := by
  refine Script.lawful_pointer trivial fun i s₁ _ hi => ?_
  refine Script.lawful_pointer trivial fun j s₂ hext hj => ?_
  exact ⟨⟨_, hext.isPointer hi⟩, ⟨_, hj⟩, hQ _⟩

theorem lawful_mockEntries (p : Program) (s : State) : (mockEntries p).Lawful J Q s := by
  change (s.calls.entries.toList.forM fun m => mockArguments p (s.elements.method m)).Lawful J Q s
  generalize s.calls.entries.toList = entries
  -- the methods are those of the state in which the arguments are mocked
  generalize s.elements = elements
  induction entries generalizing s with
  | nil => exact hQ s
  | cons m entries ih =>
      exact Script.Lawful.bind (lawful_mockArguments (fun t => ih t) p _ s)

end Extension

/-- The stock extensions are lawful. They keep no identifiers. -/
theorem Extension.react_lawful (a : Analysis) (p : Program) (o : Options) :
    (react p o).Lawful a fun _ _ => True where
  mono _ _ _ _ _ := trivial
  answers {n e s} _ _ _ := by
    unfold react
    split
    · exact (lawful_mockEntries (fun _ => trivial) p s).bind
    · trivial
    · exact ⟨trivial, trivial⟩
    · exact (lawful_injectResult (fun _ => trivial) _ _ _ _ s).bind
    · exact (lawful_injectMock (fun _ => trivial) _ _ _ _ s).bind
    · exact (lawful_injectMock (fun _ => trivial) _ _ _ _ s).bind
    · exact (lawful_addFlow (fun _ => trivial) _ _ s).bind
    · trivial

/-! ## Injection joins the fixpoint -/

/-- Whatever lawful extensions add to a run of a loaded program takes part in it. If the run gives a
result, then beside each extension stands a record of what it has added until the fixpoint, and in the
result each injected set is among the objects of its pointer, and each flow edge carries the objects of
its source to its target. The result is closed under the rules of the program, with a name for every
object and a method for every static call. What is added when the run is over changes neither the call
graph nor the objects of pointers. -/
theorem Analysis.injection_joins {d : ProgramDef} {p : Program} (hp : (Program.build d).1 = .ok p)
    {o : Options} {sel : Selector} {react : Reaction π} {I : π → State → Prop}
    (h : react.Lawful ⟨p, o, sel, .allocationSite⟩ I) {es : List π} (hes : ∀ e ∈ es, I e .initial)
    {r : Solution} (hr : (solve ⟨p, o, sel, .allocationSite⟩ react es).result = .ok r) :
    ∃ entry k, entryMethod ⟨p, o, sel, .allocationSite⟩ = .ok entry ∧
      k = fixpoint ⟨p, o, sel, .allocationSite⟩ react.recorded entry (es.map fun e => (e, [])) ∧
      k.forget = fixpoint ⟨p, o, sel, .allocationSite⟩ react entry es ∧
      (finish ⟨p, o, sel, .allocationSite⟩ react k.forget).result = .ok r ∧
      (∀ e ∈ k.extensions, ∀ act ∈ e.2, act.Joined r.state) ∧
      Closed (Rule p sel r.state.heap.find? (Given p entry false)) r.Holds ∧
      (∀ x y, r.Holds (.pointsTo x y) → ∃ i, r.state.heap.find? y.object.origin = some i) ∧
      (∀ s call, (p.stmtAt s).kind = .invoke call → call.binding = .static →
        ∃ m, p.resolveCallee? none call = some m) ∧
      k.state.Extends r.state ∧ r.state.calls = k.state.calls ∧
      ∀ i, r.state.elements.pointsTo i = k.state.elements.pointsTo i := by
  have wf := Program.build_wellFormed hp
  -- the run is replayed with extensions that keep a record; forgetting the records gives the run itself
  obtain ⟨entry, hentry, hcheck, hdone, hfinish⟩ := solve_eq_ok _ _ hr
  have hforget := forget_fixpoint ⟨p, o, sel, .allocationSite⟩ react entry es
  rw [← hforget] at hdone hfinish
  have hes' : ∀ e ∈ es.map fun e => (e, []), Recorded I e .initial := by
    intro e he
    obtain ⟨e', he', rfl⟩ := List.mem_map.1 he
    exact ⟨hes e' he', List.forall_mem_nil _⟩
  obtain ⟨hfinished, hrecords, hreach⟩ := finished_fixpoint (a := ⟨p, o, sel, .allocationSite⟩) wf rfl
    h.recorded hes' hdone
  generalize hk : fixpoint _ react.recorded entry _ = k at *
  have hfound := found_of_finish hfinish
  obtain ⟨hcalls, hsets⟩ := Prod.mk.inj hfound
  have hpointsTo : ∀ i, r.state.elements.pointsTo i = k.state.elements.pointsTo i := congrFun hsets
  obtain ⟨hsound, hext⟩ := sound_of_finish h (k := k.forget) hfinished.sound
    (fun e he => by
      obtain ⟨e', he', rfl⟩ := List.mem_map.1 he
      exact (hrecords e' he').1) hfinish
  -- the finish adds nothing to the call graph or the sets, so facts of the fixpoint are facts of the
  -- result
  have hclosed := State.closed_of_found hfinished.sound hsound hext hfound
    (hfinished.closed wf fun _ hq => hq.elim)
  refine ⟨entry, k, hentry, hk.symm, hforget, hfinish, fun e he act hact => ?_, hclosed.given ?_,
    fun x y hxy => hsound.named hxy, fun s call hkind hstatic => resolved_of_check hcheck hkind ?_,
    hext, hcalls, hpointsTo⟩
  · have hjoined := hfinished.joined ((hrecords e he).2 act hact)
    cases act <;> simpa only [Act.Joined, hpointsTo] using hjoined
  · rintro q (_ | ⟨⟨⟩, -⟩ | ⟨⟨⟩, -⟩)
    exact (State.holds_iff_of_found hfinished.sound hsound hext hfound).2 hreach
  · rw [hstatic]
    rfl

/-- Additional objects for variables of the sample and for the results of its call, an additional flow
edge, and an object that comes when the run is over. -/
def Extension.sample : List Extension :=
  [.mainArgs, .injectAtStart ⟨1⟩ ⟨"start", .scalar (.object "A")⟩,
    .source "rest" ⟨"result", .scalar (.object "A")⟩, .flow ⟨1⟩ ⟨2⟩,
    .injectAtEnd ⟨1⟩ ⟨"end", .scalar (.object "A")⟩]

/-- The sample with stock extensions that add facts in the course of a run and at its end. -/
theorem Analysis.injection_joins_sample : ∃ p r entry k,
    (Program.build .sample).1 = .ok p ∧
    (Extension.react p ⟨.insensitive, none, true⟩).Lawful
      ⟨p, ⟨.insensitive, none, true⟩, .object 1, .allocationSite⟩ (fun _ _ => True) ∧
    (solve ⟨p, ⟨.insensitive, none, true⟩, .object 1, .allocationSite⟩
      (Extension.react p ⟨.insensitive, none, true⟩) Extension.sample).result = .ok r ∧
    k = fixpoint ⟨p, ⟨.insensitive, none, true⟩, .object 1, .allocationSite⟩
      (Extension.react p ⟨.insensitive, none, true⟩).recorded entry
      (Extension.sample.map fun e => (e, [])) ∧
    (∀ e ∈ k.extensions, ∀ act ∈ e.2, act.Joined r.state) ∧
    Closed (Rule p (.object 1) r.state.heap.find? (Given p entry false)) r.Holds := by
  obtain ⟨p, hp⟩ : ∃ p, (Program.build .sample).1 = .ok p := exists_ok_of_toBool (by decide +kernel)
  have hrun : (match (Program.build .sample).1 with
      | .ok p => (solve ⟨p, ⟨.insensitive, none, true⟩, .object 1, .allocationSite⟩
          (Extension.react p ⟨.insensitive, none, true⟩) Extension.sample).result.toBool
      | .error _ => false) = true := by decide +kernel
  rw [hp] at hrun
  obtain ⟨r, hr⟩ := exists_ok_of_toBool hrun
  have hlawful := Extension.react_lawful ⟨p, ⟨.insensitive, none, true⟩, .object 1, .allocationSite⟩
    p ⟨.insensitive, none, true⟩
  obtain ⟨entry, k, -, hk, -, -, hjoined, hclosed, -⟩ :=
    injection_joins hp hlawful (fun _ _ => trivial) hr
  exact ⟨p, r, entry, k, hp, hlawful, hr, hk, hjoined, hclosed⟩

end PointsTo
