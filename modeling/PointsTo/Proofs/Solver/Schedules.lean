import PointsTo.Proofs.Solver.Termination
import PointsTo.Proofs.Solver.Translation

/-! # Schedules

The solver takes pending methods and facts in the order in which they were found. A schedule takes them
in any order: it makes turns instead of steps, and tells the extensions of the start at any time. All
schedules end, and they end with the same facts, objects and unresolved calls. Only the names of the
objects depend on the schedule, because objects are numbered in the order in which they are met. So the
results are equal up to the renaming of objects that matches them by their origins.
-/

namespace PointsTo

/-! ## Objects in contexts -/

/-- All objects of the context are objects of the heap. -/
def Context.Within (h : Heap) (c : Context) : Prop :=
  ∀ i, Token.object i ∈ c → i.idx < h.objects.size

/-- The objects in the contexts of a place are objects of the heap. -/
def Place.Within (h : Heap) : Place → Prop
  | .var c _ => c.Within h
  | .staticField _ => True
  | .instanceField o _ => o.context.Within h
  | .arrayIndex o => o.context.Within h

/-- The objects in the contexts of a fact are objects of the heap. -/
def Fact.Within (h : Heap) : Fact → Prop
  | .reach m => m.context.Within h
  | .call _ site callee => site.context.Within h ∧ callee.context.Within h
  | .pointsTo x o => x.Within h ∧ o.context.Within h

section Within

variable {h : Heap} {p : Program} {sel : Selector}

theorem Context.Within.nil : Context.Within h [] := fun i hi => by cases hi

theorem Context.Within.lastK {c : Context} (hc : c.Within h) (k : Nat) : (c.lastK k).Within h :=
  fun i hi => hc i (mem_of_mem_lastK hi)

/-- Extending a context brings in the object of the new token at most. -/
theorem Context.Within.extend {c : Context} (hc : c.Within h) {x : Token}
    (hx : ∀ i, x = .object i → i.idx < h.objects.size) (k : Nat) : (c.extend x k).Within h := by
  intro i hi
  rcases mem_or_eq_of_mem_extend hi with hi | hi
  · exact hc i hi
  · exact hx i hi.symm

/-- Heap contexts bring in no object. -/
theorem Selector.heapContext_within {m : CsMethod} (hm : m.context.Within h) :
    (sel.heapContext m).Within h := by
  cases sel with
  | insensitive => exact .nil
  | _ => exact hm.lastK _

/-- Contexts of static calls bring in no object. -/
theorem Selector.calleeContext_within {site : CsCallSite} (hs : site.context.Within h) :
    (sel.calleeContext site).Within h := by
  cases sel with
  | insensitive => exact .nil
  | callSite k => exact hs.extend (fun _ => Token.noConfusion) k
  | _ => exact hs

/-- Contexts selected for receivers bring in the receiver at most. -/
theorem Selector.receiverContext_within {site : CsCallSite} {o : CsObject}
    (hs : site.context.Within h) (ho : o.context.Within h) (hi : o.object.idx < h.objects.size) :
    (sel.receiverContext site o).Within h := by
  cases sel with
  | insensitive => exact .nil
  | callSite k => exact hs.extend (fun _ => Token.noConfusion) k
  | object k =>
      refine ho.extend (fun i hx => ?_) k
      cases hx
      exact hi
  | type k => exact ho.extend (fun _ => Token.noConfusion) k

/-- The target of an inclusion has no objects in its contexts but those of the premises. -/
theorem Inclusion.within {ps : List Fact} {x y : Place} (hxy : Inclusion p ps x y)
    (hps : ∀ q ∈ ps, q.Within h) : y.Within h := by
  cases hxy with
  | copy | staticLoad => exact hps _ (List.mem_singleton_self _)
  | staticStore => trivial
  | @instanceStore c _ _ base _ _ o => exact (hps (.pointsTo (.var c base) o) (by simp)).2
  | @arrayStore c _ _ base _ o => exact (hps (.pointsTo (.var c base) o) (by simp)).2
  | @instanceLoad c m => exact hps (.reach ⟨c, m⟩) (by simp)
  | @arrayLoad c m => exact hps (.reach ⟨c, m⟩) (by simp)
  | argument => exact (hps _ (List.mem_singleton_self _)).2
  | result => exact (hps _ (List.mem_singleton_self _)).1

/-- No rule brings in an object that the heap does not name. -/
theorem Fact.closed_within {entry : MethodId} {mocked : Bool} :
    Closed (Rule p sel h.find? (Given p entry mocked)) (Fact.Within h) := by
  intro ps q rule hps
  -- The context of a callee is made of those of its caller and of the receiver.
  have hdispatch {caller s call base o callee}
      (hd : Dispatches p sel h.find? caller s call base o callee) (hc : caller.context.Within h)
      (ho : o.context.Within h) : callee.context.Within h := by
    obtain ⟨i, hi, hcontext⟩ := hd.context
    rw [hcontext]
    exact Selector.receiverContext_within hc ho (Heap.lt_of_find? hi)
  cases rule with
  | given hq =>
      cases hq with
      | entry => exact .nil
      | array => exact ⟨.nil, .nil⟩
      | element => exact ⟨.nil, .nil⟩
  | @new c m =>
      have hc := hps (.reach ⟨c, m⟩) (by simp)
      exact ⟨hc, Selector.heapContext_within (m := ⟨c, m⟩) hc⟩
  | @inclusion ps x y hxy o =>
      have ho := (hps (.pointsTo x o) (by simp)).2
      exact ⟨hxy.within fun q hq => hps q (List.mem_cons_of_mem _ hq), ho⟩
  | @staticCall c m s =>
      have hc := hps (.reach ⟨c, m⟩) (by simp)
      exact ⟨hc, Selector.calleeContext_within hc⟩
  | @dispatch caller s call base o callee hd =>
      obtain ⟨hc, ho⟩ := hps (.pointsTo (.var caller.context base) o) (by simp)
      exact ⟨hc, hdispatch hd hc ho⟩
  | @receiver caller s call base o callee b this hd =>
      obtain ⟨hc, ho⟩ := hps (.pointsTo (.var caller.context base) o) (by simp)
      exact ⟨hdispatch hd hc ho, ho⟩
  | @callee k site m => exact (hps (.call k site m) (by simp)).2

end Within

/-! ## States that are alike -/

/-- The second state has found the same as the first one, up to the names of objects, which are matched
by their origins. -/
structure State.Alike (s s' : State) : Prop where
  /-- The facts of the second state are those of the first one, renamed. -/
  holds : ∀ q', s'.Holds q' ↔ ∃ q, s.Holds q ∧ (Translation.rename id s.heap s'.heap).fact q = q'
  /-- Different facts stay different. -/
  injective : ∀ q₁ q₂, s.Holds q₁ → s.Holds q₂ →
    (Translation.rename id s.heap s'.heap).fact q₁ = (Translation.rename id s.heap s'.heap).fact q₂ →
      q₁ = q₂
  /-- The abstract objects are the same. -/
  heap : ∀ x, x ∈ s'.heap.objects ↔ x ∈ s.heap.objects
  /-- The objects in their heap contexts are the same, renamed. -/
  denotes : ∀ y', (∃ j, s'.Denotes j y') ↔
    ∃ i y, s.Denotes i y ∧ (Translation.rename id s.heap s'.heap).heapObject y = y'
  unresolved : ∀ c, c ∈ s'.unresolved ↔ c ∈ s.unresolved

section Alike

variable {h h' : Heap}

/-- Renaming a context there and back leaves it as it was. -/
theorem Context.renamed_renamed {c : Context} (hc : c.Within h)
    (hback : ∀ i : ObjectId, i.idx < h.objects.size → h'.renamed h id (h.renamed h' id i) = i) :
    (c.renamed id h h').renamed id h' h = c := by
  rw [renamed, renamed, List.map_map]
  refine (List.map_congr_left fun x hx => ?_).trans (List.map_id c)
  cases x with
  | object i =>
      show Token.object _ = Token.object i
      rw [hback i (hc i hx)]
  | _ => rfl

/-- Renaming there and back leaves everything as it was. -/
theorem Translation.rename_rename
    (hback : ∀ i : ObjectId, i.idx < h.objects.size → h'.renamed h id (h.renamed h' id i) = i) :
    (∀ {o : HeapObject}, o.context.Within h →
      (rename id h' h).heapObject ((rename id h h').heapObject o) = o) ∧
    ∀ {q : Fact}, q.Within h → (rename id h' h).fact ((rename id h h').fact q) = q := by
  -- contexts are the only part of a fact that is renamed, so one equation about them gives all the
  -- others
  have hcontext {c : Context} (hc : c.Within h) : (c.renamed id h h').renamed id h' h = c :=
    Context.renamed_renamed hc hback
  have hobject {o : HeapObject} (ho : o.context.Within h) :
      (rename id h' h).heapObject ((rename id h h').heapObject o) = o := by
    rw [heapObject, heapObject, object_of_id rfl, object_of_id rfl]
    exact congrArg (HeapObject.mk · o.object) (hcontext ho)
  refine ⟨hobject, fun {q} hq => ?_⟩
  cases q with
  | reach m => exact congrArg (Fact.reach ⟨·, m.method⟩) (hcontext hq)
  | call k site callee =>
      have hsite := hcontext hq.1
      have hcallee := hcontext hq.2
      simp only [fact, callSite, method, rename, hsite, hcallee, id]
  | pointsTo x o =>
      rw [fact, fact, hobject hq.2]
      congr 1
      cases x with
      | var c v => exact congrArg (Place.var · v) (hcontext hq.1)
      | staticField f => rfl
      | instanceField o f => exact congrArg (Place.instanceField · f) (hobject hq.1)
      | arrayIndex o => exact congrArg Place.arrayIndex (hobject hq.1)

variable {a a' : Analysis} {wf : a.program.WellFormed} {wf' : a'.program.WellFormed}
  {entry : MethodId} {s s' : State}

/-- The objects in the contexts of what a sound state has found are objects of its heap. -/
theorem Sound.within (hs : Sound (a.theory wf entry) s) {q : Fact} (hq : s.Holds q) :
    q.Within s.heap :=
  Derivable.least Fact.closed_within (hs.admits hq)

/-- Objects of a sound state have contexts within its heap. -/
theorem Sound.within_denotes (hs : Sound (a.theory wf entry) s) {i : CsObjectId} {y : HeapObject}
    (hy : s.Denotes i y) : y.context.Within s.heap := by
  obtain ⟨id, hi, -⟩ := hy
  obtain ⟨x, -, -, z, hz⟩ := hs.object i _ hi
  exact (Derivable.least Fact.closed_within hz).2

/-- If translations go there and back, then so do the names of objects. -/
theorem Translates.renamed_renamed
    (h : Translates (.rename id s.heap s'.heap) s s') (hs : s.heap.Distinct) (hs' : s'.heap.Distinct)
    {i : ObjectId} (hi : i.idx < s.heap.objects.size) :
    s'.heap.renamed s.heap id (s.heap.renamed s'.heap id i) = i := by
  have hx := Array.getElem?_eq_getElem hi
  have hx' := h.getElem?_renamed hs' hx
  rw [Translation.object_of_id rfl] at hx'
  refine Heap.renamed_of_find? (hs'.find? hx') ?_
  rw [Translation.origin_of_id rfl]
  exact hs.find? hx

/-- Two states each of which has found what the other one has found are alike. -/
theorem Translates.alike (h : Translates (.rename id s.heap s'.heap) s s')
    (h' : Translates (.rename id s'.heap s.heap) s' s) (hs : Sound (a.theory wf entry) s)
    (hs' : Sound (a'.theory wf' entry) s') : s.Alike s' := by
  obtain ⟨hobject, hfact⟩ := Translation.rename_rename fun i hi =>
    h.renamed_renamed hs.distinct hs'.distinct hi
  obtain ⟨hobject', hfact'⟩ := Translation.rename_rename fun i hi =>
    h'.renamed_renamed hs'.distinct hs.distinct hi
  have hmem {s s' : State} (h : Translates (.rename id s.heap s'.heap) s s') {x : Object}
      (hx : x ∈ s.heap.objects) : x ∈ s'.heap.objects := by
    obtain ⟨i, hi⟩ := Array.mem_iff_getElem?.1 hx
    obtain ⟨j, hj⟩ := h.heap hi
    rw [Translation.object_of_id rfl] at hj
    exact Array.mem_of_getElem? hj
  refine ⟨fun q' => ⟨fun hq' => ?_, ?_⟩, fun q₁ q₂ h₁ h₂ heq => ?_, fun x => ⟨hmem h', hmem h⟩,
    fun y' => ⟨?_, ?_⟩, fun c => ⟨h'.unresolved c, h.unresolved c⟩⟩
  · exact ⟨_, h'.holds hq', hfact' (hs'.within hq')⟩
  · rintro ⟨q, hq, rfl⟩
    exact h.holds hq
  · rw [← hfact (hs.within h₁), heq, hfact (hs.within h₂)]
  · rintro ⟨j, hj⟩
    obtain ⟨i, hi⟩ := h'.denotes hj
    exact ⟨i, _, hi, hobject' (hs'.within_denotes hj)⟩
  · rintro ⟨i, y, hy, rfl⟩
    exact h.denotes hy

end Alike

/-! ## Schedules -/

section Schedules

variable {a : Analysis} {wf : a.program.WellFormed} {entry : MethodId} {k k' : Machine Extension}
  {n : Nat} {started : Bool}

/-- The machines to which schedules come, with the number of turns that were made, and whether the
extensions were told of the start. -/
inductive Analysis.Schedule (a : Analysis) (entry : MethodId) :
    Nat → Bool → Machine Extension → Prop where
  | start {s : State} (h : State.initial.Agrees s) :
      Schedule a entry 0 false ⟨start entry s, a.options.stock⟩
  | turn {n : Nat} {started : Bool} {k k' : Machine Extension} (h : Schedule a entry n started k)
      (turn : a.Turn (Extension.react a.program a.options) k k') : Schedule a entry (n + 1) started k'
  | notify {n : Nat} {k : Machine Extension} (h : Schedule a entry n false k) :
      Schedule a entry n true (k.notify (Extension.react a.program a.options) .started)

/-- A turn of a running machine makes progress. -/
theorem Analysis.Running.turn (hmodel : a.heapModel = .allocationSite)
    (hentry : entry.idx < a.program.methods.size) (h : a.Running wf entry k)
    (hturn : a.Turn (Extension.react a.program a.options) k k') :
    a.Running wf entry k' ∧ StepTo (a.theory wf entry) k.state k'.state ∧
      k'.state.potential a.program a.selector.bound < k.state.potential a.program a.selector.bound := by
  obtain ⟨hext, hstep⟩ := hturn.stepTo wf hmodel h.started.sound (h.quiet.tame _) rfl
  refine ⟨⟨hext.trans h.extensions, h.started.steps (.single hstep)⟩, hstep, ?_⟩
  refine (hstep.potential_lt_or_idle hentry h.started.sound).resolve_right ?_
  rintro ⟨-, hpending, hwork⟩
  cases hturn with
  | visit pending => simp [hpending] at pending
  | absorb work => simp [hwork] at work

/-- What holds of every machine of a schedule: it is running, and each turn has used up some of the
work that there was at the start. Once the extensions were told of the start, the mock arguments are
there or on their way. -/
structure Analysis.Scheduled (a : Analysis) (wf : a.program.WellFormed) (entry : MethodId) (n : Nat)
    (started : Bool) (k : Machine Extension) : Prop where
  running : a.Running wf entry k
  spent : n + k.state.potential a.program a.selector.bound + (if started then 1 else 3) ≤
    2 ^ a.budget
  mocks : started = true → a.options.mockMainArgs = true → k.state.Mocks a.program entry

variable (wf) in
theorem Analysis.Schedule.scheduled (hmodel : a.heapModel = .allocationSite)
    (hentry : entry.idx < a.program.methods.size) (h : a.Schedule entry n started k) :
    a.Scheduled wf entry n started k := by
  -- by induction on the schedule, whatever it takes and in whatever order it goes through its work
  induction h with
  | start hs =>
      obtain ⟨hwork, hpending⟩ := size_start hs entry
      have hbudget : _ + 3 ≤ 2 ^ a.budget :=
        State.potential_lt_budget (p := a.program) (k := a.selector.bound) hwork hpending
      exact ⟨(Passes.start hs).running wf hmodel, by simpa using hbudget, Bool.noConfusion⟩
  | @turn n started k k' _ hturn ih =>
      obtain ⟨hrunning, hstep, hless⟩ := ih.running.turn hmodel hentry hturn
      have hspent := ih.spent
      exact ⟨hrunning, by omega, fun hs hm => (ih.mocks hs hm).mono hstep.extends⟩
  | @notify n k _ ih =>
      obtain ⟨hrunning, hmoves⟩ := ih.running.notify
      have hle := hmoves.potential_le hentry ih.running.started.sound
      have hspent := ih.spent
      obtain ⟨t, ht, -, hmocks⟩ := a.notify_started ih.running.started ih.running.extensions
      refine ⟨hrunning, ?_, fun _ hm => ?_⟩
      · simp only [if_true, Bool.false_eq_true, if_false] at hspent ⊢
        omega
      · rw [ht]
        exact hmocks hm

/-- At the end of a schedule the state is finished and has the given facts. -/
theorem Analysis.Scheduled.finished (h : a.Scheduled wf entry n true k) (hdone : isDone k = true) :
    Finished (a.theory wf entry) k.state ∧
      ∀ q, Given a.program entry a.options.mockMainArgs q → k.state.Holds q := by
  obtain ⟨hpending, hwork⟩ := isDone_iff.1 hdone
  have hfinished : Finished (a.theory wf entry) k.state :=
    ⟨h.running.started.sound, h.running.started.saturated, hpending, hwork⟩
  obtain ⟨i, -, hi, hmem⟩ := h.running.started.entries
  exact ⟨hfinished, hfinished.given ⟨i, hi, hmem⟩ (h.mocks rfl)⟩

/-- A schedule can go on with steps of the solver until nothing is left to be done. -/
theorem Analysis.Schedule.steps (wf : a.program.WellFormed) (h : a.Schedule entry n started k)
    (m : Nat) : ∃ n', a.Schedule entry n' started
      (PointsTo.steps isDone (a.step (Extension.react a.program a.options)) m k) := by
  induction m generalizing n k with
  | zero => exact ⟨n, h⟩
  | succ m ih =>
      rw [PointsTo.steps]
      split
      · exact ⟨n, h⟩
      · rename_i hbusy
        refine ih (h.turn ((a.step_turn wf k).resolve_right ?_))
        rintro ⟨-, hpending, hwork⟩
        exact hbusy (isDone_iff.2 ⟨hpending, hwork⟩)

/-- Schedule independence. All schedules for a loaded program are finite; until nothing is left to be
done they can go on, for instance by a step of the solver; and they all end with the facts, objects and
unresolved calls of the result of the solver. -/
theorem Analysis.schedule_independent {d : ProgramDef} {p : Program}
    (hp : (Program.build d).1 = .ok p) {o : Options} {sel : Selector} {r : Solution}
    (hr : (solveWith ⟨p, o, sel, .allocationSite⟩ []).result = .ok r) :
    ∃ entry, entryMethod ⟨p, o, sel, .allocationSite⟩ = .ok entry ∧
      (∃ bound, ∀ n started k, Schedule ⟨p, o, sel, .allocationSite⟩ entry n started k →
        n ≤ bound ∧ (isDone k = false → Turn ⟨p, o, sel, .allocationSite⟩ (Extension.react p o) k
          (step ⟨p, o, sel, .allocationSite⟩ (Extension.react p o) k))) ∧
      ∀ n k, Schedule ⟨p, o, sel, .allocationSite⟩ entry n true k → isDone k = true →
        r.state.Alike k.state := by
  have wf := Program.build_wellFormed hp
  obtain ⟨entry, hentry, -, -, hfinished, hgiven⟩ :=
    finished_of_solveWith (a := ⟨p, o, sel, .allocationSite⟩) wf rfl hr
  have hlt := entryMethod_lt (a := ⟨p, o, sel, .allocationSite⟩) wf hentry
  refine ⟨entry, hentry, ⟨2 ^ budget ⟨p, o, sel, .allocationSite⟩, fun n started k hk => ⟨?_, ?_⟩⟩,
    fun n k hk hdone => ?_⟩
  -- a schedule has made no more turns than there was work at the start
  · have hspent := (hk.scheduled wf rfl hlt).spent
    omega
  · intro hbusy
    refine (step_turn (a := ⟨p, o, sel, .allocationSite⟩) wf k).resolve_right ?_
    rintro ⟨-, hpending, hwork⟩
    rw [isDone_iff.2 ⟨hpending, hwork⟩] at hbusy
    cases hbusy
  · -- both states are finished, so each of them has found what the other one has found
    obtain ⟨hfinished', hgiven'⟩ := (hk.scheduled wf rfl hlt).finished hdone
    have hthere := hfinished.translates hfinished' hgiven' rfl
      (.refl (t := .rename id r.state.heap k.state.heap) rfl p) (Translation.rename_selectors _ _ _ _)
    have hback := hfinished'.translates hfinished hgiven rfl
      (.refl (t := .rename id k.state.heap r.state.heap) rfl p) (Translation.rename_selectors _ _ _ _)
    exact hthere.alike hback hfinished.sound hfinished'.sound

/-- The sample has a schedule in which the arguments of the entry method are mocked before any method is
visited. -/
theorem Analysis.schedule_independent_sample : ∃ p r entry n k,
    (Program.build .sample).1 = .ok p ∧
    (solveWith ⟨p, ⟨.insensitive, none, true⟩, .object 1, .allocationSite⟩ []).result = .ok r ∧
    Schedule ⟨p, ⟨.insensitive, none, true⟩, .object 1, .allocationSite⟩ entry 0 true
      (Machine.notify (Extension.react p ⟨.insensitive, none, true⟩) .started
        ⟨start entry .initial, [.mainArgs]⟩) ∧
    Schedule ⟨p, ⟨.insensitive, none, true⟩, .object 1, .allocationSite⟩ entry n true k ∧
    isDone k = true ∧ r.state.Alike k.state := by
  obtain ⟨p, r, hp, hr⟩ := ProgramDef.sample_solved true
  have wf := Program.build_wellFormed hp
  obtain ⟨entry, hentry, -, halike⟩ := schedule_independent hp hr
  have hfirst : Schedule ⟨p, ⟨.insensitive, none, true⟩, .object 1, .allocationSite⟩ entry 0 true _ :=
    .notify (.start (State.Agrees.refl .initial))
  have hlt := entryMethod_lt wf hentry
  obtain ⟨m, hdone⟩ := (descends rfl hlt isDone_of_idle).exists_steps_done
    (hfirst.scheduled wf rfl hlt).running
  obtain ⟨n, hlast⟩ := hfirst.steps wf m
  exact ⟨p, r, entry, n, _, hp, hr, hfirst, hlast, hdone, halike n _ hlast hdone⟩

end Schedules

end PointsTo
