import PointsTo.Proofs.Program.Rearrangement
import PointsTo.Proofs.Solver.Truncation

/-! # The order of statements does not matter

The analysis is flow-insensitive. If the statements of a definition are rearranged within their bodies,
then statements, objects and contexts have other names and are met in another order; but the rules for
the program are the same, up to the places of its statements. So each of the two runs finds what the
other one finds, with statements moved.
-/

namespace PointsTo

namespace Program

/-! ## Moved statements -/

/-- The second statement stands where the first one is moved to. -/
structure Moved (σ : Nat → Equiv.Perm Nat) (p p' : Program) (s s' : StmtId) : Prop where
  left : s.idx < p.stmts.size
  right : s'.idx < p'.stmts.size
  method : (p'.stmtAt s').method = (p.stmtAt s).method
  index : (p'.stmtAt s').index = σ (p.stmtAt s).method.idx (p.stmtAt s).index

/-- Moving back is moving by the inverse permutations. -/
theorem Moved.symm {σ : Nat → Equiv.Perm Nat} {p p' : Program} {s s' : StmtId}
    (h : Moved σ p p' s s') : Moved (fun m => (σ m).symm) p' p s' s :=
  ⟨h.right, h.left, h.method.symm, by rw [h.method, h.index, Equiv.symm_apply_apply]⟩

/-- A statement of the table is the one at its index. -/
theorem stmtAt_of_getElem? {p : Program} {s : StmtId} {x : Stmt} (h : p.stmts[s.idx]? = some x) :
    p.stmtAt s = x := by
  rw [stmtAt, Array.getD_eq_getD_getElem?, h, Option.getD_some]

/-- The statement of the same method to whose index a statement is moved. -/
def move (p : Program) (σ : Nat → Equiv.Perm Nat) (s : StmtId) : StmtId :=
  if s.idx < p.stmts.size then
    (p.stmtsOf (p.stmtAt s).method)[σ (p.stmtAt s).method.idx (p.stmtAt s).index]?.getD s
  else s

section Moves

variable {σ : Nat → Equiv.Perm Nat} {n : Nat} {p p' : Program} (h : Rearranged σ n p p')

include h

/-- Methods have the same statements, up to their order. -/
theorem Rearranged.stmtsOf (m : MethodId) : p'.stmtsOf m = p.stmtsOf m := by
  have hbody := h.body m
  rw [Program.stmtsOf, Program.stmtsOf]
  generalize (p.methodAt m).body? = b at hbody ⊢
  generalize (p'.methodAt m).body? = b' at hbody ⊢
  cases hbody with
  | none => rfl
  | some hb => exact hb.stmts

/-- A statement stands in its body at its index, and in the rearranged program at the index to which it
is moved. -/
theorem Rearranged.stmt (wf : p.WellFormed) {s : StmtId} (hs : s.idx < p.stmts.size) :
    (p.stmtsOf (p.stmtAt s).method)[(p.stmtAt s).index]? = some s ∧
      ∃ s', (p.stmtsOf (p.stmtAt s).method)[σ (p.stmtAt s).method.idx (p.stmtAt s).index]? = some s' ∧
        p'.stmts[s'.idx]? = some ⟨(p.stmtAt s).method,
          σ (p.stmtAt s).method.idx (p.stmtAt s).index, (p.stmtAt s).kind⟩ := by
  obtain ⟨i, hi⟩ := List.mem_iff_getElem?.1 (wf.mem_stmtsOf_iff.2 ⟨hs, rfl⟩)
  have hbody := h.body (p.stmtAt s).method
  generalize hm : (p.stmtAt s).method = m at *
  rw [Program.stmtsOf] at hi ⊢
  generalize (p.methodAt m).body? = b at hbody hi ⊢
  generalize (p'.methodAt m).body? = b' at hbody
  cases hbody with
  | none => simp at hi
  | some hb =>
      obtain ⟨kind, s', hkind, hs', hkind'⟩ := hb.stmt i s hi
      rw [stmtAt_of_getElem? hkind]
      exact ⟨hi, s', hs', hkind'⟩

/-- A statement stands where it is moved to, and is of the same kind there. -/
theorem Rearranged.moved_move (wf : p.WellFormed) {s : StmtId} (hs : s.idx < p.stmts.size) :
    Moved σ p p' s (p.move σ s) ∧ (p'.stmtAt (p.move σ s)).kind = (p.stmtAt s).kind := by
  obtain ⟨-, s', hs', hstmt⟩ := h.stmt wf hs
  have hmove : p.move σ s = s' := by
    rw [move, if_pos hs, hs']
    rfl
  have hat := stmtAt_of_getElem? hstmt
  rw [hmove]
  exact ⟨⟨hs, (Array.getElem?_eq_some_iff.1 hstmt).1, by rw [hat], by rw [hat]⟩, by rw [hat]⟩

/-- A statement is moved to one place only. -/
theorem Rearranged.eq_move {τ : Nat → Equiv.Perm Nat} {k : Nat} (h' : Rearranged τ k p' p)
    (wf' : p'.WellFormed) {s s' : StmtId} (hs : Moved σ p p' s s') : s' = p.move σ s := by
  obtain ⟨hat, -⟩ := h'.stmt wf' hs.right
  rw [hs.method, hs.index, h.stmtsOf] at hat
  rw [move, if_pos hs.left, hat]
  rfl

/-- The parameter that is mocked is the same. -/
theorem Rearranged.mainArgument? (m : MethodId) : p'.mainArgument? m = p.mainArgument? m := by
  have htype (v : VarId) : (p'.varAt v).type = (p.varAt v).type := congrArg (·.type) (h.var v)
  have hbody := h.body m
  rw [Program.mainArgument?, Program.mainArgument?]
  simp only [htype]
  generalize (p.methodAt m).body? = b at hbody ⊢
  generalize (p'.methodAt m).body? = b' at hbody ⊢
  cases hbody with
  | none => rfl
  | some hb => simp only [Option.bind_some, hb.params]

/-- The rearranged program has the same rules, with statements moved. -/
theorem Rearranged.programs (wf : p.WellFormed) (wf' : p'.WellFormed) {t : Translation}
    (ht : t.stmt = p.move σ) : t.Programs p p' := by
  -- what is not a statement of the one program is not one of the other one
  have hnone {s : StmtId} (hs : ¬s.idx < p.stmts.size) :
      p'.stmtAt (t.stmt s) = p.stmtAt s := by
    rw [ht, move, if_neg hs, stmtAt_of_le (Nat.le_of_not_lt hs), stmtAt_of_le]
    rw [h.size_stmts]
    exact Nat.le_of_not_lt hs
  refine ⟨fun {m s} hs => ?_, fun s => ?_, fun s => ?_, fun m => (h.alike.header m).1,
    fun {m b} hb => ?_, h.mainArgument?, h.alike.resolveCallee?⟩
  · obtain ⟨hlt, rfl⟩ := wf.mem_stmtsOf_iff.1 hs
    obtain ⟨hmoved, -⟩ := h.moved_move wf hlt
    rw [ht]
    exact wf'.mem_stmtsOf_iff.2 ⟨hmoved.right, hmoved.method⟩
  · by_cases hs : s.idx < p.stmts.size
    · rw [ht, (h.moved_move wf hs).2]
    · rw [hnone hs]
  · by_cases hs : s.idx < p.stmts.size
    · rw [ht, (h.moved_move wf hs).1.method]
    · rw [hnone hs]
  · have hbody := h.body m
    rw [hb] at hbody
    cases hbody' : (p'.methodAt m).body? with
    | none =>
        rw [hbody'] at hbody
        cases hbody
    | some b' =>
        rw [hbody'] at hbody
        cases hbody with
        | some hmatches => exact ⟨b', rfl, hmatches.this, hmatches.params⟩

end Moves

end Program

/-! ## Runs -/

namespace Program

section Runs

variable {σ : Nat → Equiv.Perm Nat} {n : Nat} {p p' : Program}

/-- The runs start from the same method. -/
theorem Rearranged.entryMethod (h : Rearranged σ n p p') (hentry : p'.entry? = p.entry?) (o : Options)
    (sel : Selector) (model : HeapModel) :
    Analysis.entryMethod ⟨p', o, sel, model⟩ = Analysis.entryMethod ⟨p, o, sel, model⟩ := by
  simp only [Analysis.entryMethod, h.alike.findMethod?, hentry]

/-- If every static call of the rearranged program has a method, then so does every one of the program.
-/
theorem Rearranged.checkStaticCalls (h : Rearranged σ n p p') (wf : p.WellFormed)
    (wf' : p'.WellFormed) {o : Options} {sel : Selector} {model : HeapModel}
    (hcheck : Analysis.checkStaticCalls ⟨p', o, sel, model⟩ = .ok ()) :
    Analysis.checkStaticCalls ⟨p, o, sel, model⟩ = .ok () := by
  have hp := h.programs wf wf' (t := ⟨p.move σ, id, id⟩) rfl
  rw [Analysis.checkStaticCalls_ok_iff] at hcheck ⊢
  intro s call hkind hbound
  rw [← hp.resolve]
  exact hcheck (p.move σ s) call ((hp.kind s).trans hkind) hbound

end Runs

end Program

/-! ## Answers -/

/-- The statement that an object comes from, unless it is a mock object. -/
def Origin.site? : Origin → Option StmtId
  | .site s => some s
  | .mock _ => none

/-- The variables of a name in a method, which is given by its reference. -/
def Program.varsNamed (p : Program) (method : MethodRef) (name : String) : List VarId :=
  p.varIds.filter fun v => (p.methodAt (p.varAt v).method).ref = method ∧ (p.varAt v).name = name

namespace Solution

/-- The statements that allocate the objects of a list. -/
def sites (r : Solution) (os : List ObjectId) : List StmtId :=
  os.filterMap fun i => (r.state.heap.get i).origin.site?

/-- The statements that allocate the objects that a variable may point to, which is given by its method
and its name. -/
def sitesOfVar (r : Solution) (method : MethodRef) (name : String) : List StmtId :=
  (r.program.varsNamed method name).flatMap fun v => r.sites (r.pointsToVar v)

/-- The statements that allocate the objects that a static field may point to. -/
def sitesOfStaticField (r : Solution) (f : FieldId) : List StmtId :=
  r.sites (r.pointsToStaticField f)

/-- The sites of objects are the statements among their origins. -/
theorem mem_sites {r : Solution} {os : List ObjectId} {s : StmtId} :
    s ∈ r.sites os ↔ ∃ i ∈ os, (r.state.heap.get i).origin = .site s := by
  have hsite (o : Origin) : o.site? = some s ↔ o = .site s := by
    cases o <;> simp [Origin.site?]
  simp only [sites, List.mem_filterMap, hsite]

/-- The two results give the same answers to queries, with statements moved. -/
structure SameAnswers (σ : Nat → Equiv.Perm Nat) (r r' : Solution) : Prop where
  reachable : r'.reachableMethods = r.reachableMethods
  callees : ∀ s s', Program.Moved σ r.program r'.program s s' → r'.calleesOf s' = r.calleesOf s
  var : ∀ method name s s', Program.Moved σ r.program r'.program s s' →
    (s' ∈ r'.sitesOfVar method name ↔ s ∈ r.sitesOfVar method name)
  staticField : ∀ f s s', Program.Moved σ r.program r'.program s s' →
    (s' ∈ r'.sitesOfStaticField f ↔ s ∈ r.sitesOfStaticField f)

end Solution

/-- The two programs have the same methods and fields, and the same statements up to their places. -/
structure Program.SameParts (σ : Nat → Equiv.Perm Nat) (p p' : Program) : Prop where
  ref : ∀ m, (p'.methodAt m).ref = (p.methodAt m).ref
  fields : p'.fields = p.fields
  moved : ∀ s, s.idx < p.stmts.size → ∃! s', Moved σ p p' s s'
  moved' : ∀ s', s'.idx < p'.stmts.size → ∃! s, Moved σ p p' s s'
  kind : ∀ s s', Moved σ p p' s s' → (p'.stmtAt s').kind = (p.stmtAt s).kind

/-- Sets of methods are listed by their indices, so those with the same members are the same list. -/
theorem Program.methodSet_eq {p p' : Program} {ms ms' : List MethodId}
    (hsize : p'.methods.size = p.methods.size)
    (h : ∀ m, m ∈ p'.methodSet ms' ↔ m ∈ p.methodSet ms) : p'.methodSet ms' = p.methodSet ms := by
  have hids : p'.methodIds = p.methodIds := by rw [methodIds, methodIds, hsize]
  rw [methodSet, methodSet, hids]
  refine List.filter_congr fun m hm => ?_
  have hiff := h m
  rw [methodSet, methodSet, hids, List.mem_filter, List.mem_filter] at hiff
  simpa [hm] using hiff

/-- The answers of the first result are among those of the second one, with statements moved. -/
structure Solution.AnswersWithin (move : StmtId → StmtId) (r r' : Solution) : Prop where
  reachable : r.reachableMethods ⊆ r'.reachableMethods
  callees : ∀ s, r.calleesOf s ⊆ r'.calleesOf (move s)
  var : ∀ method name s, s ∈ r.sitesOfVar method name → move s ∈ r'.sitesOfVar method name
  staticField : ∀ f s, s ∈ r.sitesOfStaticField f → move s ∈ r'.sitesOfStaticField f

/-- Two results with answers within each other give the same answers. -/
theorem Solution.AnswersWithin.same {there back : StmtId → StmtId} {r r' : Solution}
    {σ : Nat → Equiv.Perm Nat} (h : r.AnswersWithin there r') (h' : r'.AnswersWithin back r)
    (hsize : r'.program.methods.size = r.program.methods.size)
    (hmoved : ∀ s s', Program.Moved σ r.program r'.program s s' → s' = there s ∧ s = back s') :
    r.SameAnswers σ r' where
  reachable := Program.methodSet_eq hsize fun m => ⟨fun hm => h'.reachable hm, fun hm => h.reachable hm⟩
  callees s s' hs := by
    obtain ⟨hthere, hback⟩ := hmoved s s' hs
    -- Each inclusion comes from one of the two results, after the statement was moved.
    refine Program.methodSet_eq hsize fun m => ⟨fun hm => ?_, fun hm => ?_⟩
    · have hcallee := h'.callees s' hm
      rwa [← hback] at hcallee
    · have hcallee := h.callees s hm
      rwa [← hthere] at hcallee
  var method name s s' hs := by
    obtain ⟨hthere, hback⟩ := hmoved s s' hs
    refine ⟨fun hmem => ?_, fun hmem => ?_⟩
    · rw [hback]
      exact h'.var method name s' hmem
    · rw [hthere]
      exact h.var method name s hmem
  staticField f s s' hs := by
    obtain ⟨hthere, hback⟩ := hmoved s s' hs
    refine ⟨fun hmem => ?_, fun hmem => ?_⟩
    · rw [hback]
      exact h'.staticField f s' hmem
    · rw [hthere]
      exact h.staticField f s hmem

namespace Program.Rearranged

variable {σ : Nat → Equiv.Perm Nat} {n : Nat} {p p' : Program}

/-- Variables have the same names and methods. -/
theorem varsNamed (h : Rearranged σ n p p') (method : MethodRef) (name : String) :
    p'.varsNamed method name = p.varsNamed method name := by
  rw [Program.varsNamed, Program.varsNamed, varIds, varIds, h.size_vars]
  refine List.filter_congr fun v _ => ?_
  have hmethod : (p'.varAt v).method = (p.varAt v).method := congrArg (·.method) (h.var v)
  have hname : (p'.varAt v).name = (p.varAt v).name := congrArg (·.name) (h.var v)
  rw [hmethod, hname, (h.alike.header _).2.1]

/-- What is found in a program is found in the rearranged one. -/
theorem answersWithin (h : Rearranged σ n p p') (wf : p.WellFormed) (wf' : p'.WellFormed)
    (hentry : p'.entry? = p.entry?) {o : Options} {r r' : Solution}
    (hr : (p.analyse o).result = .ok r) (hr' : (p'.analyse o).result = .ok r') :
    r.AnswersWithin (p.move σ) r' := by
  obtain ⟨entry, he, -, hprogram, hfinished, -⟩ :=
    Analysis.finished_of_solveWith (a := ⟨p, o, o.selector, .allocationSite⟩) wf rfl hr
  obtain ⟨entry', he', -, hprogram', hfinished', hgiven'⟩ :=
    Analysis.finished_of_solveWith (a := ⟨p', o, o.selector, .allocationSite⟩) wf' rfl hr'
  rw [h.entryMethod hentry] at he'
  obtain rfl : entry' = entry := Except.ok.inj (he'.symm.trans he)
  have ht : Translates (.rename (p.move σ) r.state.heap r'.state.heap) r.state r'.state :=
    hfinished.translates hfinished' hgiven' rfl (h.programs wf wf' rfl)
      (Translation.rename_selectors _ _ _ _)
  have hsize : r'.program.methods.size = r.program.methods.size := by
    rw [hprogram, hprogram']
    exact h.alike.size_methods
  have hvars : r'.program.varsNamed = r.program.varsNamed := by
    rw [hprogram, hprogram']
    funext method name
    exact h.varsNamed method name
  -- objects of a statement become objects of the statement that it is moved to
  have hsites {os os' : List ObjectId} (hos : ∀ i ∈ os, ∃ i' ∈ os', r'.state.heap.get i' =
      (Translation.rename (p.move σ) r.state.heap r'.state.heap).object (r.state.heap.get i))
      {s : StmtId} (hs : s ∈ r.sites os) : p.move σ s ∈ r'.sites os' := by
    obtain ⟨i, hi, horigin⟩ := Solution.mem_sites.1 hs
    obtain ⟨i', hi', hobject⟩ := hos i hi
    refine Solution.mem_sites.2 ⟨i', hi', ?_⟩
    rw [hobject, Translation.object, horigin]
    rfl
  refine ⟨fun m => ht.mem_reachableMethods hsize, fun s m => ht.mem_calleesOf hsize,
    fun method name s hs => ?_, fun f s => ?_⟩
  · obtain ⟨v, hv, hs⟩ := List.mem_flatMap.1 hs
    rw [← hvars] at hv
    exact List.mem_flatMap.2 ⟨v, hv,
      hsites (fun i => ht.mem_pointsToVar hfinished.sound hfinished'.sound) hs⟩
  · exact hsites fun i => ht.mem_pointsToStaticField hfinished.sound hfinished'.sound

end Program.Rearranged

/-! ## Rearranged definitions -/

section Main

variable {σ : Nat → Equiv.Perm Nat} {n k : Nat} {p p' : Program}

/-- The two programs have the same parts. -/
theorem Program.Rearranged.sameParts (h : Rearranged σ n p p')
    (h' : Rearranged (fun m => (σ m).symm) k p' p) (wf : p.WellFormed) (wf' : p'.WellFormed) :
    SameParts σ p p' where
  ref m := (h.alike.header m).2.1
  fields := h.alike.fields
  moved s hs := ⟨p.move σ s, (h.moved_move wf hs).1, fun s' hs' => h.eq_move h' wf' hs'⟩
  moved' s' hs' := ⟨p'.move _ s', (h'.moved_move wf' hs').1.symm, fun s hs => h'.eq_move h wf hs.symm⟩
  kind s s' hs := by rw [h.eq_move h' wf' hs, (h.moved_move wf hs.left).2]

/-- The result of an analysis is one for the program that was analysed. -/
theorem Program.analyse_program (wf : p.WellFormed) {o : Options} {r : Solution}
    (hr : (p.analyse o).result = .ok r) : r.program = p := by
  obtain ⟨_, _, _, hprogram, _⟩ :=
    Analysis.finished_of_solveWith (a := ⟨p, o, o.selector, .allocationSite⟩) wf rfl hr
  exact hprogram

/-- Flow insensitivity. If the statements of a definition are rearranged within their bodies, then it is
accepted as before, and runs without further extensions give results as before; these have the same
reachable methods, the same callees of each call, and the same allocations for each variable and each
static field, with statements moved. -/
theorem Program.analyse_flowInsensitive {d d' : ProgramDef} (h : d.Rearranges σ d') :
    ((∃ p, (build d).1 = .ok p) ↔ ∃ p', (build d').1 = .ok p') ∧
    ∀ p p', (build d).1 = .ok p → (build d').1 = .ok p' → SameParts σ p p' ∧ ∀ o : Options,
      ((∃ r, (p.analyse o).result = .ok r) ↔ ∃ r', (p'.analyse o).result = .ok r') ∧
      ∀ r r', (p.analyse o).result = .ok r → (p'.analyse o).result = .ok r' →
        r.program = p ∧ r'.program = p' ∧ r.SameAnswers σ r' := by
  refine ⟨⟨fun ⟨p, hp⟩ => ?_, fun ⟨p', hp'⟩ => ?_⟩, fun p p' hp hp' => ?_⟩
  · obtain ⟨p', hp', -⟩ := build_rearranged h hp
    exact ⟨p', hp'⟩
  · obtain ⟨p, hp, -⟩ := build_rearranged h.symm hp'
    exact ⟨p, hp⟩
  have wf := build_wellFormed hp
  have wf' := build_wellFormed hp'
  -- both directions of the rearrangement are needed, as each gives one inclusion of the answers
  obtain ⟨q, hq, ⟨n, hthere⟩, hentry⟩ := build_rearranged h hp
  cases hq.symm.trans hp'
  obtain ⟨q, hq, ⟨k, hback⟩, -⟩ := build_rearranged h.symm hp'
  cases hq.symm.trans hp
  refine ⟨hthere.sameParts hback wf wf', fun o => ⟨?_, fun r r' hr hr' => ?_⟩⟩
  · rw [analyse_ok_iff wf, analyse_ok_iff wf', hthere.entryMethod hentry]
    exact and_congr_right fun _ =>
      ⟨hback.checkStaticCalls wf' wf, hthere.checkStaticCalls wf wf'⟩
  · have hprogram := analyse_program wf hr
    have hprogram' := analyse_program wf' hr'
    have hwithin := hthere.answersWithin wf wf' hentry hr hr'
    have hwithin' := hback.answersWithin wf' wf hentry.symm hr' hr
    refine ⟨hprogram, hprogram', hwithin.same hwithin' ?_ fun s s' hs => ?_⟩
    · rw [hprogram, hprogram']
      exact hthere.alike.size_methods
    · rw [hprogram, hprogram'] at hs
      exact ⟨hthere.eq_move hback wf' hs, hback.eq_move hthere wf hs.symm⟩

/-- The sample with its entry method turned around: the call comes first and the allocation last. -/
def ProgramDef.turnedSample : ProgramDef :=
  ⟨none, [⟨"A", none, [], false, false, [⟨"next", "LA;", false⟩], [
    ⟨"main", [⟨"args", "[LA;"⟩], "V", true, false, false, [⟨"x", "LA;"⟩, ⟨"y", "LA;"⟩], [
      .invoke .virtual (some "x") "LA;->rest()LA;" [] (some "y"),
      .loadArray "y" "args",
      .storeField (some "x") "LA;->next" "y",
      .storeField (some "x") "LA;->next" "x",
      .new "x" "LA;"]⟩,
    ⟨"rest", [], "LA;", false, false, false, [⟨"z", "LA;"⟩], [
      .loadField "z" (some "this") "LA;->next",
      .ret (some "z")]⟩]⟩]⟩

/-- In the entry method of the sample, the first and the last statement change places. -/
def turn (m : Nat) : Equiv.Perm Nat := if m = 0 then .swap 0 4 else .refl Nat

/-- The turned sample is the sample with two statements exchanged. -/
theorem ProgramDef.sample_rearranges : sample.Rearranges turn turnedSample where
  bare := rfl
  method i m m' hm hm' := by
    match i with
    | 0 =>
        cases hm
        cases hm'
        refine ⟨rfl, fun j => ?_⟩
        -- The first and the last statement change places, and no others are there to be moved.
        match j with
        | 0 | 1 | 2 | 3 | 4 => rfl
        | j + 5 =>
            have hstays : turn 0 (j + 5) = j + 5 := Equiv.swap_apply_of_ne_of_ne (by omega) (by omega)
            rw [hstays]
            rfl
    | 1 =>
        cases hm
        cases hm'
        exact ⟨rfl, fun j => rfl⟩
    | i + 2 => cases hm

/-- The sample and the turned sample give the same answers. -/
theorem Program.analyse_flowInsensitive_sample : ∃ p p' r r',
    (build .sample).1 = .ok p ∧ (build .turnedSample).1 = .ok p' ∧
    (p.analyse ⟨.object 1, none, false⟩).result = .ok r ∧
    (p'.analyse ⟨.object 1, none, false⟩).result = .ok r' ∧
    SameParts turn p p' ∧ r.SameAnswers turn r' := by
  obtain ⟨p, r₀, hp, hr₀⟩ := ProgramDef.sample_solved false
  have wf := build_wellFormed hp
  obtain ⟨entry, hentry, hcheck, -⟩ := Analysis.finished_of_solveWith wf rfl hr₀
  obtain ⟨r, hr⟩ := (analyse_ok_iff wf ⟨.object 1, none, false⟩).2 ⟨⟨entry, hentry⟩, hcheck⟩
  obtain ⟨hbuild, hrearranged⟩ := analyse_flowInsensitive ProgramDef.sample_rearranges
  obtain ⟨p', hp'⟩ := hbuild.1 ⟨p, hp⟩
  obtain ⟨hparts, hruns⟩ := hrearranged p p' hp hp'
  obtain ⟨hok, hanswers⟩ := hruns ⟨.object 1, none, false⟩
  obtain ⟨r', hr'⟩ := hok.1 ⟨r, hr⟩
  obtain ⟨-, -, hsame⟩ := hanswers r r' hr hr'
  exact ⟨p, p', r, r', hp, hp', hr, hr', hparts, hsame⟩

end Main

end PointsTo
