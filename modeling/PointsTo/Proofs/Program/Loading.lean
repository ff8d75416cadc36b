import PointsTo.Proofs.Program.Construction

/-! # Loading keeps programs well-formed

The phases of the construction in turn: classes and their hierarchy, fields and methods, bodies, and
the entry method. `build_wellFormed` is what the analysis uses.
-/

namespace PointsTo

namespace Program

/-- The program without any part is well-formed. -/
theorem empty_wellFormed : empty.WellFormed where
  indexed := by
    refine ⟨?_, ?_, ?_, ?_⟩
    · intro s hs
      exact absurd hs (Nat.not_lt_zero _)
    · intro s f hf
      cases hf
    · intro k v s
      cases k <;> constructor <;> intro h <;> cases h
    · intro k v
      cases k <;> exact List.Pairwise.nil
  body m b hb := by cases hb
  bodied s hs := absurd hs (Nat.not_lt_zero _)
  method c e he := by cases he
  field c e he := by cases he
  owner m hm := absurd hm (Nat.not_lt_zero _)
  entry m hm := by cases hm

/-! ## Variables and statements -/

/-- Nothing but variables, statements and the number of fields matters to the index. -/
theorem Indexed.congr {p q : Program} (h : p.Indexed) (hvars : q.vars = p.vars)
    (hstmts : q.stmts = p.stmts) (hfields : p.fields.size ≤ q.fields.size) : q.Indexed := by
  cases q
  cases hvars
  cases hstmts
  exact ⟨h.operand, fun s f hs => Nat.lt_of_lt_of_le (h.field s f hs) hfields, h.use, h.sorted⟩

/-- Nothing but variables and statements matters to a body. -/
theorem BodyOf.congr {p q : Program} {m : MethodId} {b : Body} (h : p.BodyOf m b)
    (hvars : q.vars = p.vars) (hstmts : q.stmts = p.stmts) : q.BodyOf m b := by
  cases q
  cases hvars
  cases hstmts
  exact ⟨h.stmt, h.sorted, h.ret, h.this, h.param⟩

/-! ## Bodies -/

def setBody (p : Program) (m : MethodId) (b : Body) : Program :=
  { p with methods := p.methods.modify m.idx fun k => { k with body? := some b } }

/-- Setting the body of a method changes no other method. -/
theorem methodAt_setBody_of_ne (p : Program) {m n : MethodId} (b : Body) (h : n ≠ m) :
    (p.setBody m b).methodAt n = p.methodAt n := by
  have hidx : m.idx ≠ n.idx := by
    intro hi
    cases m
    cases n
    exact h (congrArg MethodId.mk hi.symm)
  simp [setBody, methodAt, Array.getD_eq_getD_getElem?, Array.getElem?_modify, hidx]

theorem methodAt_setBody_self (p : Program) {m : MethodId} (b : Body)
    (h : m.idx < p.methods.size) :
    (p.setBody m b).methodAt m = { p.methodAt m with body? := some b } := by
  simp [setBody, methodAt, Array.getD_eq_getD_getElem?, Array.getElem_modify, h]

/-- The bodies of other methods are right also after a body was built. -/
theorem BodyOf.grows {p q : Program} {m n : MethodId} {b : Body} (h : p.BodyOf n b)
    (hg : p.Grows m q) (hne : n ≠ m) : q.BodyOf n b where
  stmt s := by
    rw [h.stmt]
    -- a statement of the larger table is an old one, or belongs to the method whose body was built
    constructor
    · rintro ⟨hlt, hm⟩
      exact ⟨Nat.lt_of_lt_of_le hlt hg.size, by rw [hg.stmt s hlt, hm]⟩
    · rintro ⟨hlt, hm⟩
      by_cases hs : s.idx < p.stmts.size
      · exact ⟨hs, by rw [← hm, hg.stmt s hs]⟩
      · rw [hg.fresh s (Nat.le_of_not_lt hs) hlt] at hm
        exact absurd hm.symm hne
  sorted := h.sorted
  ret v := by
    have hkind : ∀ s ∈ b.stmts, q.stmtAt s = p.stmtAt s := fun s hs =>
      hg.stmt s ((h.stmt s).1 hs).1
    rw [h.ret]
    constructor
    · rintro ⟨s, hs, hret⟩
      exact ⟨s, hs, by rw [hkind s hs, hret]⟩
    · rintro ⟨s, hs, hret⟩
      exact ⟨s, hs, by rw [← hret, hkind s hs]⟩
  this v hv := hg.owns n v (h.this v hv)
  param v hv := hg.owns n v (h.param v hv)

/-- Giving a method the body that was built for it keeps the program well-formed. -/
theorem WellFormed.setBody {p q : Program} {m : MethodId} {b : Body} (wf : p.WellFormed)
    (hi : q.Indexed) (hg : p.Grows m q) (hb : q.BodyOf m b) (hm : m.idx < p.methods.size) :
    (q.setBody m b).WellFormed := by
  have hq : m.idx < q.methods.size := by rwa [hg.methods]
  have hmethodAt : ∀ n, q.methodAt n = p.methodAt n := fun n => by
    rw [methodAt, hg.methods, methodAt]
  have hsize : (q.setBody m b).methods.size = p.methods.size := by
    simp [Program.setBody, hg.methods]
  refine ⟨hi.congr rfl rfl (Nat.le_refl _), ?_, ?_, ?_, ?_, ?_, ?_⟩
  · -- the new body, and the bodies of the other methods
    intro n c hc
    by_cases hn : n = m
    · subst hn
      rw [methodAt_setBody_self q b hq] at hc
      cases hc
      exact hb.congr rfl rfl
    · rw [methodAt_setBody_of_ne q b hn, hmethodAt] at hc
      exact ((wf.body n c hc).grows hg hn).congr rfl rfl
  -- Statements belong to a method with a body: those of the method that is implemented to the new one,
  -- and the others are old.
  · intro s hs
    show (((q.setBody m b).methodAt (q.stmtAt s).method).body?).isSome = true
    by_cases hn : (q.stmtAt s).method = m
    · rw [hn, methodAt_setBody_self q b hq]
      rfl
    · have hold : s.idx < p.stmts.size := by
        refine Nat.lt_of_not_le fun hle => hn ?_
        exact hg.fresh s hle hs
      rw [methodAt_setBody_of_ne q b hn, hmethodAt, hg.stmt s hold]
      exact wf.bodied s hold
  -- Classes, fields, methods and the entry are those of the program before.
  · intro c e he
    rw [hsize]
    refine wf.method c e ?_
    rwa [classAt, ← hg.classes]
  · intro c e he
    show e.2.idx < q.fields.size
    rw [hg.fields]
    refine wf.field c e ?_
    rwa [classAt, ← hg.classes]
  · intro n hn
    show ((q.setBody m b).methodAt n).owner.idx < q.classes.size
    rw [hsize] at hn
    rw [hg.classes]
    by_cases hnm : n = m
    · subst hnm
      rw [methodAt_setBody_self q b hq, hmethodAt]
      exact wf.owner n hn
    · rw [methodAt_setBody_of_ne q b hnm, hmethodAt]
      exact wf.owner n hn
  · intro n hn
    rw [hsize]
    refine wf.entry n ?_
    rw [← hg.entry]
    exact hn

/-! ## Classes and members -/

def pushClass (p : Program) (c : Class) : Program := { p with classes := p.classes.push c }

/-- A new class comes last, and the others stay where they are. -/
theorem classAt_pushClass (p : Program) (x : Class) (c : ClassId) :
    (p.pushClass x).classAt c = if c.idx = p.classes.size then x else p.classAt c :=
  getD_push _ _ _ _

/-- A class without members keeps the program well-formed. -/
theorem WellFormed.pushClass {p : Program} (wf : p.WellFormed) {x : Class} (hm : x.methods = [])
    (hf : x.fields = []) : (p.pushClass x).WellFormed where
  indexed := wf.indexed.congr rfl rfl (Nat.le_refl _)
  body m b hb := (wf.body m b hb).congr rfl rfl
  bodied := wf.bodied
  method c e he := by
    rw [classAt_pushClass] at he
    split at he
    · rw [hm] at he
      cases he
    · exact wf.method c e he
  field c e he := by
    rw [classAt_pushClass] at he
    split at he
    · rw [hf] at he
      cases he
    · exact wf.field c e he
  owner m hlt := by
    have h := wf.owner m hlt
    simp only [Program.pushClass, Array.size_push]
    exact Nat.lt_succ_of_lt h
  entry := wf.entry

/-- Links have no part in well-formedness. -/
theorem WellFormed.setLinks {p : Program} (wf : p.WellFormed) (links : Array Link) :
    { p with links }.WellFormed :=
  ⟨wf.indexed.congr rfl rfl (Nat.le_refl _), fun m b hb => (wf.body m b hb).congr rfl rfl, wf.bodied,
    wf.method, wf.field, wf.owner, wf.entry⟩

/-- The entry method must be one of the table. -/
theorem WellFormed.setEntry {p : Program} (wf : p.WellFormed) {e : Option MethodId}
    (h : ∀ m ∈ e, m.idx < p.methods.size) : { p with entry? := e }.WellFormed :=
  ⟨wf.indexed.congr rfl rfl (Nat.le_refl _), fun m b hb => (wf.body m b hb).congr rfl rfl, wf.bodied,
    wf.method, wf.field, wf.owner, h⟩

/-- An entry after an insertion is the new one or one from before. -/
theorem mem_insertEntry {α β : Type} [Ord α] {key : α} {value : β} {l : List (α × β)} {e : α × β}
    (h : e ∈ Builder.insertEntry key value l) : e = (key, value) ∨ e ∈ l := by
  induction l with
  | nil => exact Or.inl (List.mem_singleton.1 h)
  | cons x l ih =>
      rw [Builder.insertEntry] at h
      split at h
      · simpa using h
      · rcases List.mem_cons.1 h with rfl | h
        · simp
        · exact (ih h).imp id (List.mem_cons_of_mem x)

/-- A class of a table in which one class is changed. -/
theorem getD_modify_cases (classes : Array Class) (i k : Nat) (f : Class → Class) :
    (classes.modify i f).getD k default = classes.getD k default ∨
      (classes.modify i f).getD k default = f (classes.getD k default) := by
  rw [getD_modify]
  split
  · exact Or.inr rfl
  · exact Or.inl rfl

/-- The program with one more field, which is entered in its class. -/
def pushField (p : Program) (c : ClassId) (x : Field) : Program :=
  { p with
    fields := p.fields.push x
    classes := p.classes.modify c.idx fun k =>
      { k with fields := Builder.insertEntry x.name ⟨p.fields.size⟩ k.fields } }

/-- A field may be pushed onto any class. -/
theorem WellFormed.pushField {p : Program} (wf : p.WellFormed) (c : ClassId) (x : Field) :
    (p.pushField c x).WellFormed := by
  have hclass : ∀ k, (p.pushField c x).classAt k = p.classAt k ∨
      (p.pushField c x).classAt k = { p.classAt k with
        fields := Builder.insertEntry x.name ⟨p.fields.size⟩ (p.classAt k).fields } :=
    fun k => getD_modify_cases p.classes c.idx k.idx _
  have hsize : (p.pushField c x).fields.size = p.fields.size + 1 := by
    simp [Program.pushField]
  refine ⟨wf.indexed.congr rfl rfl ?_, fun m b hb => (wf.body m b hb).congr rfl rfl, wf.bodied,
    ?_, ?_, ?_, wf.entry⟩
  · rw [hsize]
    exact Nat.le_succ _
  -- The new field is entered in one class, and nothing but the list of its fields is changed.
  · intro k e he
    rcases hclass k with hk | hk <;> rw [hk] at he <;> exact wf.method k e he
  · intro k e he
    rw [hsize]
    rcases hclass k with hk | hk
    · rw [hk] at he
      exact Nat.lt_succ_of_lt (wf.field k e he)
    · rw [hk] at he
      rcases mem_insertEntry he with rfl | he
      · exact Nat.lt_succ_self _
      · exact Nat.lt_succ_of_lt (wf.field k e he)
  · intro m hm
    simp only [Program.pushField, Array.size_modify]
    exact wf.owner m hm

/-- The program with one more method, which is entered in its class. -/
def pushMethod (p : Program) (x : Method) : Program :=
  { p with
    methods := p.methods.push x
    classes := p.classes.modify x.owner.idx fun k =>
      { k with
        methods := Builder.insertEntry x.ref.subsignature ⟨p.methods.size⟩ k.methods } }

/-- A new method comes last, and the others stay where they are. -/
theorem methodAt_pushMethod (p : Program) (x : Method) (m : MethodId) :
    (p.pushMethod x).methodAt m = if m.idx = p.methods.size then x else p.methodAt m :=
  getD_push _ _ _ _

/-- A method without a body may be pushed, if its class is one of the table. -/
theorem WellFormed.pushMethod {p : Program} (wf : p.WellFormed) {x : Method}
    (hx : x.body? = none) (ho : x.owner.idx < p.classes.size) : (p.pushMethod x).WellFormed := by
  have hclass : ∀ k, (p.pushMethod x).classAt k = p.classAt k ∨
      (p.pushMethod x).classAt k = { p.classAt k with
        methods :=
          Builder.insertEntry x.ref.subsignature ⟨p.methods.size⟩ (p.classAt k).methods } :=
    fun k => getD_modify_cases p.classes x.owner.idx k.idx _
  have hsize : (p.pushMethod x).methods.size = p.methods.size + 1 := by
    simp [Program.pushMethod]
  refine ⟨wf.indexed.congr rfl rfl (Nat.le_refl _), ?_, ?_, ?_, ?_, ?_, ?_⟩
  · -- the new method has no body yet
    intro m b hb
    rw [methodAt_pushMethod] at hb
    split at hb
    · rw [hx] at hb
      cases hb
    · exact (wf.body m b hb).congr rfl rfl
  · intro s hs
    have hsome := wf.bodied s hs
    obtain ⟨b, hb⟩ := Option.isSome_iff_exists.1 hsome
    have hlt := lt_size_of_body hb
    rw [methodAt_pushMethod, if_neg]
    · exact hsome
    · exact Nat.ne_of_lt hlt
  -- The class of the method has one more entry, for the new method.
  · intro k e he
    rw [hsize]
    rcases hclass k with hk | hk
    · rw [hk] at he
      exact Nat.lt_succ_of_lt (wf.method k e he)
    · rw [hk] at he
      rcases mem_insertEntry he with rfl | he
      · exact Nat.lt_succ_self _
      · exact Nat.lt_succ_of_lt (wf.method k e he)
  · intro k e he
    rcases hclass k with hk | hk <;> rw [hk] at he <;> exact wf.field k e he
  · intro m hm
    simp only [Program.pushMethod, Array.size_modify]
    rw [← Program.pushMethod, methodAt_pushMethod]
    split
    · exact ho
    · rw [hsize] at hm
      exact wf.owner m (by omega)
  · intro m hm
    rw [hsize]
    exact Nat.lt_succ_of_lt (wf.entry m hm)

end Program

namespace Builder

/-- Methods that wait for their bodies. -/
structure Waiting (ms : List (MethodId × MethodDef)) (p : Program) : Prop where
  nodup : (ms.map (·.1)).Nodup
  known : ∀ m ∈ ms, m.1.idx < p.methods.size
  bare : ∀ m ∈ ms, (p.methodAt m.1).body? = none

/-- Implementing a method keeps the program well-formed and all other methods as they are. -/
theorem ensures_implement {m : MethodId × MethodDef} {d : Draft} (wf : d.program.WellFormed)
    (hm : m.1.idx < d.program.methods.size) (hbare : (d.program.methodAt m.1).body? = none) :
    Ensures (implement m) d fun _ d' => d'.program.WellFormed ∧
      d'.program.methods.size = d.program.methods.size ∧
      ∀ n, n ≠ m.1 → d'.program.methodAt n = d.program.methodAt n := by
  -- Statements have methods with a body, and this one has none yet.
  have hnew : ∀ s, s.idx < d.program.stmts.size → (d.program.stmtAt s).method ≠ m.1 := by
    intro s hs heq
    have hsome := wf.bodied s hs
    rw [heq, hbare] at hsome
    cases hsome
  simp only [implement]
  refine Ensures.ite (fun _ => ?_) fun _ => ?_
  · -- abstract and native methods only give rise to a warning
    refine Ensures.ite (fun _ => ?_) fun _ => ?_
    · exact ensures_pure.2 ⟨wf, rfl, fun _ _ => rfl⟩
    · rw [ensures_bind, ensures_program, ensures_report]
      exact ⟨wf, rfl, fun _ _ => rfl⟩
  · simp only [ensures_bind, ensures_update]
    refine (ensures_buildBody wf.indexed wf.field hnew).mono ?_
    rintro b d' ⟨hi, hg, hb⟩
    refine ⟨wf.setBody hi hg hb hm, ?_, fun n hn => ?_⟩
    · rw [Array.size_modify, hg.methods]
    · refine (Program.methodAt_setBody_of_ne d'.program b hn).trans ?_
      rw [Program.methodAt, hg.methods, Program.methodAt]

/-- Implementing all methods that wait keeps the program well-formed. -/
theorem ensures_implementAll {ms : List (MethodId × MethodDef)} {d : Draft}
    (wf : d.program.WellFormed) (hms : Waiting ms d.program) :
    Ensures (ms.forM implement) d fun _ d' => d'.program.WellFormed := by
  induction ms generalizing d with
  | nil => exact ensures_pure.2 wf
  | cons m ms ih =>
      have hnodup := List.nodup_cons.1 hms.nodup
      rw [List.forM_eq_forM, List.forM_cons, ensures_bind]
      refine (ensures_implement wf (hms.known m (by simp)) (hms.bare m (by simp))).mono ?_
      rintro - d' ⟨wf', hsize, hkeep⟩
      refine ih wf' ⟨hnodup.2, fun n hn => ?_, fun n hn => ?_⟩
      · rw [hsize]
        exact hms.known n (List.mem_cons_of_mem m hn)
      · have hne : n.1 ≠ m.1 := fun heq => hnodup.1 (List.mem_map.2 ⟨n, hn, heq⟩)
        rw [hkeep n.1 hne]
        exact hms.bare n (List.mem_cons_of_mem m hn)

/-! ## Classes and members -/

/-- A well-formed draft with at least `n` classes. -/
structure Stage (n : Nat) (d : Draft) : Prop where
  wf : d.program.WellFormed
  classes : n ≤ d.program.classes.size

/-- Mentioning a class keeps the stage. -/
theorem ensures_classOrPhantom {n : Nat} {name : String} {d : Draft} (h : Stage n d) :
    Ensures (classOrPhantom name) d fun _ => Stage n := by
  simp only [classOrPhantom, ensures_bind, ensures_program]
  split
  · exact ensures_pure.2 h
  · simp only [addClass_eq, ensures_bind, ensures_report, ensures_program, ensures_update,
      ensures_pure]
    refine ⟨h.wf.pushClass rfl rfl, ?_⟩
    simp only [Array.size_push]
    exact Nat.le_succ_of_le h.classes

/-- Checking a node leaves everything as it is. -/
theorem ensures_checkNode {c : ClassId} {d : Draft} :
    Ensures (checkNode c) d fun _ d' => d' = d := by
  simp only [checkNode, ensures_bind, ensures_program]
  exact Ensures.ite (fun _ => ensures_throw) fun _ => ensures_pure.2 rfl

/-- Adding a link keeps the stage, as links have no part in it. -/
theorem ensures_addLink {n : Nat} {child parent : ClassId} {kind : LinkKind} {d : Draft}
    (h : Stage n d) : Ensures (addLink child parent kind) d fun _ => Stage n := by
  simp only [addLink, ensures_bind]
  refine ensures_checkNode.mono ?_
  rintro - d' rfl
  refine ensures_checkNode.mono ?_
  rintro - d' rfl
  rw [ensures_update]
  exact ⟨h.wf.setLinks _, h.classes⟩

/-- Adding a superclass keeps the stage. -/
theorem ensures_addSuperclass {n : Nat} {child parent : ClassId} {d : Draft} (h : Stage n d) :
    Ensures (addSuperclass child parent) d fun _ => Stage n := by
  simp only [addSuperclass, ensures_bind, ensures_program]
  exact Ensures.ite (fun _ => by simp) fun _ => ensures_addLink h

/-- A class that is defined is in the table from then on. -/
theorem ensures_defineClass {n : Nat} {c : ClassDef} {d : Draft} (h : Stage n d)
    (hdefined : d.program.AllDefined) : Ensures (defineClass c) d fun id d' =>
      (Stage n d' ∧ d'.program.AllDefined) ∧ id.idx < d'.program.classes.size ∧
        d.program.classes.size ≤ d'.program.classes.size := by
  refine Ensures.of_run (run_defineClass hdefined) ?_
  simp only [defineNewClass, ensures_bind, ensures_program]
  refine Ensures.ite (fun _ => by simp) fun _ => ?_
  simp only [addClass_eq, ensures_bind, ensures_report, ensures_program, ensures_update, ensures_pure,
    Array.size_push]
  refine ⟨⟨⟨h.wf.pushClass rfl rfl, ?_⟩, hdefined.push c⟩, Nat.lt_succ_self _, Nat.le_succ _⟩
  simp only [Array.size_push]
  exact Nat.le_succ_of_le h.classes

/-- Mentioning the class that a statement allocates keeps the stage. -/
theorem ensures_mentionAllocated {n : Nat} {s : StmtDef} {d : Draft} (h : Stage n d) :
    Ensures (mentionAllocated s) d fun _ => Stage n := by
  cases s with
  | new lhs type =>
      simp only [mentionAllocated, ensures_bind]
      refine ensures_readType.mono ?_
      rintro t d' rfl
      split
      · exact ensures_map.2 (ensures_classOrPhantom h)
      · exact ensures_pure.2 h
  | _ => exact ensures_pure.2 h

/-- Linking a class keeps the stage. -/
theorem ensures_linkClass {n : Nat} {c : ClassId} {x : ClassDef} {d : Draft} (h : Stage n d) :
    Ensures (linkClass c x) d fun _ => Stage n := by
  have hinterface : ∀ name d, Stage n d → Ensures (linkInterface c name) d fun _ => Stage n := by
    intro name d hd
    rw [linkInterface, ensures_bind]
    exact (ensures_classOrPhantom hd).mono fun _ _ hd' => ensures_addLink hd'
  simp only [linkClass, ensures_bind]
  refine Ensures.mono (Q := fun _ => Stage n) ?_ fun _ d' hd' => ?_
  · cases x.superclass with
    | none => exact ensures_pure.2 h
    | some name =>
        rw [linkSuperclass, ensures_bind]
        exact (ensures_classOrPhantom h).mono fun _ _ hd' => ensures_addSuperclass hd'
  · refine (Ensures.forM (fun name _ d hd => hinterface name d hd) hd').mono ?_
    intro _ d'' hd''
    exact Ensures.forM (fun s _ d hd => ensures_mentionAllocated hd) hd''

/-- Closing the hierarchy keeps the stage. -/
theorem ensures_closeHierarchy {n : Nat} {d : Draft} (h : Stage n d) :
    Ensures closeHierarchy d fun _ => Stage n := by
  have hadopt : ∀ root c d, Stage n d → Ensures (adopt root c) d fun _ => Stage n := by
    intro root c d hd
    simp only [adopt, ensures_bind, ensures_program, ensures_report]
    exact ensures_addSuperclass ⟨hd.wf, hd.classes⟩
  simp only [closeHierarchy, ensures_bind, ensures_program]
  refine (ensures_classOrPhantom h).mono fun root d' hd' => ?_
  refine (Ensures.forM (fun c _ d hd => hadopt root c d hd) hd').mono fun _ d'' hd'' => ?_
  exact Ensures.ite (fun _ => ensures_throw) fun _ => ensures_pure.2 hd''

/-- Declaring a field keeps the stage, and the methods that wait. -/
theorem ensures_declareField {n : Nat} {c : ClassId} {x : FieldDef} {d : Draft} (h : Stage n d)
    {ms : List (MethodId × MethodDef)} (hms : Waiting ms d.program) :
    Ensures (declareField c x) d fun _ d' => Stage n d' ∧ Waiting ms d'.program := by
  simp only [declareField, ensures_bind]
  refine ensures_readType.mono ?_
  rintro t d' rfl
  rw [ensures_program]
  refine Ensures.ite (fun _ => by simp) fun _ => ?_
  simp only [updateClass, ensures_bind, ensures_update]
  refine ⟨⟨?_, ?_⟩, hms.nodup, hms.known, hms.bare⟩
  · exact h.wf.pushField c ⟨c, (d'.program.classAt c).name, x.name, t, x.isStatic⟩
  · simpa using h.classes

/-- A new method without a body waits for it, as do those declared before. -/
theorem Waiting.pushMethod {ms : List (MethodId × MethodDef)} {p : Program} (h : Waiting ms p)
    {k : Method} (hbody : k.body? = none) (x : MethodDef) :
    Waiting (ms ++ [(⟨p.methods.size⟩, x)]) (p.pushMethod k) where
  nodup := by
    rw [List.map_append, List.nodup_append]
    refine ⟨h.nodup, by simp, fun a ha b hb => ?_⟩
    obtain ⟨e, he, rfl⟩ := List.mem_map.1 ha
    simp only [List.map_cons, List.map_nil, List.mem_singleton] at hb
    intro heq
    have hlt := h.known e he
    rw [heq, hb] at hlt
    exact Nat.lt_irrefl _ hlt
  known e he := by
    simp only [Program.pushMethod, Array.size_push]
    rcases List.mem_append.1 he with he | he
    · exact Nat.lt_succ_of_lt (h.known e he)
    · rw [List.mem_singleton.1 he]
      exact Nat.lt_succ_self _
  bare e he := by
    rw [Program.methodAt_pushMethod]
    split
    · exact hbody
    · rename_i hne
      rcases List.mem_append.1 he with he | he
      · exact h.bare e he
      · exact absurd (by rw [List.mem_singleton.1 he]) hne

/-- A method that is declared waits for its body, as do those declared before. -/
theorem ensures_declareMethod {n : Nat} {c : ClassId} {x : MethodDef} {d : Draft} (h : Stage n d)
    (hc : c.idx < n) {ms : List (MethodId × MethodDef)} (hms : Waiting ms d.program) :
    Ensures (declareMethod c x) d fun m d' =>
      Stage n d' ∧ Waiting (ms ++ [(m, x)]) d'.program := by
  have hparams : ∀ d, Ensures (x.params.mapM fun v => readType v.type) d fun _ d' => d' = d :=
    fun d => Ensures.mapM (I := fun _ d' => d' = d)
      (fun v _ _ d' hd' => hd' ▸ ensures_readType) rfl
  simp only [declareMethod, ensures_bind]
  refine (hparams d).mono ?_
  rintro params d' rfl
  refine ensures_readType.mono ?_
  rintro result d' rfl
  rw [ensures_program]
  refine Ensures.ite (fun _ => by simp) fun _ => ?_
  simp only [updateClass, ensures_bind, ensures_update, ensures_pure]
  -- only the owner, the subsignature and the missing body of the method matter
  generalize hx : (⟨c, ⟨(d'.program.classAt c).name, ⟨x.name, params, result⟩⟩, x.isStatic,
    x.isAbstract, x.isNative, none⟩ : Method) = k
  have hbody : k.body? = none := by rw [← hx]
  have howner : k.owner = c := by rw [← hx]
  have hsub : k.ref.subsignature = ⟨x.name, params, result⟩ := by rw [← hx]
  rw [← hsub, ← howner]
  refine ⟨⟨?_, ?_⟩, hms.pushMethod hbody x⟩
  · refine h.wf.pushMethod hbody ?_
    rw [howner]
    exact Nat.lt_of_lt_of_le hc h.classes
  · simpa using h.classes

/-- Declaring the members of a class adds its methods to those that wait. -/
theorem ensures_declareMembers {n : Nat} {c : ClassId} {x : ClassDef} {d : Draft} (h : Stage n d)
    (hc : c.idx < n) {ms : List (MethodId × MethodDef)} (hms : Waiting ms d.program) :
    Ensures (declareMembers c x) d fun new d' =>
      Stage n d' ∧ Waiting (ms ++ new) d'.program := by
  simp only [declareMembers, ensures_bind]
  refine (Ensures.forM (I := fun d => Stage n d ∧ Waiting ms d.program)
    (fun f _ d hd => ensures_declareField hd.1 hd.2) ⟨h, hms⟩).mono ?_
  rintro - d' ⟨h', hms'⟩
  refine Ensures.mapM (I := fun new d => Stage n d ∧ Waiting (ms ++ new) d.program) ?_
    ⟨h', by simpa using hms'⟩
  rintro m - new d'' ⟨h'', hms''⟩
  rw [ensures_bind]
  refine (ensures_declareMethod h'' hc hms'').mono ?_
  rintro id d₃ ⟨h₃, hms₃⟩
  exact ensures_pure.2 ⟨h₃, by simpa using hms₃⟩

/-! ## Programs -/

/-- The entry method is one of the table. -/
theorem ensures_selectEntry {entry : Option String} {d : Draft} (wf : d.program.WellFormed) :
    Ensures (selectEntry entry) d fun e d' =>
      d'.program = d.program ∧ ∀ m ∈ e, m.idx < d.program.methods.size := by
  cases entry with
  | some entry =>
      simp only [selectEntry, ensures_bind]
      refine ensures_readMethodRef.mono ?_
      rintro r d' rfl
      rw [ensures_program]
      -- A method that is found is one that its class declares.
      split
      · rename_i m hm
        simp only [Program.findMethod?, Option.bind_eq_bind, Option.bind_eq_some_iff] at hm
        obtain ⟨c, -, hm⟩ := hm
        refine ensures_pure.2 ⟨rfl, fun n hn => ?_⟩
        cases hn
        exact wf.declared_lt hm
      · exact ensures_throw
  | none =>
      simp only [selectEntry, ensures_bind, ensures_program]
      split
      · rename_i m hm
        refine ensures_pure.2 ⟨rfl, fun n hn => ?_⟩
        cases hn
        have hmem : m ∈ mainMethods d.program := by simp [hm]
        obtain ⟨i, hi, rfl⟩ := List.mem_map.1 (List.mem_filter.1 hmem).1
        exact List.mem_range.1 hi
      · simp
      · simp

/-- Building a definition keeps the program well-formed. -/
theorem ensures_build {x : ProgramDef} {d : Draft} (wf : d.program.WellFormed)
    (hdefined : d.program.AllDefined) : Ensures (build x) d fun _ d' => d'.program.WellFormed := by
  simp only [build, ensures_bind]
  have h₀ : Stage 0 d := ⟨wf, Nat.zero_le _⟩
  refine (Ensures.mapM (I := fun ids d => (Stage 0 d ∧ d.program.AllDefined) ∧
    ∀ c ∈ ids, c.idx < d.program.classes.size) ?_ ⟨⟨h₀, hdefined⟩, by simp⟩).mono ?_
  · rintro c - ids d' ⟨h, hids⟩
    refine (ensures_defineClass h.1 h.2).mono ?_
    rintro id d'' ⟨h', hid, hle⟩
    refine ⟨h', fun k hk => ?_⟩
    rcases List.mem_append.1 hk with hk | hk
    · exact Nat.lt_of_lt_of_le (hids k hk) hle
    · rw [List.mem_singleton.1 hk]
      exact hid
  rintro ids d₁ ⟨⟨h₁, -⟩, hids⟩
  -- from here on, the classes of the definition are in the table
  generalize hn : d₁.program.classes.size = n at hids
  have hstage : Stage n d₁ := ⟨h₁.wf, Nat.le_of_eq hn.symm⟩
  refine (Ensures.forM (fun c _ d hd => ensures_linkClass hd) hstage).mono fun _ d₂ h₂ => ?_
  refine (ensures_closeHierarchy h₂).mono fun _ d₃ h₃ => ?_
  refine (Ensures.mapM (I := fun mss d => Stage n d ∧ Waiting mss.flatten d.program) ?_
    ⟨h₃, by simp, by simp, by simp⟩).mono ?_
  · rintro c hc mss d ⟨hd, hmss⟩
    have hlt : c.1.idx < n := hids c.1 (List.of_mem_zip hc).1
    refine (ensures_declareMembers hd hlt hmss).mono ?_
    rintro new d' ⟨hd', hnew⟩
    exact ⟨hd', by simpa using hnew⟩
  rintro mss d₄ ⟨h₄, hmss⟩
  refine (ensures_implementAll h₄.wf hmss).mono fun _ d₅ wf₅ => ?_
  refine (ensures_selectEntry wf₅).mono ?_
  rintro entry d₆ ⟨hprog, hentry⟩
  rw [ensures_update, ensures_program, ensures_report, hprog]
  exact wf₅.setEntry hentry

end Builder

/-- Every loaded program is well-formed. -/
theorem Program.build_wellFormed {d : ProgramDef} {p : Program} (h : (build d).1 = .ok p) :
    p.WellFormed := by
  have hbuild := Builder.ensures_build (x := d) (d := ⟨empty, #[]⟩) empty_wellFormed
    fun _ hmem => absurd hmem (Array.not_mem_empty _)
  -- a run of the builder that gives a program gives that of its last draft
  unfold build at h
  rcases hrun : (Builder.build d).run.run ⟨empty, #[]⟩ with ⟨e | u, draft⟩
  · rw [hrun] at h
    cases h
  · rw [hrun] at h
    cases h
    exact hbuild u draft hrun

end PointsTo
