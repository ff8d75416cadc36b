import PointsTo.Proofs.Program.Statements

/-! # Bodies that are built

The body of a method declares the receiver, the parameters and the locals, one after the other at the end
of the table of variables, and then lists its statements. `Fits` says what a body and its method have to do
with each other. It is kept when other bodies are built, because these only add variables and statements of
other methods.
-/

namespace PointsTo

/-! ## The shape of a body -/

namespace Program

/-- The second program has all variables and statements of the first one. Variables may have more uses. -/
structure Contains (p q : Program) : Prop where
  vars : p.vars.size ≤ q.vars.size
  var : ∀ v, v.idx < p.vars.size → (q.varAt v).bare = (p.varAt v).bare
  stmts : p.stmts.size ≤ q.stmts.size
  stmt : ∀ s, s.idx < p.stmts.size → q.stmtAt s = p.stmtAt s

/-- The body has a receiver unless the method is static, parameters of the types that the method is
declared with, the locals of the definition, and all variables and statements of the method. -/
structure Fits (p : Program) (m : MethodId) (x : MethodDef) (b : Body) : Prop where
  this : b.this?.isSome = !(p.methodAt m).isStatic
  params : b.params.map (fun v => (p.varAt v).type) = (p.methodAt m).ref.subsignature.params
  vars : ∃ locals, b.vars = b.this?.toList ++ b.params ++ locals ∧
    x.locals.mapM (fun v => (Ty.parse v.type).toOption) = some (locals.map fun v => (p.varAt v).type)
  scope : (b.vars.map fun v => (p.varAt v).name) = x.scope
  names : x.scope.Nodup
  mem_vars : ∀ v, v ∈ b.vars ↔ p.Owns m v
  stmt : ∀ (i : Nat) s, b.stmts[i]? = some s →
    s.idx < p.stmts.size ∧ (p.stmtAt s).method = m ∧ (p.stmtAt s).index = i
  operand : ∀ s ∈ b.stmts, ∀ v ∈ (p.stmtAt s).kind.operands, v ∈ b.vars
  returns : b.returns = (b.stmts.filterMap fun s => Builder.returned? (p.stmtAt s).kind).eraseDups

variable {p q : Program} {m : MethodId} {x : MethodDef} {b : Body}

/-- A variable of the smaller program is declared in the same way in the larger one. -/
theorem Contains.declared (h : p.Contains q) {v : VarId} (hv : v.idx < p.vars.size) :
    (q.varAt v).method = (p.varAt v).method ∧ (q.varAt v).name = (p.varAt v).name ∧
      (q.varAt v).type = (p.varAt v).type := by
  simpa [Var.bare] using h.var v hv

theorem Fits.stmt_lt (h : p.Fits m x b) {s : StmtId} (hs : s ∈ b.stmts) : s.idx < p.stmts.size := by
  obtain ⟨i, hi⟩ := List.mem_iff_getElem?.1 hs
  exact (h.stmt i s hi).1

theorem Fits.params_subset (h : p.Fits m x b) {v : VarId} (hv : v ∈ b.params) : v ∈ b.vars := by
  obtain ⟨locals, hvars, -⟩ := h.vars
  rw [hvars]
  simp [hv]

/-- The variable that holds the receiver is not a parameter: all variables of a body have names of their
own. -/
theorem Fits.this_notMem_params (h : p.Fits m x b) {this : VarId} (hthis : b.this? = some this) :
    this ∉ b.params := by
  obtain ⟨locals, hvars, -⟩ := h.vars
  have hnodup : b.vars.Nodup := .of_map _ (h.scope ▸ h.names)
  rw [hvars, hthis, Option.toList_some, List.append_assoc, List.singleton_append, List.nodup_cons,
    List.mem_append, not_or] at hnodup
  exact hnodup.1.1

/-- A body still fits its method when variables and statements of other methods are added. -/
theorem Fits.mono (h : p.Fits m x b) (hpq : p.Contains q)
    (hstatic : (q.methodAt m).isStatic = (p.methodAt m).isStatic)
    (href : (q.methodAt m).ref = (p.methodAt m).ref)
    (hnew : ∀ v, p.vars.size ≤ v.idx → v.idx < q.vars.size → (q.varAt v).method ≠ m) :
    q.Fits m x b := by
  have hvar {v : VarId} (hv : v ∈ b.vars) := hpq.declared ((h.mem_vars v).1 hv).1
  have hstmt {s : StmtId} (hs : s ∈ b.stmts) : q.stmtAt s = p.stmtAt s := hpq.stmt s (h.stmt_lt hs)
  refine ⟨?_, ?_, ?_, ?_, h.names, fun v => ?_, fun i s hs => ?_, fun s hs v hv => ?_, ?_⟩
  · rw [hstatic, h.this]
  · rw [href, ← h.params]
    exact List.map_congr_left fun v hv => (hvar (h.params_subset hv)).2.2
  · obtain ⟨locals, hvars, htypes⟩ := h.vars
    refine ⟨locals, hvars, htypes.trans (congrArg some (List.map_congr_left fun v hv => ?_))⟩
    exact (hvar (by rw [hvars]; simp [hv])).2.2.symm
  · rw [← h.scope]
    exact List.map_congr_left fun v hv => (hvar hv).2.1
  · rw [h.mem_vars]
    constructor
    · rintro ⟨hlt, hm⟩
      exact ⟨Nat.lt_of_lt_of_le hlt hpq.vars, (hpq.declared hlt).1.trans hm⟩
    · rintro ⟨hlt, hm⟩
      -- A variable of the larger table is an old one, or it belongs to another method.
      by_cases hold : v.idx < p.vars.size
      · exact ⟨hold, (hpq.declared hold).1.symm.trans hm⟩
      · exact absurd hm (hnew v (by omega) hlt)
  · rw [hstmt (List.mem_of_getElem? hs)]
    obtain ⟨hlt, hsame⟩ := h.stmt i s hs
    exact ⟨Nat.lt_of_lt_of_le hlt hpq.stmts, hsame⟩
  · rw [hstmt hs] at hv
    exact h.operand s hs v hv
  · rw [h.returns]
    exact congrArg _ (List.filterMap_congr fun s hs => by rw [hstmt hs])

/-- A body fits its method also in a program with the same variables and statements. -/
theorem Fits.congr (h : p.Fits m x b) (hvars : q.vars = p.vars) (hstmts : q.stmts = p.stmts)
    (hstatic : (q.methodAt m).isStatic = (p.methodAt m).isStatic)
    (href : (q.methodAt m).ref = (p.methodAt m).ref) : q.Fits m x b := by
  refine h.mono ⟨?_, fun v _ => ?_, ?_, fun s _ => ?_⟩ hstatic href fun v hle hlt => ?_
  · rw [hvars]
  · rw [varAt, hvars, varAt]
  · rw [hstmts]
  · rw [stmtAt, hstmts, stmtAt]
  · rw [hvars] at hlt
    exact absurd hlt (Nat.not_lt.2 hle)

end Program

/-- A variable with its name and its type, before anything uses it. -/
def Var.declared (m : MethodId) (v : String × Ty) : Var := ⟨m, v.1, v.2, [], [], [], [], []⟩

namespace Builder

/-! ## Declarations -/

/-- Names of variables that are numbered from `n`. -/
def entries (n : Nat) (vs : List (String × Ty)) : List (String × VarId) :=
  (vs.zipIdx n).map fun v => (v.1.1, ⟨v.2⟩)

section Entries

variable (n : Nat) (vs ws : List (String × Ty))

/-- Variables that are numbered after others get the numbers behind theirs. -/
theorem entries_append : entries n (vs ++ ws) = entries n vs ++ entries (n + vs.length) ws := by
  rw [entries, List.zipIdx_append, List.map_append]
  rfl

theorem map_fst_entries : (entries n vs).map (·.1) = vs.map (·.1) := by
  conv_rhs => rw [← List.zipIdx_map_fst n vs, List.map_map]
  rw [entries, List.map_map]
  rfl

theorem map_snd_entries : (entries n vs).map (·.2) = (List.range' n vs.length).map VarId.mk := by
  rw [entries, List.map_map, ← List.zipIdx_map_snd n vs, List.map_map]
  rfl

/-- A variable is among the entries if its index is in their range. -/
theorem mem_entries {v : VarId} :
    v ∈ (entries n vs).map (·.2) ↔ n ≤ v.idx ∧ v.idx < n + vs.length := by
  rw [map_snd_entries, List.mem_map]
  constructor
  · rintro ⟨i, hi, rfl⟩
    exact List.mem_range'_1.1 hi
  · intro hv
    exact ⟨v.idx, List.mem_range'_1.2 hv, rfl⟩

variable {n vs}

/-- What holds of the variables by their places holds of the entries. -/
theorem map_entries {α : Type} {f : VarId → α} {g : String × Ty → α}
    (h : ∀ (i : Nat) v, vs[i]? = some v → f ⟨n + i⟩ = g v) :
    ((entries n vs).map (·.2)).map f = vs.map g := by
  apply List.ext_getElem?
  intro i
  rw [map_snd_entries, List.getElem?_map, List.getElem?_map, List.getElem?_map]
  by_cases hi : i < vs.length
  · rw [List.getElem?_range' hi, List.getElem?_eq_getElem hi, Nat.one_mul]
    exact congrArg some (h i _ (List.getElem?_eq_getElem hi))
  · rw [List.getElem?_eq_none (by simpa using hi), List.getElem?_eq_none (by omega)]
    rfl

end Entries

/-- The variables of the scope were added to the table of variables, and nothing else has changed. -/
structure Declares (p : Program) (m : MethodId) (vs : List (String × Ty)) (scope : Scope)
    (q : Program) : Prop where
  method : scope.method = m
  vars : scope.vars = entries p.vars.size vs
  program : q = { p with vars := p.vars ++ (vs.map (Var.declared m)).toArray }

section Declares

variable {p : Program} {m : MethodId} {vs : List (String × Ty)} {scope : Scope} {e : Draft}
  (h : Declares p m vs scope e.program)

include h

theorem Declares.names : scope.vars.map (·.1) = vs.map (·.1) := by
  rw [h.vars, map_fst_entries]

/-- The table has grown by the variables that were declared. -/
theorem Declares.size : e.program.vars.size = p.vars.size + vs.length := by
  rw [h.program]
  simp

/-- Variables from before are as they were. -/
theorem Declares.old {v : VarId} (hv : v.idx < p.vars.size) : e.program.varAt v = p.varAt v := by
  rw [h.program, Program.varAt, Program.varAt, Array.getD_eq_getD_getElem?,
    Array.getD_eq_getD_getElem?, Array.getElem?_append_left hv]

/-- The new variables are those that were declared, in their order. -/
theorem Declares.new {i : Nat} {v : String × Ty} (hv : vs[i]? = some v) :
    e.program.varAt ⟨p.vars.size + i⟩ = Var.declared m v := by
  rw [h.program, Program.varAt, Array.getD_eq_getD_getElem?, Array.getElem?_append_right (by simp)]
  simp [hv]

/-- A variable is declared if its name is new. -/
theorem decides_declareVar (name : String) (t : Ty) :
    Decides (declareVar scope name t) e (name ∉ vs.map (·.1)) fun scope' e' =>
      Declares p m (vs ++ [(name, t)]) scope' e'.program := by
  have hnew := h.names
  refine (Decides.unless (P := True) (fun _ => Refuses.bind (.throw rfl)) fun _ => ?_).congr
    (by rw [isSome_lookup_iff, hnew, and_true])
  refine Yields.decides ?_
  simp only [yields_bind, yields_program, yields_update, yields_pure]
  refine ⟨h.method, ?_, ?_⟩
  · show scope.vars ++ [(name, ⟨e.program.vars.size⟩)] = _
    rw [h.vars, h.size, entries_append]
    rfl
  · show { e.program with vars := e.program.vars.push ⟨scope.method, name, t, [], [], [], [], []⟩ } = _
    rw [h.program, h.method]
    simp [Var.declared]

/-- Variables are declared if their types can be read and their names are new. -/
theorem decides_declareVars (ds : List VarDef) : Decides (declareVars scope ds) e
    ((∀ v ∈ ds, IsType v.type) ∧ (ds.map (·.name)).Nodup ∧
      ∀ x ∈ vs.map (·.1), x ∉ ds.map (·.name)) fun scope' e' =>
        ∃ ts, ds.mapM (fun v => (Ty.parse v.type).toOption) = some ts ∧
          Declares p m (vs ++ (ds.map (·.name)).zip ts) scope' e'.program := by
  refine (Decides.foldlM (P := fun before v => IsType v.type ∧
    v.name ∉ vs.map (·.1) ++ before.map (·.name)) (I := fun (done : List VarDef) scope' e' =>
      ∃ ts, done.mapM (fun v => (Ty.parse v.type).toOption) = some ts ∧ ts.length = done.length ∧
        Declares p m (vs ++ (done.map (·.name)).zip ts) scope' e'.program) ?_
          -- the condition of a round is about the names before it, so the rounds together say that no
          -- name occurs twice
          ⟨[], rfl, rfl, by simpa using h⟩).congr ?_ |>.mono ?_
  · rintro before v after - scope' e' ⟨ts, hts, hlength, h'⟩
    have hnames : (vs ++ (before.map (·.name)).zip ts).map (·.1) =
        vs.map (·.1) ++ before.map (·.name) := by
      rw [List.map_append, List.map_fst_zip (by simp [hlength])]
    refine (decides_readType v.type e').bind fun _ t e'' he => ?_
    rw [he.2, ← hnames]
    refine (decides_declareVar h' v.name t).mono fun scope'' e₃ h₃ => ?_
    refine ⟨ts ++ [t], ?_, by simp [hlength], ?_⟩
    · rw [List.mapM_append, hts]
      simp [he.1, Except.toOption]
    · rw [List.map_append, List.zip_append (by simp [hlength]), ← List.append_assoc]
      exact h₃
  · rw [each_and, each_const, each_new]
  · rintro scope' e' ⟨ts, hts, -, h'⟩
    exact ⟨ts, hts, h'⟩

end Declares

/-- The receiver of an instance method, as a variable. -/
def receiver (p : Program) (k : Method) : List (String × Ty) :=
  if k.isStatic then [] else [("this", .ofClass (p.classAt k.owner).name)]

/-- The receiver can always be declared, as it comes first. -/
theorem decides_declareThis {m : MethodId} {scope : Scope} {e : Draft} (k : Method)
    (h : Declares e.program m [] scope e.program) : Decides (declareThis scope k) e True
      fun scope' e' => Declares e.program m (receiver e.program k) scope' e'.program := by
  unfold declareThis receiver
  by_cases hk : k.isStatic = true
  · rw [if_pos hk, if_pos hk]
    exact .pure h
  · rw [if_neg hk, if_neg hk]
    refine .program ((decides_declareVar h "this" _).congr ?_)
    simp

/-! ## Bodies -/

/-- The second program has variables and statements of a method in addition to those of the first one. -/
structure Builds (m : MethodId) (p q : Program) : Prop where
  rest : q = { p with vars := q.vars, stmts := q.stmts }
  contains : p.Contains q
  fresh : ∀ v, p.vars.size ≤ v.idx → v.idx < q.vars.size → (q.varAt v).method = m

section Built

variable {p : Program} {m : MethodId} {vs : List (String × Ty)} {scope : Scope} {e : Draft}
  (h : Declares p m vs scope e.program) {body : List StmtDef} {rs : List (StmtId × StmtKind)}
  {q : Program} (hlists : Lists scope e.program body.zipIdx rs q)

include h hlists

/-- The variables of a body, by their places. -/
theorem Declares.built {i : Nat} {v : String × Ty} (hv : vs[i]? = some v) :
    (q.varAt ⟨p.vars.size + i⟩).method = m ∧ (q.varAt ⟨p.vars.size + i⟩).name = v.1 ∧
      (q.varAt ⟨p.vars.size + i⟩).type = v.2 := by
  have hbare := hlists.vars.2 ⟨p.vars.size + i⟩
  rw [h.new hv] at hbare
  simpa [Var.bare, Var.declared] using hbare

/-- What was declared and listed belongs to the method. -/
theorem Declares.builds : Builds m p q := by
  have hvars := hlists.vars
  have hstmts : e.program.stmts = p.stmts := by rw [h.program]
  refine ⟨?_, ⟨?_, fun v hv => ?_, ?_, fun s hs => ?_⟩, fun v hle hlt => ?_⟩
  · conv_lhs => rw [hlists.rest, h.program]
  · rw [hvars.1, h.size]
    omega
  · rw [hvars.2, h.old hv]
  · rw [hlists.size, hstmts]
    omega
  · rw [← hstmts] at hs
    have hold := hlists.old (Array.getElem?_eq_getElem hs)
    rw [Program.stmtAt, Program.stmtAt, Array.getD_eq_getD_getElem?, Array.getD_eq_getD_getElem?, hold,
      ← hstmts, Array.getElem?_eq_getElem hs]
  -- Variables that are not in the first table are those of the scope.
  · rw [hvars.1, h.size] at hlt
    have hnew : vs[v.idx - p.vars.size]? = some vs[v.idx - p.vars.size] :=
      List.getElem?_eq_getElem (by omega)
    have hv : v = ⟨p.vars.size + (v.idx - p.vars.size)⟩ := by
      cases v
      exact congrArg VarId.mk (by simp only at hle ⊢; omega)
    rw [hv]
    exact (h.built hlists hnew).1

/-- The variables of the scope are those of the method. -/
theorem Declares.mem_iff (hfresh : ∀ v, v.idx < p.vars.size → (p.varAt v).method ≠ m) (v : VarId) :
    v ∈ scope.vars.map (·.2) ↔ q.Owns m v := by
  have hbuilds := h.builds hlists
  rw [h.vars, mem_entries, Program.Owns, hlists.vars.1, h.size]
  constructor
  · rintro ⟨hle, hlt⟩
    exact ⟨hlt, hbuilds.fresh v hle (by rw [hlists.vars.1, h.size]; exact hlt)⟩
  · rintro ⟨hlt, hm⟩
    refine ⟨Nat.le_of_not_lt fun hold => hfresh v hold ?_, hlt⟩
    rw [← (hbuilds.contains.declared hold).1, hm]

/-- The types of the variables of one part of the scope. -/
theorem Declares.types {before part after : List (String × Ty)} (hparts : vs = before ++ part ++ after) :
    ((entries (p.vars.size + before.length) part).map (·.2)).map (fun v => (q.varAt v).type) =
      part.map (·.2) := by
  refine map_entries fun i v hv => ?_
  have hplace : vs[before.length + i]? = some v := by
    rw [hparts, List.append_assoc, List.getElem?_append_right (by omega), Nat.add_sub_cancel_left,
      List.getElem?_append_left (List.getElem?_eq_some_iff.1 hv).1, hv]
  rw [Nat.add_assoc]
  exact (h.built hlists hplace).2.2

/-- What the table says of a statement of the body. -/
theorem Declares.stmt {i : Nat} {s : StmtId} (hs : (rs.map (·.1))[i]? = some s) :
    s.idx < q.stmts.size ∧
      ∃ kind, q.stmtAt s = ⟨m, i, kind⟩ ∧ ∃ x, Resolves e.program scope x kind := by
  obtain ⟨x, hx, rfl⟩ := hlists.getElem?_stmts hs
  obtain ⟨kind, hkind, -, hq⟩ := hlists.stmt hx
  rw [h.method] at hq
  refine ⟨(Array.getElem?_eq_some_iff.1 hq).1, kind, ?_, x, hkind⟩
  rw [Program.stmtAt, Array.getD_eq_getD_getElem?, hq]
  rfl

end Built

end Builder

/-- Statements are of the kinds that they were resolved to. -/
theorem Builder.Lists.kind {scope : Builder.Scope} {p q : Program} {xs : List (StmtDef × Nat)}
    {rs : List (StmtId × StmtKind)} (h : Builder.Lists scope p xs rs q) {r : StmtId × StmtKind}
    (hr : r ∈ rs) : (q.stmtAt r.1).kind = r.2 := by
  induction h with
  | nil => cases hr
  | @cons p q x xs kind rs _ hrest ih =>
      rcases List.mem_cons.1 hr with rfl | hr
      · have hstmt := hrest.old (i := p.stmts.size) (x := ⟨scope.method, x.2, kind⟩)
          (by simp [Program.pushStmt])
        rw [Program.stmtAt, Array.getD_eq_getD_getElem?, hstmt]
        rfl
      · exact ih hr

/-- The variables of a statement are in the scope. -/
theorem Builder.Resolves.operand {scope : Builder.Scope} {p : Program} {s : StmtDef} {kind : StmtKind}
    (h : Builder.Resolves p scope s kind) (hp : p.Registered) {v : VarId} (hv : v ∈ kind.operands) :
    v ∈ scope.vars.map (·.2) := by
  have hfields (c : ClassId) (f : String × FieldId) (hf : f ∈ (p.classAt c).fields) :
      f.2.idx < p.fields.size := ((hp.fields.mem c f.1 f.2).1 hf).1
  obtain ⟨k, e, hrun, rfl, -⟩ := h 0 ⟨p, #[]⟩ ⟨fun _ => rfl, rfl⟩
  exact (Builder.ensures_resolveStmt (d := ⟨p, #[]⟩) hfields k e hrun).2.1 v hv

/-- Members are entered as before if the classes and the headers of the members are the same. -/
theorem Program.Registered.congr {p q : Program} (h : p.Registered) (hclasses : q.classes = p.classes)
    (hfields : q.fields = p.fields) (hsize : q.methods.size = p.methods.size)
    (hmethod : ∀ m, (q.methodAt m).owner = (p.methodAt m).owner ∧
      (q.methodAt m).ref = (p.methodAt m).ref) : q.Registered := by
  have hclass (c : ClassId) : q.classAt c = p.classAt c := by
    rw [Program.classAt, hclasses, Program.classAt]
  have hfield (f : FieldId) : q.fieldAt f = p.fieldAt f := by
    rw [Program.fieldAt, hfields, Program.fieldAt]
  refine ⟨?_, ?_, fun f hf => ?_, fun m hm => ?_⟩
  · simp only [hclass, hfield, hfields]
    exact h.fields
  · simp only [hclass, hsize]
    exact h.methods.congr fun m _ => ⟨(hmethod m).1, by rw [(hmethod m).2]⟩
  · rw [hfield, hclass, hclasses]
    rw [hfields] at hf
    exact h.fieldOwner f hf
  · rw [(hmethod m).1, (hmethod m).2, hclass, hclasses]
    rw [hsize] at hm
    exact h.methodOwner m hm

namespace Builder

section Body

variable {p : Program} {id : MethodId} {ps ls : List (String × Ty)} {thisScope paramScope scope : Scope}
  {e : Draft} {body : List StmtDef} {rs : List (StmtId × StmtKind)} {q : Program}

/-- The body that is built fits its method. -/
theorem fits_built {x : MethodDef} (hthis : thisScope.vars = entries p.vars.size (receiver p (p.methodAt id)))
    (hparam : paramScope.vars = entries p.vars.size (receiver p (p.methodAt id) ++ ps))
    (h : Declares p id (receiver p (p.methodAt id) ++ ps ++ ls) scope e.program)
    (hlists : Lists scope e.program body.zipIdx rs q)
    (hparams : ps.map (·.2) = (p.methodAt id).ref.subsignature.params)
    (hlocals : x.locals.mapM (fun v => (Ty.parse v.type).toOption) = some (ls.map (·.2)))
    (hscope : (receiver p (p.methodAt id) ++ ps ++ ls).map (·.1) = x.scope) (hnames : x.scope.Nodup)
    (hp : p.Registered) (hfresh : ∀ v, v.idx < p.vars.size → (p.varAt v).method ≠ id) :
    q.Fits id x {
      this? := thisScope.vars.head?.map (·.2)
      params := (paramScope.vars.drop thisScope.vars.length).map (·.2)
      returns := (rs.filterMap fun s => returned? s.2).eraseDups
      vars := scope.vars.map (·.2)
      stmts := rs.map (·.1) } := by
  -- the parts of the scope are consecutive: the receiver, the parameters, and the local variables
  have hmethod : q.methodAt id = p.methodAt id := by
    rw [(h.builds hlists).rest, Program.methodAt, Program.methodAt]
  have hregistered : e.program.Registered := by
    rw [h.program]
    exact hp.congr rfl rfl rfl fun _ => ⟨rfl, rfl⟩
  have hreceiver : (thisScope.vars.head?.map (·.2)).toList =
      (entries p.vars.size (receiver p (p.methodAt id))).map (·.2) := by
    rw [hthis, receiver]
    split <;> rfl
  have hparamIds : (paramScope.vars.drop thisScope.vars.length).map (·.2) =
      (entries (p.vars.size + (receiver p (p.methodAt id)).length) ps).map (·.2) := by
    rw [hthis, hparam, entries_append, List.drop_left]
  refine ⟨?_, ?_, ⟨(entries (p.vars.size + (receiver p (p.methodAt id) ++ ps).length) ls).map (·.2), ?_,
    ?_⟩, ?_, hnames, h.mem_iff hlists hfresh, fun i s hs => ?_, fun s hs v hv => ?_, ?_⟩
  · rw [hmethod, hthis, receiver]
    split <;> rename_i hstatic <;> simp [entries, hstatic]
  · rw [hmethod, ← hparams, hparamIds]
    exact h.types hlists rfl
  · rw [hreceiver, hparamIds, h.vars, entries_append, entries_append, List.map_append, List.map_append]
  · have hlast : receiver p (p.methodAt id) ++ ps ++ ls =
        receiver p (p.methodAt id) ++ ps ++ ls ++ [] := (List.append_nil _).symm
    rw [hlocals, h.types hlists hlast]
  · rw [h.vars, map_entries (g := (·.1)) fun i v hv => (h.built hlists hv).2.1]
    exact hscope
  · obtain ⟨hlt, kind, hq, -⟩ := h.stmt hlists hs
    rw [hq]
    exact ⟨hlt, rfl, rfl⟩
  · obtain ⟨i, hi⟩ := List.mem_iff_getElem?.1 hs
    obtain ⟨-, kind, hq, x, hx⟩ := h.stmt hlists hi
    rw [hq] at hv
    exact hx.operand hregistered hv
  · rw [List.filterMap_map]
    have hkinds : (rs.filterMap fun r => returned? r.2) =
        rs.filterMap ((fun s => returned? (q.stmtAt s).kind) ∘ (·.1)) :=
      List.filterMap_congr fun r hr => congrArg returned? (hlists.kind hr).symm
    exact congrArg List.eraseDups hkinds

end Body

/-- The types of variables that can be read can be read one by one. -/
theorem forall₂_of_mapM {vs : List VarDef} {ts : List Ty}
    (h : vs.mapM (fun v => (Ty.parse v.type).toOption) = some ts) :
    List.Forall₂ (fun v t => Ty.parse v.type = .ok t) vs ts := by
  induction vs generalizing ts with
  | nil =>
      cases h
      exact .nil
  | cons v vs ih =>
      rw [List.mapM_cons] at h
      obtain ⟨t, ht, h⟩ := Option.bind_eq_some_iff.1 h
      obtain ⟨us, hus, h⟩ := Option.bind_eq_some_iff.1 h
      cases h
      refine .cons ?_ (ih hus)
      -- Only the error of a type that cannot be read is lost.
      cases hparse : Ty.parse v.type with
      | ok t' =>
          rw [hparse] at ht
          exact congrArg Except.ok (Option.some.inj ht)
      | error err =>
          rw [hparse] at ht
          cases ht

/-- If the types of variables can be read, then there is one for each of them. -/
theorem types_of_mapM {vs : List VarDef} {ts : List Ty}
    (h : vs.mapM (fun v => (Ty.parse v.type).toOption) = some ts) :
    ts.length = vs.length ∧ ∀ v ∈ vs, IsType v.type := by
  have hread := forall₂_of_mapM h
  refine ⟨hread.length_eq.symm, fun v hv => ?_⟩
  obtain ⟨i, hi, rfl⟩ := List.getElem_of_mem hv
  exact ⟨_, (List.forall₂_iff_get.1 hread).2 i hi (hread.length_eq ▸ hi)⟩

/-- The names of variables are different if those of each part are, and no part has a name of another
one. -/
theorem nodup_scope_iff (x : MethodDef) : x.scope.Nodup ↔ ((x.params.map (·.name)).Nodup ∧
    ∀ y ∈ (if x.isStatic then [] else ["this"]), y ∉ x.params.map (·.name)) ∧
      (x.locals.map (·.name)).Nodup ∧
        ∀ y ∈ (if x.isStatic then [] else ["this"]) ++ x.params.map (·.name),
          y ∉ x.locals.map (·.name) := by
  have hthis : (if x.isStatic then [] else ["this"]).Nodup := by
    split <;> simp
  have hdisjoint (l l' : List String) : (∀ a ∈ l, ∀ b ∈ l', a ≠ b) ↔ ∀ y ∈ l, y ∉ l' :=
    ⟨fun h y hy hy' => h y hy y hy' rfl, fun h a ha b hb hab => h a ha (hab ▸ hb)⟩
  rw [MethodDef.scope, List.nodup_append, List.nodup_append, hdisjoint, hdisjoint, and_assoc,
    and_iff_right hthis]

/-- A body is built if it is right. -/
theorem decides_buildBody {d : ProgramDef} {M : ClassId → List MethodDef} {e : Draft} {id : MethodId}
    {x : MethodDef} (h : e.program.Realizes d (d.membersAt (·.fields)) M) (hp : e.program.Registered)
    (hx : x.Heads (e.program.methodAt id))
    (hfresh : ∀ v, v.idx < e.program.vars.size → (e.program.varAt v).method ≠ id) :
    Decides (buildBody id x) e (d.RightBody x) fun b e' =>
      Builds id e.program e'.program ∧ e'.program.Fits id x b := by
  -- the types of the parameters were read when the method was declared
  obtain ⟨pts, hpts, hsubsignature⟩ := Option.bind_eq_some_iff.1 hx.subsignature
  obtain ⟨t, -, hsubsignature⟩ := Option.bind_eq_some_iff.1 hsubsignature
  have hparams : (e.program.methodAt id).ref.subsignature.params = pts :=
    (congrArg Subsignature.params (Option.some.inj hsubsignature)).symm
  obtain ⟨hlength, htypes⟩ := types_of_mapM hpts
  have hthis : (receiver e.program (e.program.methodAt id)).map (·.1) =
      if x.isStatic then [] else ["this"] := by
    rw [receiver, hx.isStatic]
    split <;> rfl
  have hstart : Declares e.program id [] ⟨id, e.program.methodText id, []⟩ e.program :=
    ⟨rfl, rfl, by simp⟩
  refine .program (Decides.congr (P := True ∧ ((∀ v ∈ x.params, IsType v.type) ∧
    (x.params.map (·.name)).Nodup ∧ ∀ y ∈ (if x.isStatic then [] else ["this"]),
      y ∉ x.params.map (·.name)) ∧ ((∀ v ∈ x.locals, IsType v.type) ∧
        (x.locals.map (·.name)).Nodup ∧ ∀ y ∈ (if x.isStatic then [] else ["this"]) ++
          x.params.map (·.name), y ∉ x.locals.map (·.name)) ∧
            (∀ s ∈ x.body, (∀ y ∈ s.vars, y ∈ x.scope) ∧ d.RightReferences s) ∧ True) ?_ ?_)
  · refine (decides_declareThis _ hstart).bind fun _ thisScope e₁ h₁ => ?_
    refine ((decides_declareVars h₁ x.params).congr (by rw [hthis])).bind
      fun hparamNames paramScope e₂ ⟨ts, hts, h₂⟩ => ?_
    obtain rfl : ts = pts := Option.some.inj (hts.symm.trans hpts)
    have hparamVars : ((receiver e.program (e.program.methodAt id) ++
        (x.params.map (·.name)).zip ts).map (·.1)) =
          (if x.isStatic then [] else ["this"]) ++ x.params.map (·.name) := by
      rw [List.map_append, hthis, List.map_fst_zip (by simp [hlength])]
    refine ((decides_declareVars h₂ x.locals).congr (by rw [hparamVars])).bind
      fun hlocalNames scope e₃ ⟨ls, hls, h₃⟩ => ?_
    have hscope : (receiver e.program (e.program.methodAt id) ++ (x.params.map (·.name)).zip ts ++
        (x.locals.map (·.name)).zip ls).map (·.1) = x.scope := by
      rw [List.map_append, hparamVars, List.map_fst_zip (by simp [(types_of_mapM hls).1]),
        MethodDef.scope]
    have hresolve : ResolvesAlike d e₃.program :=
      (h.congr (q := e₃.program) (by rw [h₃.program]) (by rw [h₃.program])
        (by rw [h₃.program])).resolveField?_iff
    refine ((decides_addStmts scope hresolve x.body).congr (by rw [h₃.names, hscope])).bind
      fun _ rs e₄ hlists => .pure ⟨h₃.builds hlists, ?_⟩
    refine fits_built h₁.vars h₂.vars h₃ hlists ?_ ?_ hscope ?_ hp hfresh
    · rw [hparams, List.map_snd_zip (by simp [hlength])]
    · rw [hls, List.map_snd_zip (by simp [(types_of_mapM hls).1])]
    · exact (nodup_scope_iff x).2 ⟨hparamNames.2, hlocalNames.2⟩
  · constructor
    · intro hbody
      have hnames := (nodup_scope_iff x).1 hbody.names
      exact ⟨trivial, ⟨htypes, hnames.1⟩, ⟨hbody.types, hnames.2⟩,
        fun s hs => ⟨hbody.vars s hs, hbody.references s hs⟩, trivial⟩
    · rintro ⟨-, ⟨-, hparamNames⟩, ⟨hlocalTypes, hlocalNames⟩, hstmts, -⟩
      exact ⟨(nodup_scope_iff x).2 ⟨hparamNames, hlocalNames⟩, hlocalTypes,
        fun s hs => (hstmts s hs).1, fun s hs => (hstmts s hs).2⟩

end Builder

end PointsTo
