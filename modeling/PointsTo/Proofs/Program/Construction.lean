import PointsTo.Proofs.Program.Ensures
import PointsTo.Proofs.Program.WellFormed

/-! # Loaded programs are well-formed

Every phase of the construction keeps the program well-formed. Classes, links, fields and methods
without a body only add to tables. A body is built statement by statement: meanwhile the tables of
variables and statements stay indexed, and all that is added belongs to the method under
construction, so that the finished body lists exactly the statements of its method.
-/

namespace PointsTo

/-- A default is needed beyond the pushed element only. -/
theorem getD_push {α : Type} (a : Array α) (x y : α) (i : Nat) :
    (a.push x).getD i y = if i = a.size then x else a.getD i y := by
  simp only [Array.getD_eq_getD_getElem?, Array.getElem?_push]
  split <;> rfl

/-- Only the element at the index is modified, if there is one. -/
theorem getD_modify {α : Type} (a : Array α) (f : α → α) (y : α) (i j : Nat) :
    (a.modify i f).getD j y = if i = j ∧ j < a.size then f (a.getD j y) else a.getD j y := by
  simp only [Array.getD_eq_getD_getElem?, Array.getElem?_modify]
  by_cases h : i = j
  · subst h
    by_cases hi : i < a.size <;> simp [hi]
  · simp [h]

namespace Program

/-! ## Tables that grow while a body is built -/

/-- From `p` to `q`, variables were added, and statements of the method `m`. -/
structure Grows (m : MethodId) (p q : Program) : Prop where
  classes : q.classes = p.classes
  fields : q.fields = p.fields
  methods : q.methods = p.methods
  entry : q.entry? = p.entry?
  owns : ∀ n v, p.Owns n v → q.Owns n v
  size : p.stmts.size ≤ q.stmts.size
  stmt : ∀ s, s.idx < p.stmts.size → q.stmtAt s = p.stmtAt s
  fresh : ∀ s, p.stmts.size ≤ s.idx → s.idx < q.stmts.size → (q.stmtAt s).method = m

theorem Grows.refl (m : MethodId) (p : Program) : Grows m p p :=
  ⟨rfl, rfl, rfl, rfl, fun _ _ h => h, Nat.le_refl _, fun _ _ => rfl, fun _ h h' => by omega⟩

/-- Tables that grow twice have grown. -/
theorem Grows.trans {m : MethodId} {p q r : Program} (hpq : Grows m p q) (hqr : Grows m q r) :
    Grows m p r where
  classes := hqr.classes.trans hpq.classes
  fields := hqr.fields.trans hpq.fields
  methods := hqr.methods.trans hpq.methods
  entry := hqr.entry.trans hpq.entry
  owns n v h := hqr.owns n v (hpq.owns n v h)
  size := Nat.le_trans hpq.size hqr.size
  stmt s h := (hqr.stmt s (Nat.lt_of_lt_of_le h hpq.size)).trans (hpq.stmt s h)
  fresh s h h' := by
    by_cases hs : s.idx < q.stmts.size
    · rw [hqr.stmt s hs]
      exact hpq.fresh s h hs
    · exact hqr.fresh s (Nat.le_of_not_lt hs) h'

def pushVar (p : Program) (x : Var) : Program := { p with vars := p.vars.push x }

/-- A new variable comes last, and the others stay where they are. -/
theorem varAt_pushVar (p : Program) (x : Var) (v : VarId) :
    (p.pushVar x).varAt v = if v.idx = p.vars.size then x else p.varAt v :=
  getD_push _ _ _ _

/-- Variables keep their methods when another one is pushed. -/
theorem owns_pushVar {p : Program} {x : Var} {m : MethodId} {v : VarId} (h : p.Owns m v) :
    (p.pushVar x).Owns m v := by
  obtain ⟨hlt, hm⟩ := h
  refine ⟨?_, ?_⟩
  · simp only [pushVar, Array.size_push]
    omega
  · rw [varAt_pushVar, if_neg (by omega), hm]

/-- The new variable belongs to its method. -/
theorem owns_pushVar_self (p : Program) (x : Var) :
    (p.pushVar x).Owns x.method ⟨p.vars.size⟩ := by
  refine ⟨?_, ?_⟩
  · simp [pushVar]
  · rw [varAt_pushVar, if_pos rfl]

/-- A new variable is growth, whatever the method. -/
theorem grows_pushVar (m : MethodId) (p : Program) (x : Var) : Grows m p (p.pushVar x) :=
  ⟨rfl, rfl, rfl, rfl, fun _ _ h => owns_pushVar h, Nat.le_refl _, fun _ _ => rfl,
    fun _ h h' => absurd h (Nat.not_le_of_lt h')⟩

/-- A new variable is the base of no statement, so its index is rightly empty. -/
theorem Indexed.pushVar {p : Program} (h : p.Indexed) {x : Var} (hx : ∀ k, x.uses k = []) :
    (p.pushVar x).Indexed where
  operand s hs v hv := owns_pushVar (h.operand s hs v hv)
  field := h.field
  use k v s := by
    rw [varAt_pushVar]
    -- an operand of a statement is a variable that was there before, so none of them is the new one
    split
    · rename_i hv
      have hne : (p.stmtAt s).kind.access? ≠ some (k, v) := by
        intro ha
        have hs : s.idx < p.stmts.size := by
          refine lt_size_of_kind fun hret => ?_
          rw [hret] at ha
          cases ha
        have := (h.operand s hs v (StmtKind.mem_operands_of_access ha)).1
        omega
      rw [hx]
      exact ⟨fun hs => absurd hs List.not_mem_nil, fun ha => absurd ha hne⟩
    · exact h.use k v s
  sorted k v := by
    rw [varAt_pushVar]
    split
    · simp [hx]
    · exact h.sorted k v

/-- The program with one more statement, which is entered in the index of its base variable. -/
def pushStmt (p : Program) (x : Stmt) : Program :=
  { p with
    stmts := p.stmts.push x
    vars := Builder.indexStmt ⟨p.stmts.size⟩ x.kind p.vars }

/-- A new statement comes last, and the others stay where they are. -/
theorem stmtAt_pushStmt (p : Program) (x : Stmt) (s : StmtId) :
    (p.pushStmt x).stmtAt s = if s.idx = p.stmts.size then x else p.stmtAt s :=
  getD_push _ _ _ _

theorem size_vars_pushStmt (p : Program) (x : Stmt) :
    (p.pushStmt x).vars.size = p.vars.size := by
  rw [pushStmt, Builder.indexStmt_eq]
  cases x.kind.access? <;> simp

/-- A variable after its statement was indexed: only the base variable has changed. -/
theorem varAt_pushStmt (p : Program) (x : Stmt) (v : VarId) :
    (p.pushStmt x).varAt v =
      x.kind.access?.elim (p.varAt v) fun a =>
        if a.2 = v ∧ v.idx < p.vars.size then (p.varAt v).addUse a.1 ⟨p.stmts.size⟩
        else p.varAt v := by
  rw [pushStmt, varAt, Builder.indexStmt_eq]
  rcases x.kind.access? with _ | ⟨k, base⟩
  · rfl
  · simp only [Option.elim_some, getD_modify]
    -- Identifiers are compared by their numbers in the table.
    have hbase : base.idx = v.idx ↔ base = v := by
      constructor
      · intro h
        cases base
        cases v
        exact congrArg VarId.mk h
      · rintro rfl
        rfl
    simp only [hbase]
    rfl

/-- Entering a statement in an index changes no method. -/
theorem varAt_pushStmt_method (p : Program) (x : Stmt) (v : VarId) :
    ((p.pushStmt x).varAt v).method = (p.varAt v).method := by
  rw [varAt_pushStmt]
  rcases x.kind.access? with _ | a
  · rfl
  · simp only [Option.elim_some]
    split
    · exact Var.addUse_method _ _ _
    · rfl

/-- Entering a statement in an index changes no owner. -/
theorem owns_pushStmt {p : Program} {x : Stmt} {m : MethodId} {v : VarId} :
    (p.pushStmt x).Owns m v ↔ p.Owns m v := by
  rw [Owns, Owns, size_vars_pushStmt, varAt_pushStmt_method]

/-- A new statement is growth of its method. -/
theorem grows_pushStmt (p : Program) (x : Stmt) : Grows x.method p (p.pushStmt x) where
  classes := rfl
  fields := rfl
  methods := rfl
  entry := rfl
  owns _ _ h := owns_pushStmt.2 h
  size := by simp [pushStmt]
  stmt s h := by rw [stmtAt_pushStmt, if_neg (by omega)]
  fresh s h h' := by
    simp only [pushStmt, Array.size_push] at h'
    rw [stmtAt_pushStmt, if_pos (by omega)]

/-- The uses of a variable after a statement was added. -/
theorem mem_uses_pushStmt {p : Program} {x : Stmt} (hx : ∀ v ∈ x.kind.operands, p.Owns x.method v)
    (k : AccessKind) (v : VarId) (s : StmtId) :
    s ∈ ((p.pushStmt x).varAt v).uses k ↔
      s ∈ (p.varAt v).uses k ∨ s = ⟨p.stmts.size⟩ ∧ x.kind.access? = some (k, v) := by
  rw [varAt_pushStmt]
  rcases ha : x.kind.access? with _ | ⟨k', base⟩
  · simp
  · have hbase := (hx base (StmtKind.mem_operands_of_access ha)).1
    simp only [Option.elim_some, Option.some.injEq, Prod.mk.injEq]
    by_cases hv : base = v
    · subst hv
      rw [if_pos ⟨rfl, hbase⟩, Var.uses_addUse]
      by_cases hk : k = k'
      · subst hk
        simp
      · simp [hk, Ne.symm hk]
    · simp [hv]

/-- The statements of an index are in the table. -/
theorem Indexed.use_lt {p : Program} (h : p.Indexed) {k : AccessKind} {v : VarId} {s : StmtId}
    (hs : s ∈ (p.varAt v).uses k) : s.idx < p.stmts.size := by
  refine lt_size_of_kind fun hret => ?_
  have ha := (h.use k v s).1 hs
  rw [hret] at ha
  cases ha

/-- A new statement over variables of its method and fields of the table keeps the statements indexed.
-/
theorem Indexed.pushStmt {p : Program} (h : p.Indexed) {x : Stmt}
    (hx : ∀ v ∈ x.kind.operands, p.Owns x.method v)
    (hf : ∀ f, x.kind.field? = some f → f.idx < p.fields.size) : (p.pushStmt x).Indexed where
  operand s hs v hv := by
    rw [owns_pushStmt]
    rw [stmtAt_pushStmt] at hv ⊢
    split at hv
    · rename_i heq
      rw [if_pos heq]
      exact hx v hv
    · rename_i hne
      rw [if_neg hne]
      refine h.operand s ?_ v hv
      simp only [Program.pushStmt, Array.size_push] at hs
      omega
  field s f hs := by
    rw [stmtAt_pushStmt] at hs
    split at hs
    · exact hf f hs
    · exact h.field s f hs
  use k v s := by
    rw [mem_uses_pushStmt hx, stmtAt_pushStmt, h.use]
    by_cases hs : s.idx = p.stmts.size
    · have hnone : (p.stmtAt s).kind.access? = none := by
        rw [stmtAt_of_le (by omega)]
        rfl
      have hid : s = ⟨p.stmts.size⟩ := by
        cases s
        exact congrArg StmtId.mk hs
      rw [if_pos hs, hnone]
      simp [hid]
    · have hid : s ≠ ⟨p.stmts.size⟩ := by
        rintro rfl
        exact hs rfl
      rw [if_neg hs]
      simp [hid]
  sorted k v := by
    have hold := h.sorted k v
    -- the new statement has a greater identifier than all statements before it
    have hnew : ((p.varAt v).uses k ++ [StmtId.mk p.stmts.size]).Pairwise (·.idx < ·.idx) := by
      rw [List.pairwise_append]
      refine ⟨hold, List.pairwise_singleton _ _, fun s hs t ht => ?_⟩
      rw [List.mem_singleton.1 ht]
      exact h.use_lt hs
    rw [varAt_pushStmt]
    rcases x.kind.access? with _ | ⟨k', base⟩
    · exact hold
    · simp only [Option.elim_some]
      split
      · rw [Var.uses_addUse]
        split
        · rename_i hk
          subst hk
          exact hnew
        · exact hold
      · exact hold

end Program

namespace Builder

/-! ## Statements -/

/-- Reading a type leaves everything as it is. -/
theorem ensures_readType {s : String} {d : Draft} :
    Ensures (readType s) d fun _ d' => d' = d := by
  unfold readType
  split <;> simp

theorem ensures_readMethodRef {s : String} {d : Draft} :
    Ensures (readMethodRef s) d fun _ d' => d' = d := by
  unfold readMethodRef
  split <;> simp

theorem ensures_readFieldRef {s : String} {d : Draft} :
    Ensures (readFieldRef s) d fun _ d' => d' = d := by
  unfold readFieldRef
  split <;> simp

def Scope.ids (scope : Scope) : List VarId := scope.vars.map (·.2)

/-- A variable that is found belongs to the scope. -/
theorem ensures_findVar {scope : Scope} {name : String} {d : Draft} :
    Ensures (findVar scope name) d fun v d' => d' = d ∧ v ∈ scope.ids := by
  unfold findVar
  split
  · rename_i v hv
    rw [ensures_pure]
    exact ⟨rfl, List.mem_map.2 ⟨_, Program.mem_of_lookup hv, rfl⟩⟩
  · exact ensures_throw

/-- A variable that is found belongs to the scope, if there is a name for it. -/
theorem ensures_findVar? {scope : Scope} {name : Option String} {d : Draft} :
    Ensures (findVar? scope name) d fun v d' => d' = d ∧ ∀ w ∈ v, w ∈ scope.ids := by
  cases name with
  | none => simp [findVar?]
  | some name =>
      simp only [findVar?, ensures_bind, ensures_pure]
      refine ensures_findVar.mono ?_
      rintro v d' ⟨rfl, hv⟩
      simpa using hv

/-- A field that is found is in the table. -/
theorem ensures_findField {scope : Scope} {index : Nat} {ref : String} {onInstance : Bool}
    {d : Draft}
    (hd : ∀ c, ∀ e ∈ (d.program.classAt c).fields, e.2.idx < d.program.fields.size) :
    Ensures (findField scope index ref onInstance) d
      fun f d' => d' = d ∧ f.idx < d.program.fields.size := by
  simp only [findField, ensures_bind]
  refine ensures_readFieldRef.mono ?_
  rintro r d' rfl
  rw [ensures_program]
  split
  · exact ensures_throw
  · rename_i f hf
    -- The field was found among those of a class, which are in the table.
    have hlt : f.idx < d'.program.fields.size := by
      simp only [Program.resolveField?, Option.bind_eq_bind, Option.bind_eq_some_iff] at hf
      obtain ⟨c, -, hf⟩ := hf
      obtain ⟨k, -, hk⟩ := List.exists_of_findSome?_eq_some hf
      exact hd k _ (Program.mem_of_lookup hk)
    refine Ensures.ite (fun _ => by simp) fun _ => ?_
    exact Ensures.ite (fun _ => by simp) fun _ => ensures_pure.2 ⟨rfl, hlt⟩

/-- The base variable of a call belongs to the scope. -/
theorem ensures_resolveBinding {scope : Scope} {index : Nat} {kind : CallKind}
    {base : Option String} {d : Draft} :
    Ensures (resolveBinding scope index kind base) d
      fun b d' => d' = d ∧ ∀ v ∈ b.base?, v ∈ scope.ids := by
  -- All kinds with a receiver look it up in the same way.
  have hfound : ∀ (bind : VarId → Binding) (name : String), (∀ v, (bind v).base? = some v) →
      Ensures (do return bind (← findVar scope name)) d
        fun b d' => d' = d ∧ ∀ v ∈ b.base?, v ∈ scope.ids := by
    intro bind name hbind
    rw [ensures_bind]
    refine ensures_findVar.mono ?_
    rintro v d' ⟨rfl, hv⟩
    rw [ensures_pure, hbind]
    simpa using hv
  cases base with
  | none => cases kind <;> simp [resolveBinding, Binding.base?]
  | some base =>
      cases kind with
      | static => exact ensures_throw
      | special => exact hfound .special base fun _ => rfl
      | virtual => exact hfound .virtual base fun _ => rfl
      | interface => exact hfound .interface base fun _ => rfl

/-- Names that are looked up in turn are variables of the scope. -/
theorem ensures_mapM_findVar {scope : Scope} {names : List String} {d : Draft} :
    Ensures (names.mapM (findVar scope)) d fun vs d' => d' = d ∧ ∀ v ∈ vs, v ∈ scope.ids := by
  refine Ensures.mapM ?_ ⟨rfl, by simp⟩
  rintro name - vs d' ⟨rfl, hvs⟩
  refine ensures_findVar.mono ?_
  rintro v d' ⟨rfl, hv⟩
  refine ⟨rfl, fun w hw => ?_⟩
  rcases List.mem_append.1 hw with hw | hw
  · exact hvs w hw
  · exact List.mem_singleton.1 hw ▸ hv

section Lookups

variable {α : Type} {scope : Scope} {d : Draft} {Q : α → Draft → Prop}

/-- What follows the lookup of a variable may rely on the variable being one of the scope. -/
theorem Ensures.findVar {name : String} {next : VarId → Builder α}
    (h : ∀ v ∈ scope.ids, Ensures (next v) d Q) : Ensures (findVar scope name >>= next) d Q := by
  rw [ensures_bind]
  refine ensures_findVar.mono ?_
  rintro v d' ⟨rfl, hv⟩
  exact h v hv

/-- What follows the lookup of a field may rely on the field being one of the table. -/
theorem Ensures.findField {index : Nat} {ref : String} {onInstance : Bool} {next : FieldId → Builder α}
    (hd : ∀ c, ∀ e ∈ (d.program.classAt c).fields, e.2.idx < d.program.fields.size)
    (h : ∀ f : FieldId, f.idx < d.program.fields.size → Ensures (next f) d Q) :
    Ensures (findField scope index ref onInstance >>= next) d Q := by
  rw [ensures_bind]
  refine (ensures_findField hd).mono ?_
  rintro f d' ⟨rfl, hf⟩
  exact h f hf

end Lookups

/-- Resolving a statement leaves the program as it is; the statement is about variables of the scope
and fields of the table. -/
theorem ensures_resolveStmt {scope : Scope} {index : Nat} {s : StmtDef} {d : Draft}
    (hd : ∀ c, ∀ e ∈ (d.program.classAt c).fields, e.2.idx < d.program.fields.size) :
    Ensures (resolveStmt scope index s) d fun kind d' =>
      d'.program = d.program ∧ (∀ v ∈ kind.operands, v ∈ scope.ids) ∧
        ∀ f, kind.field? = some f → f.idx < d.program.fields.size := by
  -- a statement looks up its variables and its field one after the other
  cases s with
  | new lhs type =>
      simp only [resolveStmt, ensures_bind]
      refine ensures_readType.mono ?_
      rintro t d' rfl
      refine Ensures.ite (fun _ => by simp) fun _ => ?_
      refine Ensures.findVar fun v hv => ?_
      simp [StmtKind.operands, StmtKind.field?, hv]
  | copy lhs rhs =>
      refine Ensures.findVar fun v hv => ?_
      refine Ensures.findVar fun w hw => ?_
      simp [StmtKind.operands, StmtKind.field?, hv, hw]
  | storeField base field rhs =>
      cases base with
      | none =>
          refine Ensures.findField hd fun f hf => ?_
          refine Ensures.findVar fun w hw => ?_
          simp [StmtKind.operands, StmtKind.field?, hw, hf]
      | some base =>
          refine Ensures.findVar fun v hv => ?_
          refine Ensures.findField hd fun f hf => ?_
          refine Ensures.findVar fun w hw => ?_
          simp [StmtKind.operands, StmtKind.field?, hv, hw, hf]
  | loadField lhs base field =>
      cases base with
      | none =>
          refine Ensures.findVar fun w hw => ?_
          refine Ensures.findField hd fun f hf => ?_
          simp [StmtKind.operands, StmtKind.field?, hw, hf]
      | some base =>
          refine Ensures.findVar fun v hv => ?_
          refine Ensures.findVar fun w hw => ?_
          refine Ensures.findField hd fun f hf => ?_
          simp [StmtKind.operands, StmtKind.field?, hv, hw, hf]
  | storeArray base rhs =>
      refine Ensures.findVar fun v hv => ?_
      refine Ensures.findVar fun w hw => ?_
      simp [StmtKind.operands, StmtKind.field?, hv, hw]
  | loadArray lhs base =>
      refine Ensures.findVar fun v hv => ?_
      refine Ensures.findVar fun w hw => ?_
      simp [StmtKind.operands, StmtKind.field?, hv, hw]
  | invoke kind base method args result =>
      simp only [resolveStmt, ensures_bind]
      refine ensures_readMethodRef.mono ?_
      rintro target d' rfl
      refine ensures_resolveBinding.mono ?_
      rintro binding d' ⟨rfl, hbase⟩
      refine ensures_mapM_findVar.mono ?_
      rintro vs d' ⟨rfl, hvs⟩
      -- whether or not the number of arguments is reported, the result is looked up next
      have hend : ∀ d₁ : Draft, d₁.program = d'.program →
          Ensures (do return StmtKind.invoke ⟨binding, target, vs, ← findVar? scope result⟩) d₁
            fun kind d₂ => d₂.program = d'.program ∧ (∀ v ∈ kind.operands, v ∈ scope.ids) ∧
              ∀ f, kind.field? = some f → f.idx < d'.program.fields.size := by
        intro d₁ hd₁
        rw [ensures_bind]
        refine ensures_findVar?.mono ?_
        rintro r d₂ ⟨rfl, hr⟩
        rw [ensures_pure]
        refine ⟨hd₁, fun v hv => ?_, by simp [StmtKind.field?]⟩
        simp only [StmtKind.operands, List.mem_append, Option.mem_toList] at hv
        rcases hv with (hv | hv) | hv
        · exact hbase v hv
        · exact hvs v hv
        · exact hr v hv
      refine Ensures.ite (fun _ => ?_) fun _ => hend d' rfl
      rw [ensures_bind, ensures_report]
      exact hend _ rfl
  | ret value =>
      simp only [resolveStmt, ensures_bind, ensures_pure]
      refine ensures_findVar?.mono ?_
      rintro v d' ⟨rfl, hv⟩
      exact ⟨rfl, fun w hw => hv w (by simpa [StmtKind.operands] using hw),
        by simp [StmtKind.field?]⟩

/-! ## Bodies -/

/-- The scope of a method while its variables are declared, in a construction that started from
`p`. -/
structure Declaring (p : Program) (scope : Scope) (d : Draft) : Prop where
  indexed : d.program.Indexed
  grows : p.Grows scope.method d.program
  stmts : d.program.stmts = p.stmts
  owns : ∀ v ∈ scope.ids, d.program.Owns scope.method v

/-- The second scope is the first one with more variables. -/
structure Scope.Within (scope scope' : Scope) : Prop where
  method : scope'.method = scope.method
  ids : ∀ v ∈ scope.ids, v ∈ scope'.ids

theorem Scope.Within.refl (scope : Scope) : scope.Within scope := ⟨rfl, fun _ h => h⟩

theorem Scope.Within.trans {a b c : Scope} (hab : a.Within b) (hbc : b.Within c) : a.Within c :=
  ⟨hbc.method.trans hab.method, fun v h => hbc.ids v (hab.ids v h)⟩

/-- Declaring a variable extends the scope by a variable of the method. -/
theorem ensures_declareVar {p : Program} {scope : Scope} {name : String} {type : Ty} {d : Draft}
    (h : Declaring p scope d) :
    Ensures (declareVar scope name type) d fun scope' d' =>
      scope.Within scope' ∧ Declaring p scope' d' := by
  simp only [declareVar]
  refine Ensures.ite (fun _ => by simp) fun _ => ?_
  simp only [ensures_bind, ensures_program, ensures_update, ensures_pure]
  refine ⟨⟨rfl, fun v hv => by simp_all [Scope.ids]⟩, ?_, ?_, h.stmts, ?_⟩
  · exact h.indexed.pushVar fun k => by cases k <;> rfl
  · exact h.grows.trans (Program.grows_pushVar _ _ _)
  · intro v hv
    simp only [Scope.ids, List.map_append, List.map_cons, List.map_nil, List.mem_append,
      List.mem_singleton] at hv
    rcases hv with hv | rfl
    · exact Program.owns_pushVar (h.owns v hv)
    · exact Program.owns_pushVar_self d.program _

/-- Declaring the receiver extends the scope, if the method has one. -/
theorem ensures_declareThis {p : Program} {scope : Scope} {m : Method} {d : Draft}
    (h : Declaring p scope d) :
    Ensures (declareThis scope m) d fun scope' d' =>
      scope.Within scope' ∧ Declaring p scope' d' := by
  unfold declareThis
  refine Ensures.ite (fun _ => ensures_pure.2 ⟨.refl scope, h⟩) fun _ => ?_
  rw [ensures_bind, ensures_program]
  exact ensures_declareVar h

/-- Declaring variables extends the scope. -/
theorem ensures_declareVars {p : Program} {scope : Scope} {ds : List VarDef} {d : Draft}
    (h : Declaring p scope d) :
    Ensures (declareVars scope ds) d fun scope' d' =>
      scope.Within scope' ∧ Declaring p scope' d' := by
  refine Ensures.foldlM ?_ ⟨.refl scope, h⟩
  rintro x - scope' d' ⟨hin, h'⟩
  rw [ensures_bind]
  refine ensures_readType.mono ?_
  rintro t d'' rfl
  refine (ensures_declareVar h').mono ?_
  rintro scope'' d'' ⟨hin', h''⟩
  exact ⟨hin.trans hin', h''⟩

/-- The statements of a method while they are added, in a construction that started from `p`. -/
structure Listing (p : Program) (scope : Scope) (rs : List (StmtId × StmtKind)) (d : Draft) :
    Prop where
  indexed : d.program.Indexed
  grows : p.Grows scope.method d.program
  owns : ∀ v ∈ scope.ids, d.program.Owns scope.method v
  listed : ∀ s, s ∈ rs.map (·.1) ↔ p.stmts.size ≤ s.idx ∧ s.idx < d.program.stmts.size
  sorted : (rs.map (·.1)).Pairwise (·.idx < ·.idx)
  kind : ∀ r ∈ rs, (d.program.stmtAt r.1).kind = r.2

/-- The new statement is the last one of the list. -/
theorem Listing.pushStmt {p : Program} {scope : Scope} {rs : List (StmtId × StmtKind)} {d : Draft}
    (h : Listing p scope rs d) {log : Log} {index : Nat} {kind : StmtKind}
    (hv : ∀ v ∈ kind.operands, v ∈ scope.ids)
    (hf : ∀ f, kind.field? = some f → f.idx < d.program.fields.size) :
    Listing p scope (rs ++ [(⟨d.program.stmts.size⟩, kind)])
      ⟨d.program.pushStmt ⟨scope.method, index, kind⟩, log⟩ where
  indexed := h.indexed.pushStmt (fun v hk => h.owns v (hv v hk)) hf
  grows := h.grows.trans (Program.grows_pushStmt d.program ⟨scope.method, index, kind⟩)
  owns v hs := Program.owns_pushStmt.2 (h.owns v hs)
  listed s := by
    -- The new statement is the first one behind those of the table.
    have hsize := h.grows.size
    have hid : s = ⟨d.program.stmts.size⟩ ↔ s.idx = d.program.stmts.size := by
      cases s
      simp
    simp only [List.map_append, List.mem_append, h.listed, List.map_cons, List.map_nil,
      List.mem_singleton, hid, Program.pushStmt, Array.size_push]
    omega
  sorted := by
    rw [List.map_append, List.pairwise_append]
    -- Numbers of old statements are smaller than the size of the table, which is the number of the new
    -- one.
    refine ⟨h.sorted, by simp, fun s hs t ht => ?_⟩
    simp only [List.map_cons, List.map_nil, List.mem_singleton] at ht
    rw [ht]
    exact ((h.listed s).1 hs).2
  kind r hr := by
    rcases List.mem_append.1 hr with hr | hr
    · have hlt := ((h.listed r.1).1 (List.mem_map.2 ⟨r, hr, rfl⟩)).2
      rw [Program.stmtAt_pushStmt, if_neg (by omega)]
      exact h.kind r hr
    · rw [List.mem_singleton.1 hr, Program.stmtAt_pushStmt, if_pos rfl]

/-- Adding a statement lists one more. -/
theorem ensures_addStmt {p : Program} {scope : Scope} {rs : List (StmtId × StmtKind)} {d : Draft}
    {x : StmtDef × Nat} (h : Listing p scope rs d)
    (hf : ∀ c, ∀ e ∈ (p.classAt c).fields, e.2.idx < p.fields.size) :
    Ensures (addStmt scope x) d fun r => Listing p scope (rs ++ [r]) := by
  have hfields : ∀ c, ∀ e ∈ (d.program.classAt c).fields, e.2.idx < d.program.fields.size := by
    intro c e he
    rw [Program.classAt, h.grows.classes] at he
    rw [h.grows.fields]
    exact hf c e he
  simp only [addStmt, ensures_bind]
  refine (ensures_resolveStmt hfields).mono ?_
  rintro kind ⟨q, log⟩ ⟨rfl, hv, hk⟩
  simp only [ensures_program, ensures_update, ensures_pure]
  exact h.pushStmt hv hk

/-- The variable that a statement returns, if any. -/
theorem returned?_eq_some_iff {kind : StmtKind} {v : VarId} :
    returned? kind = some v ↔ kind = .ret (some v) := by
  cases kind <;> simp [returned?]

/-- The body that is built lists the statements of its method, if there were none before. -/
theorem ensures_buildBody {id : MethodId} {x : MethodDef} {d : Draft} (hi : d.program.Indexed)
    (hf : ∀ c, ∀ e ∈ (d.program.classAt c).fields, e.2.idx < d.program.fields.size)
    (hnew : ∀ s, s.idx < d.program.stmts.size → (d.program.stmtAt s).method ≠ id) :
    Ensures (buildBody id x) d fun b d' =>
      d'.program.Indexed ∧ d.program.Grows id d'.program ∧ d'.program.BodyOf id b := by
  -- receiver, parameters and local variables are declared one after the other; each scope holds the one
  -- before it
  simp only [buildBody, ensures_bind, ensures_program, ensures_pure]
  have h₀ : Declaring d.program ⟨id, d.program.methodText id, []⟩ d :=
    ⟨hi, Program.Grows.refl _ _, rfl, by simp [Scope.ids]⟩
  refine (ensures_declareThis h₀).mono ?_
  rintro thisScope d₁ ⟨hthis, h₁⟩
  refine (ensures_declareVars h₁).mono ?_
  rintro paramScope d₂ ⟨hparams, h₂⟩
  refine (ensures_declareVars h₂).mono ?_
  rintro scope d₃ ⟨hlocals, h₃⟩
  have hstart : Listing d.program scope [] d₃ := by
    refine ⟨h₃.indexed, h₃.grows, h₃.owns, fun s => ?_, List.Pairwise.nil, by simp⟩
    rw [h₃.stmts]
    simp
  refine (Ensures.mapM (fun x _ rs d h => ensures_addStmt h hf) hstart).mono ?_
  intro rs d₄ h
  have hid : scope.method = id := (hthis.trans (hparams.trans hlocals)).method
  rw [← hid] at hnew ⊢
  refine ⟨h.indexed, h.grows, ?_, h.sorted, ?_, ?_, ?_⟩
  · -- the statements of the method are those that were added
    intro s
    rw [h.listed]
    constructor
    · rintro ⟨hle, hlt⟩
      exact ⟨hlt, h.grows.fresh s hle hlt⟩
    · rintro ⟨hlt, hm⟩
      refine ⟨Nat.le_of_not_lt fun hold => ?_, hlt⟩
      rw [h.grows.stmt s hold] at hm
      exact hnew s hold hm
  · intro v
    simp only [List.mem_eraseDups, List.mem_filterMap, returned?_eq_some_iff]
    constructor
    · rintro ⟨r, hr, hret⟩
      exact ⟨r.1, List.mem_map.2 ⟨r, hr, rfl⟩, (h.kind r hr).trans hret⟩
    · rintro ⟨s, hs, hret⟩
      obtain ⟨r, hr, rfl⟩ := List.mem_map.1 hs
      exact ⟨r, hr, (h.kind r hr).symm.trans hret⟩
  · intro v hv
    obtain ⟨e, he, rfl⟩ := Option.map_eq_some_iff.1 hv
    have hmem : e.2 ∈ thisScope.ids := List.mem_map.2 ⟨e, List.mem_of_mem_head? he, rfl⟩
    exact h.owns _ ((hparams.trans hlocals).ids _ hmem)
  · intro v hv
    obtain ⟨e, he, rfl⟩ := List.mem_map.1 hv
    have hmem : e.2 ∈ paramScope.ids := List.mem_map.2 ⟨e, List.mem_of_mem_drop he, rfl⟩
    exact h.owns _ (hlocals.ids _ hmem)

end Builder

end PointsTo
