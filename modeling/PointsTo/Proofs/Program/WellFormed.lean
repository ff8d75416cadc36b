import PointsTo.Program.Builder
import PointsTo.Program.Lookup

/-! # Well-formed programs

What the tables of a loaded program promise to the analysis: identifiers point into their tables,
the variables of a statement belong to its method, the body of a method lists its statements, and
the index of a variable lists the statements that use it as a base.
-/

namespace PointsTo

/-- The ways in which a statement depends on the objects of a base variable. -/
inductive AccessKind where
  | storeField
  | loadField
  | storeArray
  | loadArray
  | call
  deriving DecidableEq, Repr

/-- The statements that use a variable as a base, by kind of access. -/
def Var.uses (v : Var) : AccessKind → List StmtId
  | .storeField => v.storeFields
  | .loadField => v.loadFields
  | .storeArray => v.storeArrays
  | .loadArray => v.loadArrays
  | .call => v.invokes

/-- Adds a statement to one of the lists of a variable. -/
def Var.addUse (k : AccessKind) (s : StmtId) (v : Var) : Var :=
  match k with
  | .storeField => { v with storeFields := v.storeFields ++ [s] }
  | .loadField => { v with loadFields := v.loadFields ++ [s] }
  | .storeArray => { v with storeArrays := v.storeArrays ++ [s] }
  | .loadArray => { v with loadArrays := v.loadArrays ++ [s] }
  | .call => { v with invokes := v.invokes ++ [s] }

@[simp] theorem Var.addUse_method (k : AccessKind) (s : StmtId) (v : Var) :
    (v.addUse k s).method = v.method := by
  cases k <;> rfl

/-- A use is entered behind those of its kind. -/
theorem Var.uses_addUse (k k' : AccessKind) (s : StmtId) (v : Var) :
    (v.addUse k s).uses k' = if k' = k then v.uses k ++ [s] else v.uses k' := by
  cases k <;> cases k' <;> rfl

namespace StmtKind

/-- The base variable of a statement, and how it is used. -/
def access? : StmtKind → Option (AccessKind × VarId)
  | .instanceStore base _ _ => some (.storeField, base)
  | .instanceLoad _ base _ => some (.loadField, base)
  | .arrayStore base _ => some (.storeArray, base)
  | .arrayLoad _ base => some (.loadArray, base)
  | .invoke call => call.binding.base?.map (AccessKind.call, ·)
  | _ => none

/-- All variables of a statement. -/
def operands : StmtKind → List VarId
  | .new lhs _ => [lhs]
  | .copy lhs rhs => [lhs, rhs]
  | .instanceStore base _ rhs => [base, rhs]
  | .instanceLoad lhs base _ => [lhs, base]
  | .staticStore _ rhs => [rhs]
  | .staticLoad lhs _ => [lhs]
  | .arrayStore base rhs => [base, rhs]
  | .arrayLoad lhs base => [lhs, base]
  | .invoke call => call.binding.base?.toList ++ call.args ++ call.result?.toList
  | .ret value => value.toList

/-- The field that a statement accesses. -/
def field? : StmtKind → Option FieldId
  | .instanceStore _ f _ => some f
  | .instanceLoad _ _ f => some f
  | .staticStore f _ => some f
  | .staticLoad _ f => some f
  | _ => none

/-- The base variable is one of the variables of the statement. -/
theorem mem_operands_of_access {kind : StmtKind} {k : AccessKind} {v : VarId}
    (h : kind.access? = some (k, v)) : v ∈ kind.operands := by
  cases kind with
  | invoke call =>
      simp only [access?, Option.map_eq_some_iff, Prod.mk.injEq] at h
      obtain ⟨base, hbase, -, rfl⟩ := h
      simp [operands, hbase]
  | _ => simp_all [access?, operands]

end StmtKind

/-- Indexing a statement adds it to the list of its base variable. -/
theorem Builder.indexStmt_eq (s : StmtId) (kind : StmtKind) (vars : Array Var) :
    indexStmt s kind vars =
      kind.access?.elim vars fun a => vars.modify a.2.idx (Var.addUse a.1 s) := by
  cases kind with
  | invoke call =>
      cases hb : call.binding.base? with
      | none => simp only [indexStmt, StmtKind.access?, hb, Option.map_none, Option.elim_none]
      | some base =>
          simp only [indexStmt, StmtKind.access?, hb, Option.map_some, Option.elim_some]
          rfl
  | _ => rfl

/-- The statements of a method, none if it has no body. -/
def Program.stmtsOf (p : Program) (m : MethodId) : List StmtId :=
  ((p.methodAt m).body?.map (·.stmts)).getD []

/-- The statements of a method are those of its body. -/
theorem Program.mem_stmtsOf {p : Program} {m : MethodId} {s : StmtId} :
    s ∈ p.stmtsOf m ↔ ∃ b, (p.methodAt m).body? = some b ∧ s ∈ b.stmts := by
  cases h : (p.methodAt m).body? <;> simp [stmtsOf, h]

/-- A variable of the table that belongs to a method. -/
def Program.Owns (p : Program) (m : MethodId) (v : VarId) : Prop :=
  v.idx < p.vars.size ∧ (p.varAt v).method = m

/-- The tables of variables and statements agree: the variables of a statement belong to its method,
and the index of a variable lists exactly the statements that use it as a base, in order. -/
structure Program.Indexed (p : Program) : Prop where
  operand : ∀ s, s.idx < p.stmts.size → ∀ v ∈ (p.stmtAt s).kind.operands,
    p.Owns (p.stmtAt s).method v
  field : ∀ s f, (p.stmtAt s).kind.field? = some f → f.idx < p.fields.size
  use : ∀ k v s, s ∈ (p.varAt v).uses k ↔ (p.stmtAt s).kind.access? = some (k, v)
  sorted : ∀ k v, ((p.varAt v).uses k).Pairwise (·.idx < ·.idx)

/-- A body lists the statements of its method, the variables that they return, and parameters that
belong to the method. -/
structure Program.BodyOf (p : Program) (m : MethodId) (b : Body) : Prop where
  stmt : ∀ s, s ∈ b.stmts ↔ s.idx < p.stmts.size ∧ (p.stmtAt s).method = m
  sorted : b.stmts.Pairwise (·.idx < ·.idx)
  ret : ∀ v, v ∈ b.returns ↔ ∃ s ∈ b.stmts, (p.stmtAt s).kind = .ret (some v)
  this : ∀ v, b.this? = some v → p.Owns m v
  param : ∀ v ∈ b.params, p.Owns m v

/-- What the analysis relies on in a loaded program. -/
structure Program.WellFormed (p : Program) : Prop where
  indexed : p.Indexed
  body : ∀ m b, (p.methodAt m).body? = some b → p.BodyOf m b
  /-- Every statement is in the body of its method. -/
  bodied : ∀ s, s.idx < p.stmts.size → ((p.methodAt (p.stmtAt s).method).body?).isSome
  method : ∀ c, ∀ e ∈ (p.classAt c).methods, e.2.idx < p.methods.size
  field : ∀ c, ∀ e ∈ (p.classAt c).fields, e.2.idx < p.fields.size
  owner : ∀ m, m.idx < p.methods.size → (p.methodAt m).owner.idx < p.classes.size
  entry : ∀ m, p.entry? = some m → m.idx < p.methods.size

/-- A list of statements in increasing order is no longer than the range that they are from. -/
theorem StmtId.length_le_of_sorted {l : List StmtId} {n : Nat} (lo : Nat)
    (hsorted : l.Pairwise (·.idx < ·.idx)) (hlo : ∀ s ∈ l, lo ≤ s.idx) (hn : ∀ s ∈ l, s.idx < n) :
    l.length ≤ n - lo := by
  induction l generalizing lo with
  | nil => exact Nat.zero_le _
  | cons s l ih =>
      obtain ⟨hs, hl⟩ := List.pairwise_cons.1 hsorted
      have hrest := ih (s.idx + 1) hl hs fun t ht => hn t (List.mem_cons_of_mem _ ht)
      have hfirst := hlo s (List.mem_cons_self ..)
      have hlast := hn s (List.mem_cons_self ..)
      rw [List.length_cons]
      omega

namespace Program

/-- A statement beyond the table does nothing. -/
theorem stmtAt_of_le {p : Program} {s : StmtId} (h : p.stmts.size ≤ s.idx) :
    p.stmtAt s = default := by
  simp [stmtAt, Array.getD_eq_getD_getElem?, h]

/-- A statement that does anything is in the table. -/
theorem lt_size_of_kind {p : Program} {s : StmtId} (h : (p.stmtAt s).kind ≠ .ret none) :
    s.idx < p.stmts.size := by
  refine Nat.lt_of_not_le fun hs => h ?_
  rw [stmtAt_of_le hs]
  rfl

/-- A method beyond the table has no body. -/
theorem lt_size_of_body {p : Program} {m : MethodId} {b : Body}
    (h : (p.methodAt m).body? = some b) : m.idx < p.methods.size := by
  refine Nat.lt_of_not_le fun hm => ?_
  have hnone : p.methodAt m = default := by
    simp [methodAt, Array.getD_eq_getD_getElem?, hm]
  rw [hnone] at h
  cases h

theorem mem_of_lookup {α β : Type} [BEq α] [LawfulBEq α] {l : List (α × β)} {a : α} {b : β}
    (h : l.lookup a = some b) : (a, b) ∈ l := by
  obtain ⟨before, after, hl, -⟩ := List.lookup_eq_some_iff.1 h
  simp [hl]

namespace WellFormed

variable {p : Program} (wf : p.WellFormed)

include wf

/-- A method that a class declares is one of the table. -/
theorem declared_lt {c : ClassId} {s : Subsignature} {m : MethodId}
    (h : p.declared? c s = some m) : m.idx < p.methods.size :=
  wf.method c _ (mem_of_lookup h)

/-- The statements of a method are those of the table that name it. -/
theorem mem_stmtsOf_iff {m : MethodId} {s : StmtId} :
    s ∈ p.stmtsOf m ↔ s.idx < p.stmts.size ∧ (p.stmtAt s).method = m := by
  rw [mem_stmtsOf]
  constructor
  · rintro ⟨b, hb, hs⟩
    exact ((wf.body m b hb).stmt s).1 hs
  · rintro ⟨hs, rfl⟩
    obtain ⟨b, hb⟩ := Option.isSome_iff_exists.1 (wf.bodied s hs)
    exact ⟨b, hb, ((wf.body _ b hb).stmt s).2 ⟨hs, rfl⟩⟩

/-- A method has no more statements than there are. -/
theorem length_stmtsOf_le (m : MethodId) : (p.stmtsOf m).length ≤ p.stmts.size := by
  cases hb : (p.methodAt m).body? with
  | none => simp [stmtsOf, hb]
  | some b =>
      have hbody := wf.body m b hb
      have hlength := StmtId.length_le_of_sorted 0 hbody.sorted (fun _ _ => Nat.zero_le _)
        fun s hs => ((hbody.stmt s).1 hs).1
      simpa [stmtsOf, hb] using hlength

/-- A statement that does anything is in the body of its method. -/
theorem mem_stmtsOf_method {s : StmtId} (h : (p.stmtAt s).kind ≠ .ret none) :
    s ∈ p.stmtsOf (p.stmtAt s).method :=
  wf.mem_stmtsOf_iff.2 ⟨lt_size_of_kind h, rfl⟩

/-- The variables of a statement belong to the method whose body holds the statement. -/
theorem owns_operand {m : MethodId} {s : StmtId} (hs : s ∈ p.stmtsOf m) {v : VarId}
    (hv : v ∈ (p.stmtAt s).kind.operands) : p.Owns m v := by
  obtain ⟨hlt, rfl⟩ := wf.mem_stmtsOf_iff.1 hs
  exact wf.indexed.operand s hlt v hv

/-- The variables that a body returns belong to its method. -/
theorem owns_return {m : MethodId} {b : Body} (hb : (p.methodAt m).body? = some b) {v : VarId}
    (hv : v ∈ b.returns) : p.Owns m v := by
  obtain ⟨s, hs, hkind⟩ := ((wf.body m b hb).ret v).1 hv
  exact wf.owns_operand (mem_stmtsOf.2 ⟨b, hb, hs⟩) (by simp [hkind, StmtKind.operands])

end WellFormed

end Program

end PointsTo
