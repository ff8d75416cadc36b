import PointsTo.Proofs.Program.FieldLookup

/-! # Statements that are accepted

A statement is accepted exactly if the scope holds all variables that it names and its references are
right. Steps that only read come first: they leave the draft as it is, so their conditions are put
together without regard to what they found.
-/

namespace PointsTo.Builder

variable {α β : Type} {e : Draft}

/-! ## Steps that only read -/

/-- Conditions of a step that only reads and of what follows it are conditions on one draft. -/
theorem Decides.reads {x : Builder α} {f : α → Builder β} {P S : Prop} {R : β → Draft → Prop}
    (h : Decides x e P fun _ e' => e' = e) (hf : ∀ a, Decides (f a) e S R) :
    Decides (x >>= f) e (P ∧ S) R := by
  apply h.bind
  intro _ a e' he
  rw [he]
  exact hf a

/-- A value is returned and the draft is left as it is. -/
theorem Decides.done (a : α) (e : Draft) : Decides (Pure.pure a : Builder α) e True fun _ e' => e' = e :=
  .pure rfl

/-- A value is computed from what a step reads. -/
theorem Decides.map {x : Builder α} {P : Prop} (h : Decides x e P fun _ e' => e' = e) (f : α → β) :
    Decides (do return f (← x)) e P fun _ e' => e' = e :=
  (h.reads fun a => .done (f a) e).congr (by rw [and_true])

/-- Branches may differ if they decide the same. -/
theorem Decides.ite {c : Prop} [Decidable c] {x y : Builder α} {P : Prop} {Q : α → Draft → Prop}
    (hx : Decides x e P Q) (hy : Decides y e P Q) : Decides (if c then x else y) e P Q := by
  by_cases hc : c
  · rw [if_pos hc]
    exact hx
  · rw [if_neg hc]
    exact hy

variable (scope : Scope)

/-- A variable is found if it is in the scope. -/
theorem decides_findVar (name : String) (e : Draft) :
    Decides (findVar scope name) e (name ∈ scope.vars.map (·.1)) fun _ e' => e' = e := by
  rw [← isSome_lookup_iff]
  unfold findVar
  cases scope.vars.lookup name with
  | none => exact (Decides.throw rfl).congr (by simp)
  | some v => exact (Decides.done v e).congr (by simp)

/-- A variable that has a name is found if it is in the scope. -/
theorem decides_findVar? (name : Option String) (e : Draft) :
    Decides (findVar? scope name) e (∀ x ∈ name, x ∈ scope.vars.map (·.1)) fun _ e' => e' = e := by
  cases name with
  | none => exact (Decides.done none e).congr (by simp)
  | some name =>
      have hvar := decides_findVar scope name e
      exact (hvar.map some).congr (by simp)

/-- Variables are found if all of them are in the scope. -/
theorem decides_findVars (names : List String) (e : Draft) :
    Decides (names.mapM (findVar scope)) e (∀ x ∈ names, x ∈ scope.vars.map (·.1))
      fun _ e' => e' = e := by
  refine (Decides.mapM (P := fun _ x => x ∈ scope.vars.map (·.1)) (I := fun _ _ e' => e' = e) ?_
    rfl).congr each_const.symm
  intro _ x _ _ _ e' he
  rw [he]
  exact decides_findVar scope x e

/-- A call is bound to a receiver exactly if it is not static. -/
theorem decides_resolveBinding (i : Nat) (kind : CallKind) (base : Option String) (e : Draft) :
    Decides (resolveBinding scope i kind base) e
      ((base.isSome = true ↔ kind ≠ .static) ∧ ∀ x ∈ base, x ∈ scope.vars.map (·.1))
        fun _ e' => e' = e := by
  cases base with
  | none =>
      cases kind with
      | static => exact (Decides.done Binding.static e).congr (by simp)
      | _ => exact (Decides.throw rfl).congr (by simp)
  | some x =>
      have hvar := decides_findVar scope x e
      cases kind with
      | static => exact (Decides.throw rfl).congr (by simp)
      | special => exact (hvar.map Binding.special).congr (by simp)
      | virtual => exact (hvar.map Binding.virtual).congr (by simp)
      | interface => exact (hvar.map Binding.interface).congr (by simp)

/-! ## References -/

/-- References to fields are resolved as the definition says, as far as statements can tell. -/
def ResolvesAlike (d : ProgramDef) (p : Program) : Prop :=
  ∀ r b, (∃ f, p.resolveField? r = some f ∧ (p.fieldAt f).isStatic = b) ↔
    ∃ f, d.ResolvesField r f ∧ f.isStatic = b

/-- A program with the same fields resolves references alike. -/
theorem ResolvesAlike.congr {d : ProgramDef} {p q : Program} (h : ResolvesAlike d p)
    (hq : SameFields p q) : ResolvesAlike d q := by
  intro r b
  rw [← h]
  simp only [hq.resolve, Program.fieldAt, hq.fields]

variable {d : ProgramDef} (hfields : ResolvesAlike d e.program)

include hfields

/-- A field is accessed as it is declared. -/
theorem decides_findField (i : Nat) (ref : String) (onInstance : Bool) :
    Decides (findField scope i ref onInstance) e (d.AccessesField ref !onInstance)
      fun _ e' => e' = e := by
  refine ((decides_readFieldRef ref e).bind (S := ∀ r, FieldRef.parse ref = .ok r →
    ∃ f, d.ResolvesField r f ∧ f.isStatic = !onInstance) fun _ r e' he => ?_).congr ?_
  · rw [he.2]
    -- the condition speaks of all references that the text can be read as, but there is one at most
    have hcondition : (∀ r', FieldRef.parse ref = .ok r' →
        ∃ f, d.ResolvesField r' f ∧ f.isStatic = !onInstance) ↔
          ∃ f, e.program.resolveField? r = some f ∧ (e.program.fieldAt f).isStatic = !onInstance := by
      rw [hfields]
      simp [he.1]
    refine .program (Decides.congr ?_ hcondition)
    cases e.program.resolveField? r with
    | none => exact (Decides.throw rfl).congr (by simp)
    | some f =>
        refine (Decides.unless (P := ¬((!(e.program.fieldAt f).isStatic && !onInstance) = true) ∧ True)
          (fun _ => Refuses.bind (.throw rfl)) fun _ => ?_).congr ?_
        · exact .unless (fun _ => Refuses.bind (.throw rfl)) fun _ => .done f e
        · cases hb : (e.program.fieldAt f).isStatic <;> cases onInstance <;> simp [hb]
  · constructor
    · rintro ⟨r, f, hr, hf⟩
      refine ⟨⟨r, hr⟩, fun r' hr' => ?_⟩
      cases hr.symm.trans hr'
      exact ⟨f, hf⟩
    · rintro ⟨⟨r, hr⟩, hf⟩
      obtain ⟨f, hf⟩ := hf r hr
      exact ⟨r, f, hr, hf⟩

/-- A statement is accepted if its variables are in the scope and its references are right. -/
theorem decides_resolveStmt (i : Nat) (s : StmtDef) :
    Decides (resolveStmt scope i s) e
      ((∀ x ∈ s.vars, x ∈ scope.vars.map (·.1)) ∧ d.RightReferences s) fun _ _ => True := by
  have hvar (name : String) := decides_findVar scope name e
  have hfield := decides_findField scope hfields i
  have hdone {α : Type} (a : α) : Decides (pure a) e True fun _ _ => True := .pure trivial
  -- One case for each kind of statement. Its names are looked up one after the other, and the order in
  -- which they are named does not matter to the condition.
  cases s with
  | new lhs type =>
      refine ((decides_readType type e).bind (S := (∀ t, Ty.parse type = .ok t → t.isReference = true) ∧
        lhs ∈ scope.vars.map (·.1)) fun _ t e' he => ?_).congr ?_
      · rw [he.2]
        refine (Decides.unless (fun _ => Refuses.bind (.throw rfl)) fun _ =>
          (hvar lhs).reads fun _ => hdone _).congr ?_
        simp [he.1]
      · simp only [StmtDef.vars, ProgramDef.RightReferences, List.mem_singleton, forall_eq]
        constructor
        · rintro ⟨hlhs, t, ht, hreference⟩
          refine ⟨⟨t, ht⟩, fun t' ht' => ?_, hlhs⟩
          cases ht.symm.trans ht'
          exact hreference
        · rintro ⟨⟨t, ht⟩, hreference, hlhs⟩
          exact ⟨hlhs, t, ht, hreference t ht⟩
  | copy lhs rhs =>
      refine ((hvar lhs).reads fun _ => (hvar rhs).reads fun _ => hdone _).congr ?_
      simp [StmtDef.vars, ProgramDef.RightReferences]
  | storeField base field rhs =>
      cases base with
      | none =>
          refine ((hfield field false).reads fun _ => (hvar rhs).reads fun _ => hdone _).congr ?_
          simp [StmtDef.vars, ProgramDef.RightReferences, and_comm]
      | some base =>
          refine ((hvar base).reads fun _ => (hfield field true).reads fun _ => (hvar rhs).reads fun _ =>
            hdone _).congr ?_
          simp [StmtDef.vars, ProgramDef.RightReferences, and_comm, and_assoc]
  | loadField lhs base field =>
      cases base with
      | none =>
          refine ((hvar lhs).reads fun _ => (hfield field false).reads fun _ => hdone _).congr ?_
          simp [StmtDef.vars, ProgramDef.RightReferences]
      | some base =>
          refine ((hvar lhs).reads fun _ => (hvar base).reads fun _ => (hfield field true).reads fun _ =>
            hdone _).congr ?_
          simp [StmtDef.vars, ProgramDef.RightReferences, and_assoc]
  | storeArray base rhs =>
      refine ((hvar base).reads fun _ => (hvar rhs).reads fun _ => hdone _).congr ?_
      simp [StmtDef.vars, ProgramDef.RightReferences]
  | loadArray lhs base =>
      refine ((hvar lhs).reads fun _ => (hvar base).reads fun _ => hdone _).congr ?_
      simp [StmtDef.vars, ProgramDef.RightReferences]
  | invoke kind base method args result =>
      have hmethod : Decides (readMethodRef method) e (∃ r, MethodRef.parse method = .ok r)
          fun _ e' => e' = e := (decides_readMethodRef method e).mono fun _ _ h => h.2
      have hresult (target : MethodRef) (binding : Binding) (vs : List VarId) (e : Draft) :
          Decides (do return StmtKind.invoke ⟨binding, target, vs, ← findVar? scope result⟩) e
            (∀ x ∈ result, x ∈ scope.vars.map (·.1)) fun _ _ => True :=
        ((decides_findVar? scope result e).map _).mono fun _ _ _ => trivial
      refine (hmethod.reads (S := _ ∧ _ ∧ ∀ x ∈ result, x ∈ scope.vars.map (·.1)) fun target =>
        (decides_resolveBinding scope i kind base e).reads fun binding =>
          (decides_findVars scope args e).reads fun vs => ?_).congr ?_
      · -- whether or not the number of arguments is reported, the result is looked up next
        refine .ite ?_ (hresult target binding vs e)
        refine Decides.congr (P := True ∧ _) (.bind (Q := fun _ _ => True) ?_ fun _ _ e' _ =>
          hresult target binding vs e') (by simp)
        exact Yields.decides (yields_report.2 trivial)
      · simp only [StmtDef.vars, ProgramDef.RightReferences, List.forall_mem_append, Option.mem_toList]
        tauto
  | ret value =>
      refine ((decides_findVar? scope value e).reads fun _ => hdone _).congr ?_
      simp [StmtDef.vars, ProgramDef.RightReferences]

/-- A statement is added if it is accepted, and the fields stay as they are. -/
theorem decides_addStmt (s : StmtDef × Nat) : Decides (addStmt scope s) e
    ((∀ x ∈ s.1.vars, x ∈ scope.vars.map (·.1)) ∧ d.RightReferences s.1) fun _ e' =>
      ResolvesAlike d e'.program := by
  have hresolve := (decides_resolveStmt scope hfields s.2 s.1).and_ensures ensures_resolves
  refine (hresolve.bind (S := True) fun _ kind e' hkind => Yields.decides ?_).congr (by rw [and_true])
  simp only [yields_bind, yields_program, yields_update, yields_pure, hkind.2.2]
  exact hfields.congr (.of_hierarchy rfl rfl rfl)

/-- The statements of a body are accepted or refused one by one. -/
theorem decides_addStmts (body : List StmtDef) : Decides (body.zipIdx.mapM (addStmt scope)) e
    (∀ s ∈ body, (∀ x ∈ s.vars, x ∈ scope.vars.map (·.1)) ∧ d.RightReferences s) fun rs e' =>
      Lists scope e.program body.zipIdx rs e'.program := by
  have hrounds := Decides.mapM (l := body.zipIdx) (I := fun _ _ e' => ResolvesAlike d e'.program)
    (fun _ s _ _ _ e' he' => decides_addStmt scope he' s) hfields
  refine ((hrounds.and_ensures ensures_addStmts).congr ?_).mono fun _ _ hlists => hlists.2
  rw [each_const]
  conv_lhs => rw [← List.zipIdx_map_fst 0 body, List.forall_mem_map]

end PointsTo.Builder
