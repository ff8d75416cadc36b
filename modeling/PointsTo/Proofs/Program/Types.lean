import PointsTo.Proofs.Descriptor.RoundTrip
import PointsTo.Proofs.Program.Acceptance
import PointsTo.Proofs.Solver.Exactness

/-! # Types that come from the definition

A type that is no class stands in the tables of a loaded program exactly where the definition writes it: at
fields, at parameters and locals, and at the parameters of methods that are called. Receivers are the only
values whose types the definition does not write. Void is treated like the other types, so it is kept to
results exactly if the definition keeps it there.

`Adds` says at which positions a step of the construction adds a type. Steps compose along disjunction, so
each function of the construction needs one lemma.
-/

namespace PointsTo

/-- Where a value may stand, by the table that fixes its type. -/
inductive Position where
  | field
  /-- A parameter of a declared method. -/
  | param
  /-- The receiver, a parameter or a local variable of an implementation. -/
  | var
  /-- A parameter of the method that a call names. -/
  | argument
  deriving DecidableEq, Repr

/-- The types of the parameters of the method that the statement calls. -/
def StmtKind.argumentTypes : StmtKind → List Ty
  | .invoke call => call.target.subsignature.params
  | _ => []

/-- The types of the parameters of the method that the statement calls, if it names one. -/
def StmtDef.argumentTypes : StmtDef → List Ty
  | .invoke _ _ method _ _ =>
    match MethodRef.parse method with
    | .ok r => r.subsignature.params
    | .error _ => []
  | _ => []

/-- The types of the values that stand there. -/
def Program.typesAt (p : Program) : Position → List Ty
  | .field => p.fields.toList.map (·.type)
  | .param => (p.methods.toList.map (·.ref.subsignature)).flatMap (·.params)
  | .var => p.vars.toList.map (·.type)
  | .argument => p.stmts.toList.flatMap (·.kind.argumentTypes)

/-- The method writes the type there. What a method without an implementation says about its body is
ignored. -/
def MethodDef.Writes (m : MethodDef) (t : Ty) : Position → Prop
  | .field => False
  | .param => ∃ v ∈ m.params, v.type = t.descriptor
  | .var => m.isBodiless = false ∧ ∃ v ∈ m.params ++ m.locals, v.type = t.descriptor
  | .argument => m.isBodiless = false ∧ ∃ s ∈ m.body, t ∈ s.argumentTypes

/-- The definition writes the type there. -/
def ProgramDef.Writes (d : ProgramDef) (t : Ty) (pos : Position) : Prop :=
  (pos = .field ∧ ∃ c ∈ d.classes, ∃ f ∈ c.fields, f.type = t.descriptor) ∨
    ∃ m ∈ d.methods, m.Writes t pos

instance (m : MethodDef) (t : Ty) : DecidablePred (m.Writes t)
  | .field => inferInstanceAs (Decidable False)
  | .param => inferInstanceAs (Decidable (∃ v ∈ m.params, v.type = t.descriptor))
  | .var => inferInstanceAs
      (Decidable (m.isBodiless = false ∧ ∃ v ∈ m.params ++ m.locals, v.type = t.descriptor))
  | .argument => inferInstanceAs
      (Decidable (m.isBodiless = false ∧ ∃ s ∈ m.body, t ∈ s.argumentTypes))

instance (d : ProgramDef) (t : Ty) : DecidablePred (d.Writes t) := fun _ =>
  inferInstanceAs (Decidable (_ ∨ _))

/-! ## Tables that grow -/

namespace Program

variable {p : Program} {t : Ty} {pos : Position}

/-- A change that a map does not see. -/
theorem map_modify_of_eq {α β : Type} (f : α → α) (g : α → β) (h : ∀ x, g (f x) = g x) (a : Array α)
    (i : Nat) : (a.modify i f).toList.map g = a.toList.map g := by
  refine List.ext_getElem? fun j => ?_
  simp only [List.getElem?_map, Array.getElem?_toList, Array.getElem?_modify]
  split
  · cases a[j]? with
    | none => rfl
    | some x => exact congrArg some (h x)
  · rfl

/-- A new field brings its type. -/
theorem mem_typesAt_pushField (c : ClassId) (x : Field) : t ∈ (p.pushField c x).typesAt pos ↔
    t ∈ p.typesAt pos ∨ pos = .field ∧ x.type = t := by
  cases pos <;> simp [typesAt, pushField, eq_comm]

/-- A new method brings the types of its parameters. -/
theorem mem_typesAt_pushMethod (x : Method) : t ∈ (p.pushMethod x).typesAt pos ↔
    t ∈ p.typesAt pos ∨ pos = .param ∧ t ∈ x.ref.subsignature.params := by
  cases pos <;> simp [typesAt, pushMethod]

/-- A new variable brings its type. -/
theorem mem_typesAt_pushVar (x : Var) : t ∈ (p.pushVar x).typesAt pos ↔
    t ∈ p.typesAt pos ∨ pos = .var ∧ x.type = t := by
  cases pos <;> simp [typesAt, pushVar, eq_comm]

/-- A new statement brings the types of the parameters that it calls. -/
theorem mem_typesAt_pushStmt (x : Stmt) : t ∈ (p.pushStmt x).typesAt pos ↔
    t ∈ p.typesAt pos ∨ pos = .argument ∧ t ∈ x.kind.argumentTypes := by
  have hvars : (p.pushStmt x).vars.toList.map (·.type) = p.vars.toList.map (·.type) := by
    rw [pushStmt, Builder.indexStmt_eq]
    cases x.kind.access? with
    | none => rfl
    | some a => exact map_modify_of_eq (Var.addUse a.1 _) _ (fun v => by cases a.1 <;> rfl) _ _
  cases pos with
  | var =>
      rw [typesAt, hvars]
      simp [typesAt]
  | argument => simp [typesAt, pushStmt]
  | _ => simp [typesAt, pushStmt]

/-- Setting a body brings no type, as its variables and statements are in tables of their own. -/
theorem typesAt_setBody (m : MethodId) (b : Body) : (p.setBody m b).typesAt pos = p.typesAt pos := by
  cases pos with
  | param =>
      have hsubs : (p.setBody m b).methods.toList.map (·.ref.subsignature) =
          p.methods.toList.map (·.ref.subsignature) :=
        map_modify_of_eq (fun k : Method => { k with body? := some b }) _ (fun _ => rfl) _ _
      rw [typesAt, hsubs, typesAt]
  | _ => rfl

end Program

namespace Builder

variable {α β : Type} {t : Ty}

/-! ## Steps that add types -/

/-- If the step is not refused, it adds the type at the positions that satisfy `P`, and nowhere else. -/
def Adds (t : Ty) (x : Builder α) (P : Position → Prop) : Prop :=
  ∀ d, Ensures x d fun _ d' =>
    ∀ pos, t ∈ d'.program.typesAt pos ↔ t ∈ d.program.typesAt pos ∨ P pos

/-- The step does not add the type. -/
abbrev Spares (t : Ty) (x : Builder α) : Prop := Adds t x fun _ => False

section Rules

variable {x : Builder α} {P P' Q : Position → Prop}

/-- The positions may be described in another way. -/
theorem Adds.congr (h : Adds t x P) (hP : ∀ pos, P pos ↔ P' pos) : Adds t x P' :=
  fun d => (h d).mono fun _ d' hd' pos => by rw [hd', hP]

/-- Two steps add what either of them adds. -/
theorem Adds.bind {f : α → Builder β} (hx : Adds t x P) (hf : ∀ a, Adds t (f a) Q) :
    Adds t (x >>= f) fun pos => P pos ∨ Q pos := by
  intro d
  rw [ensures_bind]
  refine (hx d).mono fun a d' hd' => (hf a d').mono fun _ d'' hd'' pos => ?_
  rw [hd'', hd', or_assoc]

/-- A step that adds nothing may come first. -/
theorem Spares.bind {f : α → Builder β} (hx : Spares t x) (hf : ∀ a, Adds t (f a) Q) :
    Adds t (x >>= f) Q :=
  (Adds.bind hx hf).congr fun _ => by rw [false_or]

/-- Steps that add nothing may come last. -/
theorem Adds.bind_spares {f : α → Builder β} (hx : Adds t x P) (hf : ∀ a, Spares t (f a)) :
    Adds t (x >>= f) P :=
  (Adds.bind hx hf).congr fun _ => by rw [or_false]

theorem Adds.pure (a : α) : Spares t (pure a : Builder α) :=
  fun _ => ensures_pure.2 fun _ => by rw [or_false]

theorem Adds.report (severity : Severity) (text : String) : Spares t (report severity text) :=
  fun _ => ensures_report.2 fun _ => by rw [or_false]

/-- Both branches of a choice may know how it was decided. -/
theorem Adds.ite {c : Prop} [Decidable c] {y : Builder α} (hx : c → Adds t x P)
    (hy : ¬c → Adds t y P) : Adds t (if c then x else y) P := by
  split
  · exact hx ‹_›
  · exact hy ‹_›

/-- Steps for the elements of a list add what the step for one of them adds. -/
theorem Adds.forM {l : List α} {f : α → Builder Unit} {P : α → Position → Prop}
    (h : ∀ a ∈ l, Adds t (f a) (P a)) : Adds t (l.forM f) fun pos => ∃ a ∈ l, P a pos := by
  induction l with
  | nil => exact (Adds.pure ()).congr (by simp)
  | cons a l ih =>
      have hrest := ih fun b hb => h b (List.mem_cons_of_mem a hb)
      rw [List.forM_eq_forM, List.forM_cons]
      exact ((h a List.mem_cons_self).bind fun _ => hrest).congr fun _ =>
        (List.exists_mem_cons_iff (P · _) a l).symm

/-- Steps with results add what the step for one of the elements adds. -/
theorem Adds.mapM {l : List α} {f : α → Builder β} {P : α → Position → Prop}
    (h : ∀ a ∈ l, Adds t (f a) (P a)) : Adds t (l.mapM f) fun pos => ∃ a ∈ l, P a pos := by
  induction l with
  | nil => exact (Adds.pure []).congr (by simp)
  | cons a l ih =>
      have hrest := ih fun b hb => h b (List.mem_cons_of_mem a hb)
      rw [List.mapM_cons]
      have hboth := (h a List.mem_cons_self).bind fun b => hrest.bind_spares fun bs => .pure (b :: bs)
      exact hboth.congr fun _ => (List.exists_mem_cons_iff (P · _) a l).symm

/-- A fold adds what the step for one of the elements adds, whatever it has come to. -/
theorem Adds.foldlM {l : List α} {f : β → α → Builder β} {P : α → Position → Prop}
    (h : ∀ a ∈ l, ∀ b, Adds t (f b a) (P a)) (b : β) :
    Adds t (l.foldlM f b) fun pos => ∃ a ∈ l, P a pos := by
  induction l generalizing b with
  | nil => exact (Adds.pure b).congr (by simp)
  | cons a l ih =>
      have hrest := ih fun x hx => h x (List.mem_cons_of_mem a hx)
      rw [List.foldlM_cons]
      exact ((h a List.mem_cons_self b).bind hrest).congr fun _ =>
        (List.exists_mem_cons_iff (P · _) a l).symm

/-- An update adds what it adds to the tables of every program. -/
theorem Adds.update {f : Program → Program}
    (h : ∀ p pos, t ∈ (f p).typesAt pos ↔ t ∈ p.typesAt pos ∨ P pos) : Adds t (update f) P :=
  fun d => ensures_update.2 (h d.program)

theorem Adds.program : Spares t program := fun _ => ensures_program.2 fun _ => by rw [or_false]

end Rules

/-- What all rounds of a loop have in common. -/
theorem exists_mem_and_left {l : List α} {p : Prop} {q : α → Prop} :
    (∃ a ∈ l, p ∧ q a) ↔ p ∧ ∃ a ∈ l, q a :=
  ⟨fun ⟨a, ha, hp, hq⟩ => ⟨hp, a, ha, hq⟩, fun ⟨hp, a, ha, hq⟩ => ⟨a, ha, hp, hq⟩⟩

/-- Elements of an image are images of elements. -/
theorem exists_mem_map {l : List α} {f : α → β} {q : β → Prop} :
    (∃ b ∈ l.map f, q b) ↔ ∃ a ∈ l, q (f a) := by
  simp only [List.mem_map, exists_exists_and_eq_and]

/-! ## Types that are read -/

section Reading

variable {P : Position → Prop}

/-- What follows a type that is read may rely on what was read. -/
theorem Adds.readType {s : String} {f : Ty → Builder α}
    (h : ∀ u, Ty.parse s = .ok u → Adds t (f u) P) : Adds t (readType s >>= f) P := by
  intro d
  rw [ensures_bind]
  refine (decides_readType s d).ensures.mono ?_
  rintro u d' ⟨-, hu, rfl⟩
  exact h u hu d'

/-- Reading the types of variables adds nothing; what follows may know them. -/
theorem Adds.readTypes {vs : List VarDef} {f : List Ty → Builder α}
    (h : ∀ us, List.Forall₂ (fun v u => Ty.parse v.type = .ok u) vs us → Adds t (f us) P) :
    Adds t ((vs.mapM fun v => Builder.readType v.type) >>= f) P := by
  intro d
  rw [ensures_bind]
  refine (decides_readTypes vs d).ensures.mono ?_
  rintro us d' ⟨-, hus, rfl⟩
  exact h us (forall₂_of_mapM hus) d'

end Reading

section Readable

variable (ht : t.IsOver Element.IsNamed)

include ht

/-- A type is among those that were read if its descriptor was written. -/
theorem mem_iff_of_forall₂ {vs : List VarDef} {us : List Ty}
    (h : List.Forall₂ (fun v u => Ty.parse v.type = .ok u) vs us) :
    t ∈ us ↔ ∃ v ∈ vs, v.type = t.descriptor := by
  induction h with
  | nil => simp
  | cons hparse _ ih =>
      rw [List.mem_cons, List.exists_mem_cons_iff, ih, ← Ty.eq_iff_of_parse ht hparse, eq_comm]

/-! ## Members -/

/-- Declaring a field adds its type. -/
theorem adds_declareField (c : ClassId) (x : FieldDef) :
    Adds t (declareField c x) fun pos => pos = .field ∧ x.type = t.descriptor := by
  refine .readType fun u hu => Spares.bind Adds.program fun p => ?_
  refine .ite (fun _ _ => by simp) fun _ d => ?_
  simp only [updateClass, ensures_bind, ensures_update, ← Ty.eq_iff_of_parse ht hu]
  exact fun _ => Program.mem_typesAt_pushField c ⟨c, (p.classAt c).name, x.name, u, x.isStatic⟩

/-- Declaring a method adds the types of its parameters. -/
theorem adds_declareMethod (c : ClassId) (x : MethodDef) :
    Adds t (declareMethod c x) fun pos => pos = .param ∧ x.Writes t .param := by
  refine .readTypes fun us hus => .readType fun result _ => Spares.bind Adds.program fun p => ?_
  refine .ite (fun _ _ => by simp) fun _ d => ?_
  simp only [updateClass, ensures_bind, ensures_update, ensures_pure, MethodDef.Writes,
    ← mem_iff_of_forall₂ ht hus]
  exact fun _ => Program.mem_typesAt_pushMethod ⟨c, ⟨(p.classAt c).name, ⟨x.name, us, result⟩⟩,
    x.isStatic, x.isAbstract, x.isNative, none⟩

/-- Declaring the members of a class adds the types of its fields and of the parameters of its methods.
-/
theorem adds_declareMembers (c : ClassId) (x : ClassDef) :
    Adds t (declareMembers c x) fun pos =>
      (pos = .field ∧ ∃ f ∈ x.fields, f.type = t.descriptor) ∨
        (pos = .param ∧ ∃ m ∈ x.methods, m.Writes t .param) := by
  refine Adds.bind ((Adds.forM fun f _ => adds_declareField ht c f).congr fun _ => exists_mem_and_left)
    fun _ => (Adds.mapM fun m _ => ?_).congr fun _ => exists_mem_and_left
  exact (adds_declareMethod ht c m).bind_spares fun id => .pure (id, m)

end Readable

/-! ## Bodies -/

/-- Declaring a variable adds its type. -/
theorem adds_declareVar (scope : Scope) (name : String) (type : Ty) :
    Adds t (declareVar scope name type) fun pos => pos = .var ∧ type = t := by
  refine .ite (fun _ d => by simp) fun _ => ?_
  refine Spares.bind Adds.program fun p d => ?_
  simp only [ensures_bind, ensures_update, ensures_pure]
  exact fun _ => Program.mem_typesAt_pushVar ⟨scope.method, name, type, [], [], [], [], []⟩

/-- The receiver is of a class. -/
theorem spares_declareThis (hclass : ∀ name, .ofClass name ≠ t) (scope : Scope) (m : Method) :
    Spares t (declareThis scope m) := by
  refine .ite (fun _ => .pure scope) fun _ => Spares.bind Adds.program fun p => ?_
  exact (adds_declareVar scope "this" _).congr fun _ => by simp [hclass]

/-- Whatever the first step does, the second one ensures the same. -/
theorem Ensures.next {x : Builder α} {f : α → Builder β} {d : Draft} {Q : β → Draft → Prop}
    (h : ∀ a d', Ensures (f a) d' Q) : Ensures (x >>= f) d Q :=
  ensures_bind.2 fun a d' _ => h a d'

/-- A call is resolved to a call of the method that it names. -/
theorem ensures_argumentTypes (scope : Scope) (index : Nat) (s : StmtDef) (d : Draft) :
    Ensures (resolveStmt scope index s) d fun kind _ => kind.argumentTypes = s.argumentTypes := by
  have hdone {kind : StmtKind} (h : kind.argumentTypes = s.argumentTypes) (d : Draft) :
      Ensures (pure kind) d fun kind _ => kind.argumentTypes = s.argumentTypes := ensures_pure.2 h
  -- what is looked up on the way does not matter, apart from the method that a call names
  cases s with
  | new lhs type =>
      refine .next fun _ _ => Ensures.ite (fun _ => by simp) fun _ => ?_
      exact .next fun _ => hdone rfl
  | copy lhs rhs => exact .next fun _ _ => .next fun _ => hdone rfl
  | storeField base field rhs =>
      cases base with
      | none => exact .next fun _ _ => .next fun _ => hdone rfl
      | some base => exact .next fun _ _ => .next fun _ _ => .next fun _ => hdone rfl
  | loadField lhs base field =>
      cases base with
      | none => exact .next fun _ _ => .next fun _ => hdone rfl
      | some base => exact .next fun _ _ => .next fun _ _ => .next fun _ => hdone rfl
  | storeArray base rhs => exact .next fun _ _ => .next fun _ => hdone rfl
  | loadArray lhs base => exact .next fun _ _ => .next fun _ => hdone rfl
  | invoke kind base method args result =>
      rw [resolveStmt, ensures_bind]
      refine (decides_readMethodRef method d).ensures.mono ?_
      rintro target d' ⟨-, htarget, rfl⟩
      have hcall (binding : Binding) (vs : List VarId) (r : Option VarId) :
          (StmtKind.invoke ⟨binding, target, vs, r⟩).argumentTypes =
            (StmtDef.invoke kind base method args result).argumentTypes := by
        rw [StmtKind.argumentTypes, StmtDef.argumentTypes, htarget]
      refine .next fun binding _ => .next fun vs _ => ?_
      exact Ensures.ite (fun _ => .next fun _ _ => .next fun r => hdone (hcall binding vs r))
        fun _ => .next fun r => hdone (hcall binding vs r)
  | ret value => exact .next fun _ => hdone rfl

/-- Adding a statement adds the types of the parameters that it calls. -/
theorem adds_addStmt (scope : Scope) (x : StmtDef × Nat) :
    Adds t (addStmt scope x) fun pos => pos = .argument ∧ t ∈ x.1.argumentTypes := by
  intro d
  rw [addStmt, ensures_bind]
  intro kind d' hrun
  have htypes := ensures_argumentTypes scope x.2 x.1 d kind d' hrun
  obtain ⟨-, hprogram⟩ := ensures_resolves kind d' hrun
  simp only [ensures_bind, ensures_program, ensures_update, ensures_pure, hprogram, ← htypes]
  exact fun _ => Program.mem_typesAt_pushStmt ⟨scope.method, x.2, kind⟩

section Readable

variable (ht : t.IsOver Element.IsNamed)

include ht

/-- Declaring variables adds their types. -/
theorem adds_declareVars (scope : Scope) (ds : List VarDef) :
    Adds t (declareVars scope ds) fun pos => pos = .var ∧ ∃ v ∈ ds, v.type = t.descriptor := by
  refine (Adds.foldlM (fun v _ scope => .readType fun u hu => ?_) scope).congr
    fun _ => exists_mem_and_left
  rw [← Ty.eq_iff_of_parse ht hu]
  exact adds_declareVar scope v.name u

variable (hclass : ∀ name, .ofClass name ≠ t)

include hclass

/-- Building a body adds the types of its parameters, of its local variables and of its arguments. The
variable of the receiver has a class for its type. -/
theorem adds_buildBody (id : MethodId) (m : MethodDef) : Adds t (buildBody id m) fun pos =>
    (pos = .var ∧ ∃ v ∈ m.params, v.type = t.descriptor) ∨
      (pos = .var ∧ ∃ v ∈ m.locals, v.type = t.descriptor) ∨
        (pos = .argument ∧ ∃ s ∈ m.body, t ∈ s.argumentTypes) := by
  have hbody (scope : Scope) : Adds t (m.body.zipIdx.mapM (addStmt scope)) fun pos =>
      pos = .argument ∧ ∃ s ∈ m.body, t ∈ s.argumentTypes := by
    refine (Adds.mapM fun x _ => adds_addStmt scope x).congr fun _ => exists_mem_and_left.trans ?_
    conv_rhs => rw [← List.zipIdx_map_fst 0 m.body, exists_mem_map]
  refine Spares.bind Adds.program fun p => Spares.bind (spares_declareThis hclass _ _) fun scope => ?_
  refine (adds_declareVars ht scope m.params).bind fun scope => ?_
  refine (adds_declareVars ht scope m.locals).bind fun scope => ?_
  exact (hbody scope).bind_spares fun _ => .pure _

/-- Implementing a method adds the types of its body, if it has an implementation. -/
theorem adds_implement (m : MethodId × MethodDef) :
    Adds t (implement m) fun pos => pos ≠ .param ∧ m.2.Writes t pos := by
  by_cases hbodiless : m.2.isBodiless = true
  · rw [implement, if_pos (show (m.2.isAbstract || m.2.isNative) = true from hbodiless)]
    have hignored : Spares t (do
        unless m.2.body.isEmpty do
          report .warn ("ignoring the body of " ++ (if m.2.isAbstract then "abstract" else "native")
            ++ " method " ++ (← program).methodText m.1) : Builder Unit) :=
      .ite (fun _ => .pure ()) fun _ => Spares.bind Adds.program fun _ => .report _ _
    refine hignored.congr fun pos => ?_
    cases pos <;> simp [MethodDef.Writes, hbodiless]
  · rw [implement, if_neg (show ¬(m.2.isAbstract || m.2.isNative) = true from hbodiless)]
    refine ((adds_buildBody ht hclass m.1 m.2).bind_spares fun b => Adds.update fun p _ => ?_).congr
      fun pos => ?_
    · rw [← Program.setBody, Program.typesAt_setBody, or_false]
    · cases pos <;> simp [MethodDef.Writes, hbodiless, or_and_right, exists_or]

end Readable

end Builder

/-! ## Programs -/

/-- What the definition writes, in the order in which it is read: members class by class, then bodies. -/
theorem ProgramDef.writes_iff (d : ProgramDef) {t : Ty} {pos : Position} : d.Writes t pos ↔
    (∃ c ∈ Builder.numberedClasses d.classes,
      (pos = .field ∧ ∃ f ∈ c.2.fields, f.type = t.descriptor) ∨
        (pos = .param ∧ ∃ m ∈ c.2.methods, m.Writes t .param)) ∨
      ∃ m ∈ Builder.numbered 0 d.methods, pos ≠ .param ∧ m.2.Writes t pos := by
  -- Classes and methods are numbered in the order of the definition.
  have hclasses {Q : ClassDef → Prop} :
      (∃ c ∈ Builder.numberedClasses d.classes, Q c.2) ↔ ∃ c ∈ d.classes, Q c := by
    conv_rhs => rw [← Builder.map_snd_numberedClasses d.classes, Builder.exists_mem_map]
  have hmethods {Q : MethodDef → Prop} :
      (∃ m ∈ Builder.numbered 0 d.methods, Q m.2) ↔ ∃ m ∈ d.methods, Q m := by
    conv_rhs => rw [← Builder.map_snd_numbered 0 d.methods, Builder.exists_mem_map]
  -- Parameters belong to the headers of methods, which are declared with their classes.
  have hparams : (∃ m ∈ d.methods, m.Writes t .param) ↔
      ∃ c ∈ d.classes, ∃ m ∈ c.methods, m.Writes t .param := by
    simp only [ProgramDef.methods, List.mem_flatMap]
    constructor
    · rintro ⟨m, ⟨c, hc, hm⟩, hwrites⟩
      exact ⟨c, hc, m, hm, hwrites⟩
    · rintro ⟨c, hc, m, hm, hwrites⟩
      exact ⟨m, ⟨c, hc, hm⟩, hwrites⟩
  rw [Writes, hclasses (Q := fun c => (pos = .field ∧ ∃ f ∈ c.fields, f.type = t.descriptor) ∨
    (pos = .param ∧ ∃ m ∈ c.methods, m.Writes t .param)),
    hmethods (Q := fun m => pos ≠ .param ∧ m.Writes t pos)]
  cases pos with
  | field => simp [MethodDef.Writes]
  | param => simp [hparams]
  | var => simp
  | argument => simp

namespace Program

/-- A hierarchy has no types. -/
theorem typesAt_of_isHierarchy {p : Program} (h : p.IsHierarchy) (pos : Position) :
    p.typesAt pos = [] := by
  obtain ⟨classes, links, rfl⟩ := h
  cases pos <;> rfl

/-- A type that is no class stands in the tables exactly where the definition writes its descriptor. -/
theorem mem_typesAt_iff {d : ProgramDef} {p : Program} (h : (build d).1 = .ok p) {t : Ty}
    (ht : t.IsOver Element.IsNamed) (hclass : ∀ name, .ofClass name ≠ t) (pos : Position) :
    t ∈ p.typesAt pos ↔ d.Writes t pos := by
  suffices hbuild : Builder.Ensures (Builder.build d) ⟨empty, #[]⟩ fun _ e =>
      t ∈ e.program.typesAt pos ↔ d.Writes t pos by
    obtain ⟨e, hrun, rfl⟩ := build_eq_ok_iff.1 h
    exact hbuild () e hrun
  unfold Builder.build
  -- the phases are gone through one after the other; the earlier results fix which classes the later
  -- ones are about
  rw [Builder.ensures_bind]
  refine (Builder.decides_defineClasses d.classes #[]).ensures.mono fun ids e₁ ⟨hnames, hids, h₁⟩ => ?_
  rw [hids, Builder.ensures_bind]
  refine (Builder.decides_linkClasses hnames h₁).ensures.mono fun _ e₂ ⟨_, h₂⟩ => ?_
  rw [Builder.ensures_bind]
  refine (Builder.decides_closeHierarchy h₂).ensures.mono fun _ e₃ ⟨_, h₃, hacyclic⟩ => ?_
  rw [Builder.ensures_bind]
  -- there is nothing but classes and links so far; from here on types are added
  intro mss e₄ hrun₄
  obtain ⟨-, hmss, h₄, hstocked⟩ := (Builder.decides_declareAll h₃ hacyclic).ensures mss e₄ hrun₄
  have hmembers := Builder.Adds.mapM (fun c _ => Builder.adds_declareMembers ht c.1 c.2) e₃ mss e₄ hrun₄
  rw [hmss, Builder.ensures_bind]
  intro u e₅ hrun₅
  obtain ⟨-, h₅⟩ := (Builder.decides_implementAll (hstocked.underway h₄)).ensures u e₅ hrun₅
  have hbodies := Builder.Adds.forM (fun m _ => Builder.adds_implement ht hclass m) e₄ u e₅ hrun₅
  rw [Builder.ensures_bind]
  refine (Builder.decides_selectEntry h₅ d.entry).ensures.mono fun entry e₆ ⟨_, he₆⟩ => ?_
  simp only [Builder.ensures_bind, Builder.ensures_update, Builder.ensures_program,
    Builder.ensures_report, he₆]
  have hentry : { e₅.program with entry? := entry }.typesAt pos = e₅.program.typesAt pos := by
    cases pos <;> rfl
  have hnone : t ∉ e₃.program.typesAt pos := by
    rw [typesAt_of_isHierarchy h₃.hierarchy]
    exact List.not_mem_nil
  rw [hentry, hbodies, hmembers, or_iff_right hnone]
  exact d.writes_iff.symm

/-- Void is the type of a field, of a parameter, of a variable or of an argument exactly if the definition
writes `V` there. -/
theorem void_written_iff {d : ProgramDef} {p : Program} (h : (build d).1 = .ok p) (pos : Position) :
    .void ∈ p.typesAt pos ↔ d.Writes .void pos := by
  have hvoid : Ty.void.IsOver Element.IsNamed := trivial
  have hclass (name : String) : Ty.ofClass name ≠ .void := fun heq => by cases heq
  exact mem_typesAt_iff h hvoid hclass pos

end Program

/-- A class with void as the type of a field, a parameter, a local variable and an argument. -/
def ProgramDef.voids : ProgramDef :=
  ⟨none, [⟨"A", none, [], false, false, [⟨"f", "V", false⟩],
    [⟨"m", [⟨"x", "V"⟩], "V", true, false, false, [⟨"y", "V"⟩],
      [.invoke .static none "LA;->m(V)V" ["y"] none]⟩]⟩]⟩

namespace Program

/-- Void is everywhere in one program, and nowhere in another one. -/
theorem void_written_iff_voids : ∃ p q, (build .voids).1 = .ok p ∧ (build .sample).1 = .ok q ∧
    ∀ pos, .void ∈ p.typesAt pos ∧ .void ∉ q.typesAt pos := by
  obtain ⟨p, hp⟩ : ∃ p, (build .voids).1 = .ok p := exists_ok_of_toBool (by decide +kernel)
  obtain ⟨q, hq⟩ : ∃ q, (build .sample).1 = .ok q := exists_ok_of_toBool (by decide +kernel)
  refine ⟨p, q, hp, hq, fun pos => ?_⟩
  rw [void_written_iff hp, void_written_iff hq]
  cases pos <;> decide +kernel

/-- Void is accepted as the type of a field, a parameter, a local variable and an argument. -/
theorem void_accepted : ∃ p, (build .voids).1 = .ok p ∧ .void ∈ p.typesAt .field ∧
    .void ∈ p.typesAt .param ∧ .void ∈ p.typesAt .var ∧ .void ∈ p.typesAt .argument := by
  decide +kernel

end Program

end PointsTo
