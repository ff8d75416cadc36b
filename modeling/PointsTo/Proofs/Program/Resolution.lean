import PointsTo.Proofs.Program.Loading
import PointsTo.Proofs.Program.Simulation

/-! # Statements, wherever they stand

Whether a statement is accepted, and what it is resolved to, does not depend on its index, nor on the
statements before it. So a list of statements that is resolved one by one can be resolved in any other
order.
-/

namespace PointsTo

namespace Builder

/-! ## One statement -/

/-- References to fields are resolved the same way in the two programs. -/
structure SameFields (p p' : Program) : Prop where
  resolve : ∀ r, p'.resolveField? r = p.resolveField? r
  fields : p'.fields = p.fields

/-- Fields are looked up in classes, along links. -/
theorem SameFields.of_hierarchy {p q : Program} (hclasses : q.classes = p.classes)
    (hlinks : q.links = p.links) (hfields : q.fields = p.fields) : SameFields p q := by
  have hchain (fuel : Nat) (c : Option ClassId) :
      q.superclassesFrom fuel c = p.superclassesFrom fuel c := by
    -- by induction on the fuel, for every class to start from
    induction fuel generalizing c with
    | zero => rfl
    | succ fuel ih =>
        cases c with
        | none => rfl
        | some c =>
            rw [Program.superclassesFrom, Program.superclassesFrom, ih, Program.superclass?,
              Program.superclass?, hlinks]
  have hparents : q.parents = p.parents := by
    funext c
    rw [Program.parents, Program.parents, Program.linksOf, Program.linksOf, hlinks]
  have hall (c : ClassId) : q.allParents c = p.allParents c := by
    rw [Program.allParents, Program.allParents, Program.classSet, Program.classSet,
      Program.searchBound, Program.searchBound, Program.classIds, Program.classIds, hparents, hclasses,
      hlinks]
  refine ⟨fun r => ?_, hfields⟩
  simp only [Program.resolveField?, Program.findClass?, Program.superclassChain, hchain, hall,
    Program.declaredField?, Program.classAt, hclasses]

/-- Finding a variable does not depend on the draft. -/
theorem concur_findVar (scope : Scope) (name : String) :
    Concur (findVar scope name) (findVar scope name) := by
  unfold findVar
  split
  · exact .pure _
  · exact .inr ⟨_, rfl⟩

/-- Finding a variable that may have no name does not depend on the draft. -/
theorem concur_findVar? (scope : Scope) (name : Option String) :
    Concur (findVar? scope name) (findVar? scope name) := by
  cases name with
  | none => exact .pure none
  | some name => exact (concur_findVar scope name).bind fun v => .pure (some v)

/-- The index of a call only matters to the message of an error. -/
theorem concur_resolveBinding (scope : Scope) (i j : Nat) (kind : CallKind) (base : Option String) :
    Concur (resolveBinding scope i kind base) (resolveBinding scope j kind base) := by
  cases base with
  | none =>
      cases kind with
      | static => exact .pure Binding.static
      | _ => exact .inr ⟨_, rfl⟩
  | some base =>
      cases kind with
      | static => exact .inr ⟨_, rfl⟩
      | _ => exact (concur_findVar scope base).bind fun v => .pure _

/-- Both drafts find the same field, whatever the index of the statement is. -/
theorem follows_findField {d e : Draft} (h : SameFields d.program e.program) (scope : Scope)
    (i j : Nat) (ref : String) (onInstance : Bool) :
    Follows (findField scope i ref onInstance) (findField scope j ref onInstance) d e
      fun f d' f' e' => f' = f ∧ d' = d ∧ e' = e := by
  refine (concur_readFieldRef ref).follows fun r => .program ?_
  rw [h.resolve]
  cases d.program.resolveField? r with
  | none => exact .throw
  | some f =>
      have hfield : e.program.fieldAt f = d.program.fieldAt f := by
        rw [Program.fieldAt, h.fields, Program.fieldAt]
      dsimp only
      rw [hfield]
      refine .ite Iff.rfl (fun _ => by simp [Follows]) fun _ => ?_
      exact .ite Iff.rfl (fun _ => by simp [Follows]) fun _ => .pure ⟨rfl, rfl, rfl⟩

/-- What a statement is resolved to does not depend on its index. -/
theorem follows_resolveStmt {d e : Draft} (h : SameFields d.program e.program) (scope : Scope)
    (i j : Nat) (s : StmtDef) :
    Follows (resolveStmt scope i s) (resolveStmt scope j s) d e fun k d' k' e' =>
      k' = k ∧ d'.program = d.program ∧ e'.program = e.program := by
  have hvar (name : String) := concur_findVar scope name
  -- a field that both find leaves both drafts as they are
  have hfield {α : Type} {ref : String} {onInstance : Bool} {next next' : FieldId → Builder α}
      {Q : α → Draft → α → Draft → Prop} (hnext : ∀ f, Follows (next f) (next' f) d e Q) :
      Follows (findField scope i ref onInstance >>= next) (findField scope j ref onInstance >>= next')
        d e Q := by
    refine (follows_findField h scope i j ref onInstance).bind ?_
    rintro f d' _ e' ⟨rfl, rfl, rfl⟩
    exact hnext _
  -- one case for each statement, with its parts looked up in the order of the code
  cases s with
  | new lhs type =>
      refine (concur_readType type).follows fun t => ?_
      refine .ite Iff.rfl (fun _ => by simp [Follows]) fun _ => ?_
      exact (hvar lhs).follows fun _ => .pure ⟨rfl, rfl, rfl⟩
  | copy lhs rhs => exact (hvar lhs).follows fun _ => (hvar rhs).follows fun _ => .pure ⟨rfl, rfl, rfl⟩
  | storeField base field rhs =>
      cases base with
      | none => exact hfield fun _ => (hvar rhs).follows fun _ => .pure ⟨rfl, rfl, rfl⟩
      | some base =>
          exact (hvar base).follows fun _ => hfield fun _ => (hvar rhs).follows fun _ =>
            .pure ⟨rfl, rfl, rfl⟩
  | loadField lhs base field =>
      cases base with
      | none => exact (hvar lhs).follows fun _ => hfield fun _ => .pure ⟨rfl, rfl, rfl⟩
      | some base =>
          exact (hvar lhs).follows fun _ => (hvar base).follows fun _ => hfield fun _ =>
            .pure ⟨rfl, rfl, rfl⟩
  | storeArray base rhs =>
      exact (hvar base).follows fun _ => (hvar rhs).follows fun _ => .pure ⟨rfl, rfl, rfl⟩
  | loadArray lhs base =>
      exact (hvar lhs).follows fun _ => (hvar base).follows fun _ => .pure ⟨rfl, rfl, rfl⟩
  | invoke kind base method args result =>
      refine (concur_readMethodRef method).follows fun target => ?_
      refine (concur_resolveBinding scope i j kind base).follows fun binding => ?_
      refine (Concur.mapM hvar args).follows fun vs => ?_
      -- whether or not the number of arguments is reported, the result is looked up next
      refine .ite Iff.rfl (fun _ => ?_) fun _ => ?_
      · refine Follows.bind (Q := fun _ d' _ e' => d'.program = d.program ∧ e'.program = e.program)
          (ensures_report.2 (yields_report.2 ⟨rfl, rfl⟩)) ?_
        rintro - d' - e' ⟨hd, he⟩
        exact (concur_findVar? scope result).follows fun _ => .pure ⟨rfl, hd, he⟩
      · exact (concur_findVar? scope result).follows fun _ => .pure ⟨rfl, rfl, rfl⟩
  | ret value => exact (concur_findVar? scope value).follows fun _ => .pure ⟨rfl, rfl, rfl⟩

/-- The statement is resolved to a kind, wherever it stands. -/
def Resolves (p : Program) (scope : Scope) (s : StmtDef) (kind : StmtKind) : Prop :=
  ∀ i (d : Draft), SameFields p d.program →
    Yields (resolveStmt scope i s) d fun k d' => k = kind ∧ d'.program = d.program

/-- What a statement was resolved to is a kind that it resolves to, and the program stays as it is. -/
theorem ensures_resolves {scope : Scope} {i : Nat} {s : StmtDef} {d : Draft} :
    Ensures (resolveStmt scope i s) d fun kind d' =>
      Resolves d.program scope s kind ∧ d'.program = d.program := by
  intro kind d' hrun
  have hfollows {e : Draft} (he : SameFields d.program e.program) (j : Nat) :=
    follows_resolveStmt he scope i j s kind d' hrun
  refine ⟨fun j e he => (hfollows he j).mono fun k e' hk => ⟨hk.1, hk.2.2⟩, ?_⟩
  obtain ⟨_, _, -, -, hd, -⟩ := hfollows ⟨fun _ => rfl, rfl⟩ i
  exact hd

/-- A program with the same fields resolves a statement in the same way. -/
theorem Resolves.congr {p p' : Program} {scope : Scope} {s : StmtDef} {kind : StmtKind}
    (h : Resolves p scope s kind) (hp : SameFields p p') : Resolves p' scope s kind :=
  fun i d hd => h i d ⟨fun r => (hd.resolve r).trans (hp.resolve r), hd.fields.trans hp.fields⟩

/-- A statement resolves to one kind at most. -/
theorem Resolves.unique {p : Program} {scope : Scope} {s : StmtDef} {kind kind' : StmtKind}
    (h : Resolves p scope s kind) (h' : Resolves p scope s kind') : kind' = kind := by
  obtain ⟨k, d, hrun, hk, -⟩ := h 0 ⟨p, #[]⟩ ⟨fun _ => rfl, rfl⟩
  obtain ⟨k', d', hrun', hk', -⟩ := h' 0 ⟨p, #[]⟩ ⟨fun _ => rfl, rfl⟩
  cases hrun.symm.trans hrun'
  exact hk'.symm.trans hk

/-! ## Lists of statements -/

/-- Statements that are resolved and added to the table one after the other. -/
inductive Lists (scope : Scope) :
    Program → List (StmtDef × Nat) → List (StmtId × StmtKind) → Program → Prop where
  | nil (p : Program) : Lists scope p [] [] p
  | cons {p q : Program} {x : StmtDef × Nat} {xs : List (StmtDef × Nat)} {kind : StmtKind}
      {rs : List (StmtId × StmtKind)} (resolves : Resolves p scope x.1 kind)
      (rest : Lists scope (p.pushStmt ⟨scope.method, x.2, kind⟩) xs rs q) :
      Lists scope p (x :: xs) ((⟨p.stmts.size⟩, kind) :: rs) q

/-- Adding statements lists them. -/
theorem ensures_addStmts {scope : Scope} {xs : List (StmtDef × Nat)} {d : Draft} :
    Ensures (xs.mapM (addStmt scope)) d fun rs d' => Lists scope d.program xs rs d'.program := by
  induction xs generalizing d with
  | nil => exact ensures_pure.2 (.nil _)
  | cons x xs ih =>
      simp only [List.mapM_cons, addStmt, ensures_bind]
      refine ensures_resolves.mono ?_
      rintro kind d' ⟨hkind, hd'⟩
      simp only [ensures_program, ensures_update, ensures_pure, hd']
      exact ih.mono fun rs d'' hrs => .cons hkind hrs

/-- Statements can be added if each of them resolves. -/
theorem yields_addStmts {scope : Scope} {xs : List (StmtDef × Nat)} {d : Draft}
    (h : ∀ x ∈ xs, ∃ kind, Resolves d.program scope x.1 kind) :
    Yields (xs.mapM (addStmt scope)) d fun rs d' => Lists scope d.program xs rs d'.program := by
  induction xs generalizing d with
  | nil => exact yields_pure.2 (.nil _)
  | cons x xs ih =>
      obtain ⟨kind, hkind⟩ := h x (by simp)
      simp only [List.mapM_cons, addStmt, yields_bind]
      refine (hkind x.2 d ⟨fun _ => rfl, rfl⟩).mono ?_
      rintro _ d' ⟨rfl, hd'⟩
      simp only [yields_program, yields_update, yields_pure, hd']
      refine (ih fun y hy => ?_).mono fun rs d'' hrs => .cons hkind hrs
      exact (h y (List.mem_cons_of_mem x hy)).imp fun _ hk => hk.congr (.of_hierarchy rfl rfl rfl)

end Builder

def Var.bare (v : Var) : Var := ⟨v.method, v.name, v.type, [], [], [], [], []⟩

/-- Entering a statement changes nothing else of a variable. -/
theorem Var.bare_addUse (k : AccessKind) (s : StmtId) (v : Var) : (v.addUse k s).bare = v.bare := by
  cases k <;> rfl

section Lists

variable {scope : Builder.Scope} {p q : Program} {xs : List (StmtDef × Nat)}
  {rs : List (StmtId × StmtKind)} (h : Builder.Lists scope p xs rs q)

include h

/-- Nothing but variables and statements changes. -/
theorem Builder.Lists.rest : q = { p with vars := q.vars, stmts := q.stmts } := by
  induction h with
  | nil => rfl
  | cons _ _ ih => exact ih

/-- Variables stay as they were, but for the statements that use them. -/
theorem Builder.Lists.vars : q.vars.size = p.vars.size ∧
    ∀ v, (q.varAt v).bare = (p.varAt v).bare := by
  induction h with
  | nil => exact ⟨rfl, fun _ => rfl⟩
  | @cons p q x _ kind _ _ _ ih =>
      refine ⟨ih.1.trans (Program.size_vars_pushStmt _ _), fun v => (ih.2 v).trans ?_⟩
      rw [Program.varAt_pushStmt]
      cases kind.access? with
      | none => rfl
      | some a =>
          simp only [Option.elim_some]
          split
          · exact Var.bare_addUse _ _ _
          · rfl

/-- There is one more statement for each that was added. -/
theorem Builder.Lists.size : q.stmts.size = p.stmts.size + xs.length := by
  induction h with
  | nil => rfl
  | cons _ _ ih =>
      rw [ih, Program.pushStmt, Array.size_push, List.length_cons]
      omega

/-- Statements are numbered in the order in which they were added. -/
theorem Builder.Lists.ids : rs.map (·.1) = (List.range' p.stmts.size xs.length).map StmtId.mk := by
  induction h with
  | nil => rfl
  | cons _ _ ih =>
      rw [List.map_cons, ih, List.length_cons, List.range'_succ, List.map_cons, Program.pushStmt,
        Array.size_push]

/-- Statements from before stay. -/
theorem Builder.Lists.old {i : Nat} {x : Stmt} (hx : p.stmts[i]? = some x) :
    q.stmts[i]? = some x := by
  induction h with
  | nil => exact hx
  | @cons p _ _ _ _ _ _ _ ih =>
      refine ih ?_
      have hlt : i < p.stmts.size := (Array.getElem?_eq_some_iff.1 hx).1
      rw [Program.pushStmt, Array.getElem?_push, if_neg (by omega), hx]

/-- Each of the statements has the kind that it is resolved to. -/
theorem Builder.Lists.new {i : Nat} {x : StmtDef × Nat} (hx : xs[i]? = some x) :
    ∃ kind, Builder.Resolves p scope x.1 kind ∧
      q.stmts[p.stmts.size + i]? = some ⟨scope.method, x.2, kind⟩ := by
  induction h generalizing i with
  | nil => simp at hx
  | @cons p q y ys kind rs hy hrest ih =>
      cases i with
      | zero =>
          cases hx
          refine ⟨kind, hy, hrest.old ?_⟩
          simp [Program.pushStmt]
      | succ i =>
          obtain ⟨k, hk, hstmt⟩ := ih hx
          refine ⟨k, hk.congr (.of_hierarchy rfl rfl rfl), ?_⟩
          rw [Program.pushStmt, Array.size_push] at hstmt
          rw [← hstmt]
          congr 1
          omega

end Lists

section Bodies

variable {scope : Builder.Scope} {p q : Program} {body : List StmtDef}
  {rs : List (StmtId × StmtKind)} (h : Builder.Lists scope p body.zipIdx rs q)

include h

/-- The statement at a place of the body has the number of that place. -/
theorem Builder.Lists.getElem?_stmts {i : Nat} {s : StmtId} (hs : (rs.map (·.1))[i]? = some s) :
    ∃ x, body[i]? = some x ∧ s = ⟨p.stmts.size + i⟩ := by
  rw [h.ids, List.length_zipIdx, List.getElem?_map] at hs
  obtain ⟨j, hj, rfl⟩ := Option.map_eq_some_iff.1 hs
  have hlt : i < body.length := by simpa using (List.getElem?_eq_some_iff.1 hj).1
  rw [List.getElem?_range' hlt, Nat.one_mul] at hj
  cases hj
  exact ⟨body[i], List.getElem?_eq_getElem hlt, rfl⟩

/-- The statements of a body are listed in order. -/
theorem Builder.Lists.stmt {i : Nat} {x : StmtDef} (hx : body[i]? = some x) :
    ∃ kind, Builder.Resolves p scope x kind ∧ (rs.map (·.1))[i]? = some ⟨p.stmts.size + i⟩ ∧
      q.stmts[p.stmts.size + i]? = some ⟨scope.method, i, kind⟩ := by
  have hzip : body.zipIdx[i]? = some (x, i) := by rw [List.getElem?_zipIdx, hx]; simp
  obtain ⟨kind, hkind, hstmt⟩ := h.new hzip
  have hlt : i < body.length := (List.getElem?_eq_some_iff.1 hx).1
  refine ⟨kind, hkind, ?_, hstmt⟩
  rw [h.ids, List.length_zipIdx, List.getElem?_map, List.getElem?_range' hlt, Nat.one_mul]
  rfl

end Bodies

end PointsTo
