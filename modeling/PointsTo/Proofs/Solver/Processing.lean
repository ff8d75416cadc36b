import PointsTo.Proofs.Solver.Visits
import Mathlib.Data.List.Nodup
import Mathlib.Data.List.ProdSigma
import Mathlib.Data.List.Perm.Subperm

/-! # Objects of variables

A new object of a variable links the field and array accesses on the variable to the slots of the
object, and resolves the calls on the variable. `Handled` says what is in place after a statement was
taken account of for an object of its base variable. Processing objects means attending to each of
them with each statement that has the variable as its base; the order does not matter for what is left
behind. Attending consists of moves, with at most one push.
-/

namespace PointsTo

/-! ## What is left behind -/

namespace State

variable (a : Analysis) (s : State)

/-- What is in place after a call was resolved for a receiver: the edge, and the receiver in the
variable of the callee that holds it, or a record that there is no callee. -/
def Dispatched (c : Context) (o : CsObjectId) (stmt : StmtId) (call : Invoke) : Prop :=
  ∃ r x, s.IsObject o r ∧ s.heap.objects[r.object.idx]? = some x ∧
    (a.program.resolveCallee? (some x.type) call = none → stmt ∈ s.unresolved) ∧
    ∀ method, a.program.resolveCallee? (some x.type) call = some method →
      s.HasCall ⟨c, stmt⟩ ⟨a.selector.receiverContext ⟨c, stmt⟩ r, method⟩ ∧
        ∀ b this, (a.program.methodAt method).body? = some b → b.this? = some this →
          s.Promises (.var (a.selector.receiverContext ⟨c, stmt⟩ r) this) o

/-- What is in place after a statement was taken account of for an object of its base variable. -/
def Handled (c : Context) (o : CsObjectId) (stmt : StmtId) : Prop :=
  match (a.program.stmtAt stmt).kind with
  | .instanceStore _ f rhs => s.HasFlow (.var c rhs) (.instanceField o f)
  | .instanceLoad lhs _ f => s.HasFlow (.instanceField o f) (.var c lhs)
  | .arrayStore _ rhs => s.HasFlow (.var c rhs) (.arrayIndex o)
  | .arrayLoad lhs _ => s.HasFlow (.arrayIndex o) (.var c lhs)
  | .invoke call => s.Dispatched a c o stmt call
  | _ => True

/-- All statements with the base variable were taken account of for the object. -/
def Processed (c : Context) (v : VarId) (o : CsObjectId) : Prop :=
  ∀ k, ∀ stmt ∈ (a.program.varAt v).uses k, s.Handled a c o stmt

variable {a s} {t : State}

/-- A call that was resolved for a receiver stays resolved while the state extends. -/
theorem Dispatched.mono {c : Context} {o : CsObjectId} {stmt : StmtId} {call : Invoke}
    (hst : s.Extends t) (h : s.Dispatched a c o stmt call) : t.Dispatched a c o stmt call := by
  obtain ⟨r, x, hr, hx, hnone, hcall⟩ := h
  refine ⟨r, x, hst.isObject hr, hst.heap _ _ hx, fun hm => hst.unresolved _ (hnone hm),
    fun method hm => ?_⟩
  obtain ⟨hedge, hthis⟩ := hcall method hm
  exact ⟨hst.hasCall hedge, fun b this hb ht => hst.promises (hthis b this hb ht)⟩

/-- What was in place for an object and a statement stays in place while the state extends. -/
theorem Handled.mono {c : Context} {o : CsObjectId} {stmt : StmtId} (hst : s.Extends t)
    (h : s.Handled a c o stmt) : t.Handled a c o stmt := by
  unfold Handled at h ⊢
  split at h
  · exact hst.hasFlow h
  · exact hst.hasFlow h
  · exact hst.hasFlow h
  · exact hst.hasFlow h
  · exact Dispatched.mono hst h
  · trivial

/-- A variable that was processed for an object stays so while the state extends. -/
theorem Processed.mono {c : Context} {v : VarId} {o : CsObjectId} (hst : s.Extends t)
    (h : s.Processed a c v o) : t.Processed a c v o :=
  fun k stmt hstmt => (h k stmt hstmt).mono hst

end State

variable {a : Analysis} {given : Fact → Prop} {T : Theory a given} {π : Type} {react : Reaction π}
  {E : List π → State → Prop}

section Objects

variable {c : Context} {v : VarId} {o : CsObjectId} {y : HeapObject} {stmt : StmtId} {s : State}

/-- The object of an identifier may be one of a variable. -/
structure Theory.Meets (T : Theory a given) (s : State) (c : Context) (v : VarId) (o : CsObjectId)
    (y : HeapObject) : Prop where
  denotes : s.Denotes o y
  admitted : T.Admits s.heap (.pointsTo (.var c v) y)

/-- A state that extends another one lets a variable meet the same objects. -/
theorem Theory.Meets.mono {t : State} (h : T.Meets s c v o y) (hst : s.Extends t)
    (hd : t.heap.Distinct) : T.Meets t c v o y :=
  ⟨hst.denotes h.denotes, T.mono hst.heap hd h.admitted⟩

variable (wf : a.program.WellFormed)

include wf

/-- A statement with a base variable is in the body of the method of that variable. -/
theorem Program.WellFormed.mem_stmtsOf_access {k : AccessKind}
    (hstmt : (a.program.stmtAt stmt).kind.access? = some (k, v)) :
    stmt ∈ a.program.stmtsOf (a.program.varAt v).method := by
  have hmem : stmt ∈ a.program.stmtsOf (a.program.stmtAt stmt).method := by
    refine wf.mem_stmtsOf_method fun hret => ?_
    rw [hret] at hstmt
    cases hstmt
  rwa [(wf.owns_operand hmem (StmtKind.mem_operands_of_access hstmt)).2]

omit wf in
/-- The method of a variable that has objects is reachable. -/
theorem Theory.Meets.reach (h : T.Meets s c v o y) :
    T.Admits s.heap (.reach ⟨c, (a.program.varAt v).method⟩) :=
  T.owner h.admitted

/-- The operands of a statement are relevant in the context in which its base variable meets an object.
-/
theorem Theory.Meets.relevant (h : T.Meets s c v o y) {k : AccessKind}
    (hstmt : (a.program.stmtAt stmt).kind.access? = some (k, v)) {w : VarId}
    (hw : w ∈ (a.program.stmtAt stmt).kind.operands) : T.Relevant s (.var c w) :=
  T.relevant_operand wf (m := ⟨c, _⟩) (wf.mem_stmtsOf_access hstmt) h.reach hw

omit wf in
/-- The premises of the rules about an object of a variable are admitted. -/
theorem Theory.Meets.premises (h : T.Meets s c v o y) {q : Fact}
    (hq : q ∈ [.reach ⟨c, (a.program.varAt v).method⟩, .pointsTo (.var c v) y]) :
    T.Admits s.heap q := by
  simp only [List.mem_cons, List.not_mem_nil, or_false] at hq
  rcases hq with rfl | rfl
  · exact h.reach
  · exact h.admitted

omit wf in
/-- An inclusion that needs only the method reached and the object of the variable is carried for an
object that the variable meets. -/
theorem Theory.Meets.carries (h : T.Meets s c v o y) {x z : Place}
    (hxz : Inclusion a.program
      [.reach ⟨c, (a.program.varAt v).method⟩, .pointsTo (.var c v) y] x z) :
    T.Carries s x z :=
  carries_of_inclusion hxz fun _ => h.premises

/-- An access on a variable is linked to the slot of an object. -/
theorem Theory.Meets.links_linkAccess (h : T.Meets s c v o y) (hs : Sound T s) {k : AccessKind}
    (hk : k ≠ .call) (hstmt : (a.program.stmtAt stmt).kind.access? = some (k, v)) :
    Links T s (a.linkAccess c o s stmt) ∧ (a.linkAccess c o s stmt).Handled a c o stmt := by
  have hmem := wf.mem_stmtsOf_access hstmt
  have hoperand {w : VarId} := h.relevant wf hstmt (w := w)
  have hfield {f : FieldId} := wf.indexed.field stmt f
  unfold Analysis.linkAccess
  simp only [State.Handled]
  -- the slot of the object is the target of a store and the source of a load
  -- one case for each kind of access; a call is excluded, and a statement of any other kind has no base
  -- variable
  cases hkind : (a.program.stmtAt stmt).kind with
  | instanceStore base f rhs =>
      rw [hkind] at hstmt hoperand hfield
      cases hstmt
      exact State.links_connectInto hs (hoperand (by simp [StmtKind.operands]))
        ⟨⟨y, h.denotes⟩, Or.inr (hfield rfl)⟩ (.var _ _) (.instanceField h.denotes _)
        (h.carries (.instanceStore hmem hkind))
  | instanceLoad lhs base f =>
      rw [hkind] at hstmt hoperand hfield
      cases hstmt
      exact State.links_connect hs ⟨⟨y, h.denotes⟩, Or.inr (hfield rfl)⟩
        (hoperand (by simp [StmtKind.operands])) (.instanceField h.denotes _) (.var _ _)
        (h.carries (.instanceLoad hmem hkind))
  | arrayStore base rhs =>
      rw [hkind] at hstmt hoperand
      cases hstmt
      exact State.links_connectInto hs (hoperand (by simp [StmtKind.operands])) ⟨y, h.denotes⟩
        (.var _ _) (.arrayIndex h.denotes) (h.carries (.arrayStore hmem hkind))
  | arrayLoad lhs base =>
      rw [hkind] at hstmt hoperand
      cases hstmt
      exact State.links_connect hs ⟨y, h.denotes⟩ (hoperand (by simp [StmtKind.operands]))
        (.arrayIndex h.denotes) (.var _ _) (h.carries (.arrayLoad hmem hkind))
  | invoke call =>
      rw [hkind, StmtKind.access?, Option.map_eq_some_iff] at hstmt
      obtain ⟨base, -, hbase⟩ := hstmt
      exact absurd (congrArg Prod.fst hbase).symm hk
  | _ => exact ⟨.refl, trivial⟩

/-! ## Calls on a variable -/

section Receivers

variable {call : Invoke} {callee : CsMethod}

/-- A call that is dispatched on an object of its base variable is allowed. -/
theorem Theory.Meets.allows (h : T.Meets s c v o y)
    (hd : Dispatches a.program a.selector s.heap.find? ⟨c, (a.program.varAt v).method⟩ stmt call v y
      callee) : T.Allows s call ⟨c, stmt⟩ callee where
  kind := hd.kind
  caller := by
    rw [(wf.mem_stmtsOf_iff.1 hd.stmt).2]
    exact h.reach
  admitted := T.closed _ _ _ (.dispatch hd) fun _ => h.premises

/-- The receiver of a call is assigned to the variable of the callee that holds it. -/
theorem Theory.Meets.moves_bindThis (h : T.Meets s c v o y)
    (hd : Dispatches a.program a.selector s.heap.find? ⟨c, (a.program.varAt v).method⟩ stmt call v y
      callee) :
    Moves T 1 s (a.bindThis callee o s) ∧
      ∀ b this, (a.program.methodAt callee.method).body? = some b → b.this? = some this →
        (a.bindThis callee o s).Promises (.var callee.context this) o := by
  unfold Analysis.bindThis
  -- a callee without a body, or without a variable for the receiver, has nothing to assign to
  split
  · rename_i this hthis
    obtain ⟨b, hb, hbt⟩ := Option.bind_eq_some_iff.1 hthis
    obtain ⟨hmoves, hpromise⟩ := State.moves_assign
      (Theory.relevant_var ((wf.body _ b hb).this this hbt) (h.allows wf hd).reach) (.var _ _)
      h.denotes (T.closed _ _ _ (.receiver hd hb hbt) fun _ => h.premises)
    refine ⟨hmoves, fun b' this' hb' hbt' => ?_⟩
    cases hb.symm.trans hb'
    cases hbt.symm.trans hbt'
    exact hpromise
  · rename_i hnone
    refine ⟨.refl _ _, fun b this hb hbt => ?_⟩
    rw [hb, Option.bind_some, hbt] at hnone
    cases hnone

/-- Resolving a call for a receiver pushes at most once. -/
theorem Theory.Meets.acts_dispatchCall {k : Machine π} (h : T.Meets k.state c v o y)
    (hs : Sound T k.state) (htame : Tame T react E) (hE : E k.extensions k.state)
    (hstmt : (a.program.stmtAt stmt).kind.access? = some (.call, v)) :
    Acts T E 1 (·.Handled a c o stmt) k (a.dispatchCall react c o k stmt) := by
  have hmem := wf.mem_stmtsOf_access hstmt
  obtain ⟨id, hid, hx⟩ := h.denotes
  unfold Analysis.dispatchCall
  simp only [State.Handled, Stmt.invoke?]
  cases hkind : (a.program.stmtAt stmt).kind with
  | invoke call =>
      rw [hkind, StmtKind.access?, Option.map_eq_some_iff] at hstmt
      obtain ⟨base, hbase, heq⟩ := hstmt
      cases heq
      simp only [hid.object, Heap.get_of_getElem? hx]
      split
      · -- the receiver has no method for the call, which is only recorded
        rename_i hnone
        generalize _ ++ y.object.text a.program = text
        have hreport : Move T k.state (k.state.report .trace text) :=
          .silent (k.state.agrees_report _ _)
        have hmark : Move T _ ((k.state.report .trace text).markUnresolved stmt) :=
          .unresolved ⟨call, v, c, y, hkind, hbase, h.admitted, hnone⟩
        have hext := hreport.extends.trans hmark.extends
        refine htame.modify hE (.move hreport (.single hmark)) ⟨_, y.object, hext.isObject hid,
          hext.heap _ _ hx, fun _ => ?_, fun method hm => ?_⟩
        · exact State.mem_unresolved_markUnresolved.2 (Or.inr rfl)
        · cases hnone.symm.trans hm
      · rename_i method htarget
        generalize hr : a.selector.receiverContext _ _ = context
        have hd : Dispatches a.program a.selector k.state.heap.find?
            ⟨c, (a.program.varAt v).method⟩ stmt call v y ⟨context, method⟩ :=
          ⟨hmem, hkind, hbase, htarget, id, hs.distinct.find? hx, hr.symm⟩
        -- the receiver is passed on before the edge is added, so it is passed on for old edges too
        obtain ⟨hbind, hthis⟩ := h.moves_bindThis wf hd
        have hs' := hbind.sound hs
        have hadd : Acts T E 0 _ _ (a.addCall react call _ _ (k.modify (a.bindThis _ o))) :=
          ((h.allows wf hd).mono hbind.extends hs'.distinct).acts_addCall wf hs' htame
            (htame.mono hbind.extends hE)
        have hext := hbind.extends.trans hadd.moves.extends
        refine ⟨hadd.extensions, hbind.trans hadd.moves, _, y.object, hext.isObject hid,
          hext.heap _ _ hx, fun hm => ?_, fun m hm => ?_⟩
        · cases htarget.symm.trans hm
        cases htarget.symm.trans hm
        rw [hr]
        exact ⟨hadd.done, fun b this hb ht => hadd.moves.extends.promises (hthis b this hb ht)⟩
  | _ =>
      rw [hkind] at hstmt
      cases hstmt

end Receivers

/-! ## New objects -/

/-- The kinds of accesses, in the order in which they are attended to. -/
def AccessKind.all : List AccessKind := [.storeField, .loadField, .storeArray, .loadArray, .call]

/-- The statements that have a variable as their base. -/
def Var.accesses (v : Var) : List StmtId := AccessKind.all.flatMap v.uses

omit wf in
/-- The accesses of a variable are the statements with the variable as their base, whatever their kind.
-/
theorem Var.mem_accesses {v : Var} {stmt : StmtId} :
    stmt ∈ v.accesses ↔ ∃ k, stmt ∈ v.uses k := by
  rw [accesses, List.mem_flatMap]
  constructor
  · rintro ⟨k, -, hk⟩
    exact ⟨k, hk⟩
  · rintro ⟨k, hk⟩
    exact ⟨k, by cases k <;> simp [AccessKind.all], hk⟩

/-- A variable is the base of no more statements than there are, whatever the kinds of accesses. -/
theorem Program.WellFormed.length_accesses_le (v : VarId) :
    (a.program.varAt v).accesses.length ≤ a.program.stmts.size := by
  -- the statements are counted by their indices, which are below the number of statements and occur
  -- once
  have hnodup : ((a.program.varAt v).accesses.map StmtId.idx).Nodup := by
    rw [Var.accesses, List.map_flatMap, List.nodup_flatMap]
    refine ⟨fun k _ => ?_, ?_⟩
    · exact List.pairwise_map.2 ((wf.indexed.sorted k v).imp Nat.ne_of_lt)
    · -- a statement has only one kind of access
      have hkinds : AccessKind.all.Nodup := by decide
      refine hkinds.imp fun {k k'} hne => List.disjoint_left.2 fun n hn hn' => hne ?_
      obtain ⟨s, hs, rfl⟩ := List.mem_map.1 hn
      obtain ⟨s', hs', heq⟩ := List.mem_map.1 hn'
      have haccess := (wf.indexed.use k v s).1 hs
      have haccess' := (wf.indexed.use k' v s').1 hs'
      cases s
      cases s'
      cases heq
      rw [haccess] at haccess'
      cases haccess'
      rfl
  have hsub : (a.program.varAt v).accesses.map StmtId.idx ⊆ List.range a.program.stmts.size := by
    intro n hn
    obtain ⟨s, hs, rfl⟩ := List.mem_map.1 hn
    obtain ⟨k, hk⟩ := Var.mem_accesses.1 hs
    refine List.mem_range.2 (Program.lt_size_of_kind fun hret => ?_)
    have haccess := (wf.indexed.use k v s).1 hk
    rw [hret] at haccess
    cases haccess
  have hlength := (List.subperm_of_subset hnodup hsub).length_le
  rwa [List.length_map, List.length_range] at hlength

/-- Takes account of a statement for an object of its base variable, whatever the kind of access. -/
def Analysis.attend (a : Analysis) (react : Reaction π) (c : Context) (m : Machine π)
    (task : CsObjectId × StmtId) : Machine π :=
  a.dispatchCall react c task.1 (m.modify (a.linkAccess c task.1 · task.2)) task.2

omit wf in
/-- Nothing is dispatched for a statement that is not a call. -/
theorem Analysis.attend_access {k : AccessKind} (hk : k ≠ .call)
    (hstmt : (a.program.stmtAt stmt).kind.access? = some (k, v)) (m : Machine π) :
    a.attend react c m (o, stmt) = m.modify (a.linkAccess c o · stmt) := by
  unfold attend dispatchCall
  simp only [Stmt.invoke?]
  cases hkind : (a.program.stmtAt stmt).kind with
  | invoke call =>
      rw [hkind, StmtKind.access?, Option.map_eq_some_iff] at hstmt
      obtain ⟨base, -, hbase⟩ := hstmt
      exact absurd (congrArg Prod.fst hbase).symm hk
  | _ => rfl

omit wf in
/-- A call has no slot. -/
theorem Analysis.attend_call (hstmt : (a.program.stmtAt stmt).kind.access? = some (.call, v))
    (m : Machine π) : a.attend react c m (o, stmt) = a.dispatchCall react c o m stmt := by
  unfold attend
  congr 1
  unfold Machine.modify linkAccess
  cases hkind : (a.program.stmtAt stmt).kind with
  | instanceStore | instanceLoad | arrayStore | arrayLoad =>
      rw [hkind] at hstmt
      cases hstmt
  | _ => rfl

/-- Attending to a statement for an object of its base variable pushes at most once. -/
theorem Theory.Meets.acts_attend {k : Machine π} (h : T.Meets k.state c v o y)
    (hs : Sound T k.state) (htame : Tame T react E) (hE : E k.extensions k.state)
    (hstmt : stmt ∈ (a.program.varAt v).accesses) :
    Acts T E 1 (·.Handled a c o stmt) k (a.attend react c k (o, stmt)) := by
  obtain ⟨use, huse⟩ := Var.mem_accesses.1 hstmt
  have haccess := (wf.indexed.use use v stmt).1 huse
  by_cases hcall : use = .call
  · subst hcall
    rw [Analysis.attend_call haccess]
    exact h.acts_dispatchCall wf hs htame hE haccess
  · rw [Analysis.attend_access hcall haccess]
    obtain ⟨hlinks, hhandled⟩ := h.links_linkAccess wf hs hcall haccess
    exact htame.modify hE (.of_links hlinks) hhandled

/-- Attending to statements for objects of a variable, in whatever order. -/
theorem Analysis.acts_attend {k : Machine π} {i : PointerId} {tasks : List (CsObjectId × StmtId)}
    (hs : Sound T k.state) (htame : Tame T react E) (hE : E k.extensions k.state)
    (hi : k.state.IsPointer i (.var c v))
    (htasks : ∀ task ∈ tasks, (k.state.elements.pointsTo i).contains task.1 = true ∧
      task.2 ∈ (a.program.varAt v).accesses) :
    Acts T E tasks.length (fun s => ∀ task ∈ tasks, s.Handled a c task.1 task.2) k
      (tasks.foldl (a.attend react c) k) := by
  -- each task is one step of the fold; what an earlier task put in place stays, as the state only
  -- extends
  have hfold := Acts.foldl (T := T) (n := 1) (f := a.attend react c)
    (Q := fun task s => s.Handled a c task.1 task.2) (fun _ _ _ hst => State.Handled.mono hst) hs hE
    fun task htask k' hE' ht hst => by
      obtain ⟨hobject, hstmt⟩ := htasks task htask
      obtain ⟨p, x, y, hp, hx, hy, hadm⟩ := hs.pointsTo i task.1 hobject
      cases hi.symm.trans hp
      cases hx
      have hmeets : T.Meets k.state c v task.1 y := ⟨hy, hadm⟩
      exact (hmeets.mono hst ht.distinct).acts_attend wf ht htame hE' hstmt
  rwa [Nat.one_mul] at hfold

/-- Processing an object of a variable attends to all statements with the variable as their base. -/
theorem Analysis.processObject_eq (m : Machine π) :
    a.processObject react c v m o =
      ((a.program.varAt v).accesses.map (o, ·)).foldl (a.attend react c) m := by
  have hlink : ∀ (l : List StmtId) (m : Machine π), (∀ stmt ∈ l, ∃ k ≠ .call,
      (a.program.stmtAt stmt).kind.access? = some (k, v)) →
      m.modify (fun s => l.foldl (a.linkAccess c o) s) =
        (l.map (o, ·)).foldl (a.attend react c) m := by
    intro l
    -- by induction on the statements: linking touches the state alone, so it commutes with `modify`
    induction l with
    | nil => exact fun m _ => rfl
    | cons stmt l ih =>
        intro m hl
        obtain ⟨k, hk, haccess⟩ := hl stmt (List.mem_cons_self ..)
        rw [List.map_cons, List.foldl_cons, attend_access hk haccess,
          ← ih _ fun stmt' h' => hl stmt' (List.mem_cons_of_mem _ h')]
        rfl
  have hcalls : ∀ (l : List StmtId) (m : Machine π),
      (∀ stmt ∈ l, (a.program.stmtAt stmt).kind.access? = some (.call, v)) →
      l.foldl (a.dispatchCall react c o) m = (l.map (o, ·)).foldl (a.attend react c) m := by
    intro l
    -- by induction on the statements, one call at a time
    induction l with
    | nil => exact fun m _ => rfl
    | cons stmt l ih =>
        intro m hl
        rw [List.map_cons, List.foldl_cons, List.foldl_cons,
          attend_call (hl stmt (List.mem_cons_self ..)),
          ih _ fun stmt' h' => hl stmt' (List.mem_cons_of_mem _ h')]
  have haccesses : (a.program.varAt v).accesses =
      ((a.program.varAt v).storeFields ++ (a.program.varAt v).loadFields ++
        (a.program.varAt v).storeArrays ++ (a.program.varAt v).loadArrays) ++
        (a.program.varAt v).invokes := by
    simp [Var.accesses, AccessKind.all, Var.uses]
  -- the calls come last in the code, so the accesses are cut there and each part uses its own equation
  rw [haccesses, List.map_append, List.foldl_append, ← hcalls, ← hlink]
  · rfl
  · intro stmt hstmt
    simp only [List.mem_append] at hstmt
    rcases hstmt with ((hstmt | hstmt) | hstmt) | hstmt
    · exact ⟨.storeField, by simp, (wf.indexed.use .storeField v stmt).1 hstmt⟩
    · exact ⟨.loadField, by simp, (wf.indexed.use .loadField v stmt).1 hstmt⟩
    · exact ⟨.storeArray, by simp, (wf.indexed.use .storeArray v stmt).1 hstmt⟩
    · exact ⟨.loadArray, by simp, (wf.indexed.use .loadArray v stmt).1 hstmt⟩
  · exact fun stmt hstmt => (wf.indexed.use .call v stmt).1 hstmt

/-- Processing objects of a variable attends to each of them with each statement. -/
theorem Analysis.foldl_processObject_eq (objects : List CsObjectId) (m : Machine π) :
    objects.foldl (a.processObject react c v) m =
      (objects ×ˢ (a.program.varAt v).accesses).foldl (a.attend react c) m := by
  induction objects generalizing m with
  | nil => rfl
  | cons o objects ih =>
      rw [List.foldl_cons, ih, processObject_eq wf, List.product_cons, List.foldl_append]

/-- Does what new objects of a pointer call for. If the pointer is one of a variable, the given pairs
of objects and statements are attended to in the given order. -/
def Analysis.processInOrder (a : Analysis) (react : Reaction π) (tasks : List (CsObjectId × StmtId))
    (i : PointerId) (objects : ObjectSet) (k : Machine π) : Machine π :=
  match k.state.elements.pointer i with
  | .var c _ => (tasks.foldl (a.attend react c) k).notify react (.objectsAdded i objects)
  | _ => k

/-- The pairs of an object and a statement that new objects of a pointer call for. -/
def Program.tasks (p : Program) (objects : ObjectSet) : Pointer → List (CsObjectId × StmtId)
  | .var _ v => objects.toList ×ˢ (p.varAt v).accesses
  | _ => []

/-- The code processes new objects in the order in which the objects and the accesses are listed. -/
theorem Analysis.processObjects_eq (i : PointerId) (objects : ObjectSet) (k : Machine π) :
    a.processObjects react i objects k =
      a.processInOrder react (a.program.tasks objects (k.state.elements.pointer i)) i objects k := by
  unfold processObjects processInOrder
  cases k.state.elements.pointer i with
  | var c v => simp only [Program.tasks, foldl_processObject_eq wf]
  | _ => rfl

/-- Processing new objects of a pointer takes account of each of them, in whatever order. -/
theorem Analysis.acts_processInOrder {k : Machine π} {i : PointerId} {p : Pointer}
    {objects : ObjectSet} (hs : Sound T k.state) (htame : Tame T react E)
    (hE : E k.extensions k.state) (hi : k.state.IsPointer i p)
    (hobjects : ∀ o, objects.contains o = true → (k.state.elements.pointsTo i).contains o = true)
    {tasks : List (CsObjectId × StmtId)} (htasks : tasks.Perm (a.program.tasks objects p)) :
    Acts T E (a.program.stmts.size * objects.toList.length)
      (fun s => ∀ c v, p = .var c v → ∀ o, objects.contains o = true → s.Processed a c v o) k
      (a.processInOrder react tasks i objects k) := by
  unfold processInOrder
  rw [hi.pointer]
  -- only the objects of a variable call for anything
  cases p with
  | var c v =>
      rw [Program.tasks] at htasks
      have htask : ∀ task ∈ tasks, (k.state.elements.pointsTo i).contains task.1 = true ∧
          task.2 ∈ (a.program.varAt v).accesses := by
        intro task htask
        obtain ⟨ho, hstmt⟩ := List.mem_product.1 (htasks.mem_iff.1 htask)
        exact ⟨hobjects _ ((ObjectSet.mem_toList _ _).1 ho), hstmt⟩
      have hfold := a.acts_attend wf hs htame hE hi htask
      have hlength : tasks.length ≤ a.program.stmts.size * objects.toList.length := by
        rw [htasks.length_eq, List.length_product, Nat.mul_comm]
        exact Nat.mul_le_mul_right _ (wf.length_accesses_le v)
      refine (hfold.weaken hlength fun hdone c' v' heq o ho use stmt hstmt => ?_).notify htame hs
        (n := .objectsAdded i objects) Notice.noConfusion ⟨⟨_, hfold.moves.extends.isPointer hi⟩, ?_⟩ ?_
      · cases heq
        refine hdone (o, stmt) (htasks.mem_iff.2 (List.mem_product.2 ⟨?_, ?_⟩))
        · exact (ObjectSet.mem_toList _ o).2 ho
        · exact Var.mem_accesses.2 ⟨use, hstmt⟩
      · intro o ho
        obtain ⟨p, x, y, -, -, hy, -⟩ := hs.pointsTo i o (hobjects o ho)
        exact ⟨y, hfold.moves.extends.denotes hy⟩
      · exact fun hst hdone c' v' heq o ho => (hdone c' v' heq o ho).mono hst
  -- new objects of fields and slots are not processed any further
  | _ => exact ⟨hE, .refl _ _, by simp⟩

end Objects

end PointsTo
