import PointsTo.Program.Memo

/-! # Remembered answers are right

A memo that holds nothing but answers of the program stays so, whatever is asked, and gives the answers
that would be found without it. That is said of whole computations: one that answers a value does so on
every valid memo, and leaves a valid memo.
-/

namespace PointsTo

namespace Memo

variable {p : Program} {α β : Type}

/-- The memo holds what the program answers. -/
def Valid (p : Program) (memo : Memo) : Prop := ∀ e ∈ memo, e.2 = p.dispatch? e.1.1 e.1.2

/-- On every valid memo the computation gives the value, and keeps the memo valid. -/
def Answers (p : Program) (x : StateM Memo α) (a : α) : Prop :=
  ∀ memo : Memo, memo.Valid p → (x memo).1 = a ∧ Valid p (x memo).2

theorem valid_nil : Valid p [] := fun _ he => nomatch he

theorem answers_pure (p : Program) (a : α) : Answers p (pure a) a := fun _ hmemo => ⟨rfl, hmemo⟩

/-- The second part starts with a valid memo, as the first one keeps it so. -/
theorem Answers.bind {x : StateM Memo α} {a : α} {f : α → StateM Memo β} {b : β}
    (hx : Answers p x a) (hf : Answers p (f a) b) : Answers p (x >>= f) b := by
  intro memo hmemo
  obtain ⟨ha, hvalid⟩ := hx memo hmemo
  have hb := hf _ hvalid
  rwa [← ha] at hb

/-- A value may be mapped. -/
theorem Answers.map {x : StateM Memo α} {a : α} (hx : Answers p x a) (f : α → β) :
    Answers p (f <$> x) (f a) := by
  intro memo hmemo
  obtain ⟨ha, hvalid⟩ := hx memo hmemo
  exact ⟨congrArg f ha, hvalid⟩

/-- A list is answered element by element. -/
theorem Answers.mapM {f : α → StateM Memo β} {g : α → β} (h : ∀ a, Answers p (f a) (g a))
    (l : List α) : Answers p (l.mapM f) (l.map g) := by
  induction l with
  | nil => exact answers_pure p []
  | cons a l ih =>
      rw [List.mapM_cons]
      exact (h a).bind (ih.bind (answers_pure p _))

/-- What is remembered is the answer, and what is not is looked for and remembered. -/
theorem dispatch_answers (p : Program) (c : ClassId) (s : Subsignature) :
    Answers p (dispatch p c s) (p.dispatch? c s) := by
  intro memo hmemo
  unfold dispatch
  cases hlookup : memo.lookup (c, s) with
  | some answer =>
      obtain ⟨before, after, rfl, -⟩ := List.lookup_eq_some_iff.1 hlookup
      exact ⟨hmemo _ (List.mem_append_right _ (List.mem_cons_self ..)), hmemo⟩
  | none =>
      refine ⟨rfl, fun e he => ?_⟩
      rcases List.mem_cons.1 he with rfl | he
      · rfl
      · exact hmemo e he

/-- The callee for a receiver is the one that is looked up without a memo. -/
theorem resolveCallee_answers (p : Program) (receiver : Option Ty) (call : Invoke) :
    Answers p (resolveCallee p receiver call) (p.resolveCallee? receiver call) := by
  unfold resolveCallee Program.resolveCallee? Program.specialTarget?
  cases call.binding with
  | static => exact answers_pure p _
  | special base =>
      cases p.findClass? call.target.className with
      | none => exact answers_pure p none
      | some c => exact dispatch_answers p c _
  | virtual base | interface base =>
      rw [Option.bind_eq_bind, Option.bind_eq_bind, ← Option.bind_assoc]
      cases receiver.bind p.dispatchClass? with
      | none => exact answers_pure p none
      | some c => exact dispatch_answers p c _

/-- The callees of a call are those that are looked up without a memo. -/
theorem resolveAll_answers (p : Program) (call : Invoke) :
    Answers p (resolveAll p call) (p.resolveAll call) := by
  have hcallee := (resolveCallee_answers p none call).map Option.toList
  unfold resolveAll Program.resolveAll
  cases call.binding with
  | static => exact hcallee
  | special base => exact hcallee
  | virtual base | interface base =>
      cases p.findClass? call.target.className with
      | none => exact answers_pure p _
      | some c =>
          have hall := (Answers.mapM (fun d => dispatch_answers p d call.target.subsignature)
            ((p.allSubtypes c).filter p.isInstantiable)).map fun found => p.methodSet (found.filterMap id)
          rwa [List.filterMap_map] at hall

end Memo

end PointsTo
