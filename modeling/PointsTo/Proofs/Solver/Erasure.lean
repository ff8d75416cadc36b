import PointsTo.Proofs.Solver.Runs

/-! # Extensions that carry more

An extension may carry something beside what it answers by, such as a record of what it has done, or of
what it was told. If it answers as it would without that, then the run is the same without it: `map`
takes away what is carried, and goes with every operation of the solver.
-/

namespace PointsTo

variable {π ρ : Type} {f : π → ρ}

/-- Extensions answer as those that `f` makes of them: they leave the same state behind, and what they are
afterwards and what they register becomes by `f` what it would be. -/
def Reaction.Erases (react : Reaction π) (f : π → ρ) (react' : Reaction ρ) : Prop :=
  ∀ n e s (arrivals : List π), (react' n (f e)).run s (arrivals.map f) =
    (f ((react n e).run s arrivals).1, ((react n e).run s arrivals).2.1,
      ((react n e).run s arrivals).2.2.map f)

namespace Machine

def map (f : π → ρ) (k : Machine π) : Machine ρ := ⟨k.state, k.extensions.map f⟩

@[simp]
theorem map_state (f : π → ρ) (k : Machine π) : (k.map f).state = k.state := rfl

@[simp]
theorem map_modify (f : π → ρ) (k : Machine π) (g : State → State) :
    (k.modify g).map f = (k.map f).modify g := rfl

variable {react : Reaction π} {react' : Reaction ρ} (h : react.Erases f react')

include h

/-- A round of extensions that erase to others is a round of those. -/
theorem round_map (n : Notice) (es : List π) (s : State) (arrivals : List π) :
    round react' n (es.map f) s (arrivals.map f) =
      ((round react n es s arrivals).1.map f, (round react n es s arrivals).2.1,
        (round react n es s arrivals).2.2.map f) := by
  induction es generalizing s arrivals with
  | nil => rfl
  | cons e es ih =>
      simp only [List.map_cons, round]
      rw [h n e s arrivals, ih]

/-- Telling a notice commutes with erasing. -/
theorem map_notify (n : Notice) (k : Machine π) :
    (k.notify react n).map f = (k.map f).notify react' n := by
  have hround := round_map h n k.extensions k.state []
  rw [List.map_nil] at hround
  simp only [notify, map, hround, List.map_append]

end Machine

namespace Analysis

open Machine

variable (a : Analysis)

section Operations

variable {react : Reaction π} {react' : Reaction ρ} (h : react.Erases f react')

include h

/-- Adding a call commutes with erasing. -/
theorem map_addCall (call : Invoke) (site : CsCallSite) (callee : CsMethod) (k : Machine π) :
    (a.addCall react call site callee k).map f = a.addCall react' call site callee (k.map f) := by
  obtain ⟨s, es⟩ := k
  unfold addCall map
  dsimp only
  split
  · rfl
  · exact map_notify h _ _

/-- Visiting a call commutes with erasing. -/
theorem map_visitInvoke (id : CsMethodId) (site : CsCallSite) (call : Invoke) (k : Machine π) :
    (a.visitInvoke react id site call k).map f = a.visitInvoke react' id site call (k.map f) := by
  simp only [visitInvoke, map_state]
  split
  · split
    · rw [a.map_addCall h]
      rfl
    · rfl
  · rfl

/-- Visiting a statement commutes with erasing. -/
theorem map_visitStmt (id : CsMethodId) (method : CsMethod) (k : Machine π) (stmt : StmtId) :
    (a.visitStmt react id method k stmt).map f = a.visitStmt react' id method (k.map f) stmt := by
  unfold visitStmt
  split
  · exact map_modify f k _
  · exact map_modify f k _
  · exact map_modify f k _
  · exact map_modify f k _
  · exact a.map_visitInvoke h id _ _ k
  · rfl

/-- Visiting a method commutes with erasing. -/
theorem map_visitMethod (id : CsMethodId) (k : Machine π) :
    (a.visitMethod react id k).map f = a.visitMethod react' id (k.map f) := by
  simp only [visitMethod, map_notify h, map_state]
  rw [← map_modify, List.foldl_hom (map f)]
  intro k stmt
  exact (a.map_visitStmt h id _ k stmt).symm

/-- Resolving a call for a receiver commutes with erasing. -/
theorem map_dispatchCall (c : Context) (o : CsObjectId) (k : Machine π) (stmt : StmtId) :
    (a.dispatchCall react c o k stmt).map f = a.dispatchCall react' c o (k.map f) stmt := by
  simp only [dispatchCall, map_state]
  split
  · rfl
  · split
    · rfl
    · rw [a.map_addCall h, map_modify]

/-- Processing an object commutes with erasing. -/
theorem map_processObject (c : Context) (v : VarId) (k : Machine π) (o : CsObjectId) :
    (a.processObject react c v k o).map f = a.processObject react' c v (k.map f) o := by
  unfold processObject
  rw [← map_modify, List.foldl_hom (map f)]
  intro k stmt
  exact (a.map_dispatchCall h c o k stmt).symm

/-- Processing objects commutes with erasing. -/
theorem map_processObjects (p : PointerId) (objects : ObjectSet) (k : Machine π) :
    (a.processObjects react p objects k).map f = a.processObjects react' p objects (k.map f) := by
  simp only [processObjects, map_state]
  split
  · rw [map_notify h, List.foldl_hom (map f)]
    intro k o
    exact (a.map_processObject h _ _ k o).symm
  · rfl

/-- Processing an entry of the work list commutes with erasing. -/
theorem map_processFact (p : PointerId) (objects : ObjectSet) (k : Machine π) :
    (a.processFact react p objects k).map f = a.processFact react' p objects (k.map f) := by
  simp only [processFact]
  split
  · rename_i hempty
    exact (if_pos hempty).symm
  · rename_i hempty
    rw [a.map_processObjects h]
    exact (if_neg hempty).symm

/-- A step is the same without what the extensions carry. -/
theorem map_step (k : Machine π) : (a.step react k).map f = a.step react' (k.map f) := by
  simp only [step, map_state]
  split
  · rw [a.map_visitMethod h, map_modify]
  · split
    · rw [a.map_processFact h, map_modify]
    · rfl

/-- Steps until some condition holds commute with erasing, if the condition does not look at what is
erased. -/
theorem map_advance (isDone : Machine π → Bool) (isDone' : Machine ρ → Bool)
    (hdone : ∀ k : Machine π, isDone' (k.map f) = isDone k) (k : Machine π) :
    (a.advance react isDone k).map f = a.advance react' isDone' (k.map f) :=
  rounds_hom hdone (a.map_step h) _ _ k

end Operations

/-! ## Runs -/

/-- The state of a run after the checks of the program. -/
def checked : State :=
  (State.initial.report .debug ("starting " ++ a.options.selector.text ++ " points-to analysis")).report
    .debug (toString (staticCalls a.program).length ++ " statically bound call sites resolved")

/-- The machine of a run when it has done all that it has to do, and has not told the extensions so
yet. -/
def fixpoint (react : Reaction π) (entry : MethodId) (extensions : List π) : Machine π :=
  a.advance react isDone
    ((a.advance react isVisited ⟨start entry a.checked, extensions⟩).notify react .started)

/-- A run is the same without what the extensions carry. -/
theorem map_fixpoint {react : Reaction π} {react' : Reaction ρ} (h : react.Erases f react')
    (entry : MethodId) (extensions : List π) :
    (a.fixpoint react entry extensions).map f = a.fixpoint react' entry (extensions.map f) := by
  rw [fixpoint, fixpoint, a.map_advance h isDone isDone fun _ => rfl, map_notify h,
    a.map_advance h isVisited isVisited fun _ => rfl]
  rfl

/-- A run that gives a result does so at its fixpoint. -/
theorem solve_eq_ok (react : Reaction π) {extensions : List π} {r : Solution}
    (h : (a.solve react extensions).result = .ok r) :
    ∃ entry, a.entryMethod = .ok entry ∧ a.checkStaticCalls = .ok () ∧
      isDone (a.fixpoint react entry extensions) = true ∧
      (a.finish react (a.fixpoint react entry extensions)).result = .ok r := by
  -- the failures of a run are its entry method, its static calls, and a budget that does not suffice
  unfold solve at h
  split at h
  · cases h
  · rename_i entry hentry
    split at h
    · cases h
    · rename_i hcheck
      refine ⟨entry, hentry, hcheck, ?_⟩
      simp only [solveFrom] at h
      split at h
      · cases h
      · split at h
        · cases h
        · rename_i hdone
          rw [Bool.not_eq_true', Bool.not_eq_false] at hdone
          exact ⟨hdone, h⟩

end Analysis

end PointsTo
