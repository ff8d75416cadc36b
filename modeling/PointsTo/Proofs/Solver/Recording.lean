import PointsTo.Proofs.Solver.Erasure

/-! # Recorded runs

What the extensions of a run do can be recorded. Beside each extension stands a list of the objects that
it has injected and of the flow edges that it has added, and each of its scripts writes to the list.
Nothing reads the list, so the run is the same as without it: `forget` takes the records away.
-/

namespace PointsTo

variable {π α : Type}

/-! ## Records -/

/-- What an extension can add to what the solver has found. -/
inductive Act where
  | inject (p : PointerId) (objects : ObjectSet)
  | flow (source target : PointerId)
  deriving DecidableEq, Repr

/-- The script that also writes down what it adds, after what was added before. Extensions that it
registers have added nothing. -/
def Script.recorded : Script π α → List Act → Script (π × List Act) (α × List Act)
  | done x, acts => done (x, acts)
  | view next, acts => view fun s => (next s).recorded acts
  | pointer p next, acts => pointer p fun i => (next i).recorded acts
  | object c o next, acts => object c o fun i => (next i).recorded acts
  | callSite c next, acts => callSite c fun i => (next i).recorded acts
  | method m next, acts => method m fun i => (next i).recorded acts
  | mock d t c next, acts => mock d t c fun o => (next o).recorded acts
  | inject p objects next, acts => inject p objects (next.recorded (acts ++ [.inject p objects]))
  | flow source target next, acts => flow source target (next.recorded (acts ++ [.flow source target]))
  | register e next, acts => register (e, []) (next.recorded acts)
  | report severity text next, acts => report severity text (next.recorded acts)
  | note event next, acts => note event (next.recorded acts)

/-- Answers notices as before, and writes down what is added. -/
def Reaction.recorded (react : Reaction π) : Reaction (π × List Act) :=
  fun n e => (react n e.1).recorded e.2

/-- A machine without the records of its extensions. -/
def Machine.forget (k : Machine (π × List Act)) : Machine π :=
  ⟨k.state, k.extensions.map Prod.fst⟩

/-! ## Nothing reads the records -/

/-- A script that writes down what it adds acts on the state as it did before. -/
theorem Script.run_recorded (x : Script π α) (acts : List Act) (s : State)
    (arrivals : List (π × List Act)) :
    x.run s (arrivals.map Prod.fst) = (((x.recorded acts).run s arrivals).1.1,
      ((x.recorded acts).run s arrivals).2.1, ((x.recorded acts).run s arrivals).2.2.map Prod.fst) := by
  -- the script never looks at the record, so the record may be any list in the induction
  induction x generalizing acts s arrivals with
  | done => rfl
  | view next ih => exact ih s acts s arrivals
  | pointer p next ih => exact ih _ acts _ arrivals
  | object c o next ih => exact ih _ acts _ arrivals
  | callSite c next ih => exact ih _ acts _ arrivals
  | method m next ih => exact ih _ acts _ arrivals
  | mock d t c next ih => exact ih _ acts _ arrivals
  | inject p objects next ih => exact ih _ _ arrivals
  | flow source target next ih => exact ih _ _ arrivals
  | register e next ih =>
      have harrivals : arrivals.map Prod.fst ++ [e] = (arrivals ++ [(e, [])]).map Prod.fst := by simp
      rw [run, harrivals]
      exact ih acts s _
  | report severity text next ih => exact ih acts _ arrivals
  | note event next ih => exact ih acts _ arrivals

/-- Without the records, the answers are those given before. -/
theorem Reaction.recorded_erases (react : Reaction π) : react.recorded.Erases Prod.fst react :=
  fun n e s arrivals => Script.run_recorded (react n e.1) e.2 s arrivals

/-- A run is the same without the records. -/
theorem Analysis.forget_fixpoint (a : Analysis) (react : Reaction π) (entry : MethodId)
    (extensions : List π) :
    (a.fixpoint react.recorded entry (extensions.map fun e => (e, []))).forget =
      a.fixpoint react entry extensions := by
  have hplain : (extensions.map fun e => ((e, []) : π × List Act)).map Prod.fst = extensions := by
    simp [Function.comp_def]
  have hmap := a.map_fixpoint react.recorded_erases entry
    (extensions.map fun e => ((e, []) : π × List Act))
  rwa [hplain] at hmap

end PointsTo
