import PointsTo.Program.Builder

/-! # What a construction step ensures

`Ensures x d Q` says that the step `x`, if it is not refused, leads from the draft `d` to a value and
a draft with `Q`. The rules follow the shape of the step; loops keep an invariant.
-/

namespace PointsTo

/-- Every class of the table is defined. -/
def Program.AllDefined (p : Program) : Prop := ∀ c ∈ p.classes, c.isDefined = true

/-- Adding a defined class leaves no phantom. -/
theorem Program.AllDefined.push {p : Program} (h : p.AllDefined) (c : ClassDef) :
    Program.AllDefined { p with classes := p.classes.push c.header } := by
  intro k hk
  rcases Array.mem_push.1 hk with hk | rfl
  · exact h k hk
  · rfl

/-- A class that is found among defined ones is defined. -/
theorem Program.AllDefined.isDefined {p : Program} (h : p.AllDefined) {name : String} {id : ClassId}
    (hid : p.findClass? name = some id) : (p.classAt id).isDefined = true := by
  obtain ⟨i, hi, rfl⟩ := Option.map_eq_some_iff.1 hid
  obtain ⟨hlt, -⟩ := Array.findIdx?_eq_some_iff_getElem.1 hi
  rw [classAt, Array.getD_eq_getD_getElem?, Array.getElem?_eq_getElem hlt, Option.getD_some]
  exact h _ (Array.getElem_mem hlt)

namespace Builder

variable {α β : Type}

/-- Whenever the step succeeds, its value and the new draft satisfy `Q`. -/
def Ensures (x : Builder α) (d : Draft) (Q : α → Draft → Prop) : Prop :=
  ∀ a d', x.run.run d = (.ok a, d') → Q a d'

/-- What is known of the outcome may be weakened. -/
theorem Ensures.mono {x : Builder α} {d : Draft} {Q R : α → Draft → Prop} (h : Ensures x d Q)
    (hQR : ∀ a d', Q a d' → R a d') : Ensures x d R :=
  fun a d' hx => hQR a d' (h a d' hx)

/-- Only the run from the draft matters. -/
theorem Ensures.of_run {x y : Builder α} {d : Draft} {Q : α → Draft → Prop}
    (hrun : x.run.run d = y.run.run d) (h : Ensures y d Q) : Ensures x d Q :=
  fun a d' hx => h a d' (hrun ▸ hx)

@[simp] theorem ensures_pure {a : α} {d : Draft} {Q : α → Draft → Prop} :
    Ensures (pure a) d Q ↔ Q a d := by
  constructor
  · intro h
    exact h a d rfl
  · intro h b d' hb
    cases hb
    exact h

/-- The second step is made if the first one succeeds. -/
theorem run_bind (x : Builder α) (f : α → Builder β) (d : Draft) : (x >>= f).run.run d =
    match x.run.run d with
    | (.ok a, d') => (f a).run.run d'
    | (.error e, d') => (.error e, d') := by
  rw [ExceptT.run_bind, StateT.run_bind]
  rcases x.run.run d with ⟨_ | _, _⟩ <;> rfl

@[simp] theorem ensures_bind {x : Builder α} {f : α → Builder β} {d : Draft}
    {Q : β → Draft → Prop} :
    Ensures (x >>= f) d Q ↔ Ensures x d fun a d' => Ensures (f a) d' Q := by
  constructor
  · intro h a d' hx b d'' hf
    apply h b d''
    rw [run_bind, hx]
    exact hf
  · intro h b d'' hb
    rw [run_bind] at hb
    rcases hx : x.run.run d with ⟨e | a, d'⟩
    · rw [hx] at hb
      cases hb
    · rw [hx] at hb
      exact h a d' hx b d'' hb

@[simp] theorem ensures_throw {e : LoadError} {d : Draft} {Q : α → Draft → Prop} :
    Ensures (throw e) d Q := by
  intro a d' h
  cases h

@[simp] theorem ensures_map {x : Builder α} {f : α → β} {d : Draft} {Q : β → Draft → Prop} :
    Ensures (f <$> x) d Q ↔ Ensures x d fun a d' => Q (f a) d' := by
  rw [map_eq_pure_bind, ensures_bind]
  simp only [ensures_pure]

@[simp] theorem ensures_program {d : Draft} {Q : Program → Draft → Prop} :
    Ensures program d Q ↔ Q d.program d := by
  constructor
  · intro h
    exact h d.program d rfl
  · intro h p d' hp
    cases hp
    exact h

@[simp] theorem ensures_update {f : Program → Program} {d : Draft} {Q : Unit → Draft → Prop} :
    Ensures (update f) d Q ↔ Q () { d with program := f d.program } := by
  constructor
  · intro h
    exact h () _ rfl
  · intro h u d' hu
    cases hu
    exact h

@[simp] theorem ensures_report {severity : Severity} {text : String} {d : Draft}
    {Q : Unit → Draft → Prop} :
    Ensures (report severity text) d Q ↔
      Q () { d with log := d.log.push ⟨severity, text⟩ } := by
  constructor
  · intro h
    exact h () _ rfl
  · intro h u d' hu
    cases hu
    exact h

/-- A choice ensures what its branches do. -/
theorem Ensures.ite {c : Prop} [Decidable c] {x y : Builder α} {d : Draft} {Q : α → Draft → Prop}
    (hx : c → Ensures x d Q) (hy : ¬c → Ensures y d Q) : Ensures (if c then x else y) d Q := by
  split
  · exact hx ‹_›
  · exact hy ‹_›

/-- A loop keeps what each of its rounds keeps. -/
theorem Ensures.forM {l : List α} {f : α → Builder Unit} {I : Draft → Prop}
    (h : ∀ a ∈ l, ∀ d, I d → Ensures (f a) d fun _ => I) {d : Draft} (hd : I d) :
    Ensures (l.forM f) d fun _ => I := by
  induction l generalizing d with
  | nil => exact ensures_pure.2 hd
  | cons a l ih =>
      rw [List.forM_eq_forM, List.forM_cons, ensures_bind]
      refine (h a (by simp) d hd).mono fun _ d' hd' => ?_
      exact ih (fun b hb => h b (List.mem_cons_of_mem a hb)) hd'

/-- A loop ensures what its rounds ensure of the elements. -/
theorem Ensures.forall_forM {l : List α} {f : α → Builder Unit} {P : α → Prop}
    (h : ∀ a d, Ensures (f a) d fun _ _ => P a) (d : Draft) :
    Ensures (l.forM f) d fun _ _ => ∀ a ∈ l, P a := by
  induction l generalizing d with
  | nil => simp
  | cons a l ih =>
      rw [List.forM_eq_forM, List.forM_cons, ensures_bind]
      refine (h a d).mono fun _ d' ha => (ih d').mono fun _ _ hl => ?_
      exact List.forall_mem_cons.2 ⟨ha, hl⟩

/-- A loop that collects its values keeps an invariant between the values so far and the draft. -/
theorem Ensures.mapM {l : List α} {f : α → Builder β} {I : List β → Draft → Prop}
    (h : ∀ a ∈ l, ∀ bs d, I bs d → Ensures (f a) d fun b => I (bs ++ [b])) {d : Draft}
    (hd : I [] d) : Ensures (l.mapM f) d I := by
  -- generalised over the values that were collected before the loop
  suffices hgen : ∀ bs d, I bs d → Ensures (l.mapM f) d fun cs => I (bs ++ cs) by
    exact hgen [] d hd
  clear hd
  induction l with
  | nil =>
      intro bs d hd
      simpa using hd
  | cons a l ih =>
      intro bs d hd
      simp only [List.mapM_cons, ensures_bind, ensures_pure]
      refine (h a (by simp) bs d hd).mono fun b d' hb => ?_
      have hrest := ih (fun c hc => h c (List.mem_cons_of_mem a hc)) (bs ++ [b]) d' hb
      exact hrest.mono fun cs d'' hcs => by simpa using hcs

/-- A loop collects one value for each element. -/
theorem Ensures.length_mapM {f : α → Builder β} (l : List α) (d : Draft) :
    Ensures (l.mapM f) d fun bs _ => bs.length = l.length := by
  induction l generalizing d with
  | nil => simp
  | cons a l ih =>
      simp only [List.mapM_cons, ensures_bind, ensures_pure]
      intro b d' _
      exact (ih d').mono fun bs _ hbs => by simp [hbs]

/-- A loop with an accumulator keeps an invariant between the accumulator and the draft. -/
theorem Ensures.foldlM {l : List α} {f : β → α → Builder β} {I : β → Draft → Prop}
    (h : ∀ a ∈ l, ∀ b d, I b d → Ensures (f b a) d I) {b : β} {d : Draft} (hd : I b d) :
    Ensures (l.foldlM f b) d I := by
  induction l generalizing b d with
  | nil => exact ensures_pure.2 hd
  | cons a l ih =>
      rw [List.foldlM_cons, ensures_bind]
      refine (h a (by simp) b d hd).mono fun c d' hc => ?_
      exact ih (fun x hx => h x (List.mem_cons_of_mem a hx)) hc

/-! ## Classes that are added -/

/-- A class that is added is a new node, whatever the table holds. -/
theorem addClass_eq (c : Class) : addClass c = do
    let id : ClassId := ⟨(← program).classes.size⟩
    update fun p => { p with classes := p.classes.push c }
    return id := by
  simp [addClass, Program.isNode]

/-- Adds a defined class to a table without phantom classes. -/
def defineNewClass (c : ClassDef) : Builder ClassId := do
  if ((← program).findClass? c.name).isSome then throw (.duplicateClass c.name)
  report .trace ("pushing '" ++ c.name ++ "' in program")
  addClass c.header

/-- Classes are defined before any class is referred to, so there is no phantom class to be turned into a
defined one. -/
theorem run_defineClass {c : ClassDef} {d : Draft} (h : d.program.AllDefined) :
    (defineClass c).run.run d = (defineNewClass c).run.run d := by
  have hprogram : program.run.run d = (.ok d.program, d) := rfl
  rw [defineClass, defineNewClass, run_bind, run_bind, hprogram]
  dsimp only
  cases hid : d.program.findClass? c.name with
  | none => rfl
  | some id =>
      have hdefined := h.isDefined hid
      simp [hdefined]

end Builder

end PointsTo
