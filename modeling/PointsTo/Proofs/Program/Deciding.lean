import PointsTo.Proofs.Program.Simulation
import Mathlib.Data.List.Nodup

/-! # Construction steps that decide a condition

`Decides x d P Q` says that the step `x` succeeds from the draft `d` exactly if `P` holds, and that `Q`
holds of the outcome. If it does not succeed, then the definition is at fault: the checks of the
hierarchy are not what refuses it. Conditions are put together along the steps. The condition of a round
of a loop may depend on the rounds before it; `Each` collects such conditions.
-/

namespace PointsTo

/-- The definition is at fault, and not a change of the hierarchy that its construction makes. -/
def LoadError.isFault : LoadError → Bool
  | .hierarchy _ => false
  | _ => true

/-! ## Conditions on the members of a list -/

section Each

variable {α β : Type}

/-- Each member of the list satisfies the condition, which is also about the members before it. -/
def Each (l : List α) (P : List α → α → Prop) : Prop :=
  ∀ before a after, l = before ++ a :: after → P before a

variable {l : List α} {P : List α → α → Prop}

theorem each_nil : Each [] P := by
  intro before a after h
  simp at h

/-- The first member comes before all others. -/
theorem each_cons {a : α} : Each (a :: l) P ↔ P [] a ∧ Each l fun before => P (a :: before) := by
  constructor
  · intro h
    refine ⟨h [] a l rfl, fun before b after hl => ?_⟩
    exact h (a :: before) b after (congrArg (a :: ·) hl)
  · rintro ⟨ha, hl⟩ before b after heq
    cases before with
    | nil =>
        cases heq
        exact ha
    | cons c before =>
        obtain ⟨rfl, hrest⟩ := List.cons.inj heq
        exact hl before b after hrest

/-- Conditions that agree on the members of the list are satisfied alike. -/
theorem each_congr {Q : List α → α → Prop}
    (h : ∀ before, ∀ a ∈ l, P before a ↔ Q before a) : Each l P ↔ Each l Q := by
  induction l generalizing P Q with
  | nil => exact ⟨fun _ => each_nil, fun _ => each_nil⟩
  | cons a l ih =>
      rw [each_cons, each_cons, h [] a (by simp)]
      rw [ih fun before b hb => h (a :: before) b (List.mem_cons_of_mem a hb)]

/-- Two conditions are satisfied if each of them is. -/
theorem each_and {Q : List α → α → Prop} :
    (Each l fun before a => P before a ∧ Q before a) ↔ Each l P ∧ Each l Q :=
  ⟨fun h => ⟨fun b a t hl => (h b a t hl).1, fun b a t hl => (h b a t hl).2⟩,
    fun h b a t hl => ⟨h.1 b a t hl, h.2 b a t hl⟩⟩

/-- A condition that is not about earlier members is one on all members. -/
theorem each_const {Q : α → Prop} : (Each l fun _ => Q) ↔ ∀ a ∈ l, Q a := by
  induction l with
  | nil => simp [each_nil]
  | cons a l ih => rw [each_cons, ih, List.forall_mem_cons]

/-- Members whose keys are new are members with different keys, none of which was there before. -/
theorem each_new {key : α → β} {old : List β} :
    (Each l fun before a => key a ∉ old ++ before.map key) ↔
      (l.map key).Nodup ∧ ∀ b ∈ old, b ∉ l.map key := by
  induction l generalizing old with
  | nil => simp [each_nil]
  | cons a l ih =>
      -- What comes before the rest of the list is what was there before, and its head.
      have hrest : (Each l fun before b => key b ∉ old ++ (a :: before).map key) ↔
          (l.map key).Nodup ∧ ∀ b ∈ old ++ [key a], b ∉ l.map key := by
        rw [← ih]
        exact each_congr fun before b _ => by simp
      rw [each_cons, hrest]
      rw [List.map_nil, List.append_nil, List.map_cons, List.nodup_cons]
      constructor
      · rintro ⟨ha, hnodup, hold⟩
        refine ⟨⟨hold _ (by simp), hnodup⟩, fun b hb hmem => ?_⟩
        rcases List.mem_cons.1 hmem with rfl | hmem
        · exact ha hb
        · exact hold b (List.mem_append_left _ hb) hmem
      · rintro ⟨⟨ha, hnodup⟩, hold⟩
        refine ⟨fun hmem => hold _ hmem (List.mem_cons_self ..), hnodup, fun b hb => ?_⟩
        rcases List.mem_append.1 hb with hb | hb
        · exact fun hmem => hold b hb (List.mem_cons_of_mem _ hmem)
        · exact List.mem_singleton.1 hb ▸ ha

/-- Members with a new key have different keys. -/
theorem each_notMem {key : α → β} :
    (Each l fun before a => key a ∉ before.map key) ↔ (l.map key).Nodup := by
  have h : (Each l fun before a => key a ∉ [] ++ before.map key) ↔
      (l.map key).Nodup ∧ ∀ b ∈ [], b ∉ l.map key := each_new
  simpa using h

end Each

namespace Builder

variable {α β : Type}

/-! ## Steps -/

/-- The step does not succeed, for a fault of the definition. -/
def Refuses (x : Builder α) (d : Draft) : Prop :=
  ∃ e d', x.run.run d = (.error e, d') ∧ e.isFault = true

/-- The step succeeds exactly if the condition holds, and then its value and the new draft satisfy
`Q`. If it does not succeed, then for a fault of the definition. -/
structure Decides (x : Builder α) (d : Draft) (P : Prop) (Q : α → Draft → Prop) : Prop where
  ensures : Ensures x d fun a d' => P ∧ Q a d'
  yields : P → Yields x d Q
  fault : ∀ e d', x.run.run d = (.error e, d') → e.isFault = true

section Rules

variable {x y : Builder α} {d : Draft} {P P' : Prop} {Q R : α → Draft → Prop}

/-- What is known of the outcome may be weakened. -/
theorem Decides.mono (h : Decides x d P Q) (hQR : ∀ a d', Q a d' → R a d') : Decides x d P R :=
  ⟨h.ensures.mono fun a d' hQ => ⟨hQ.1, hQR a d' hQ.2⟩, fun hP => (h.yields hP).mono hQR, h.fault⟩

/-- The condition may be described in another way. -/
theorem Decides.congr (h : Decides x d P Q) (hP : P' ↔ P) : Decides x d P' Q :=
  ⟨h.ensures.mono fun _ _ hQ => ⟨hP.2 hQ.1, hQ.2⟩, fun hP' => h.yields (hP.1 hP'), h.fault⟩

/-- Only the run from the draft matters. -/
theorem Decides.of_run (hrun : x.run.run d = y.run.run d) (h : Decides y d P Q) : Decides x d P Q := by
  refine ⟨Ensures.of_run hrun h.ensures, fun hP => ?_, fun e d' he => h.fault e d' (hrun ▸ he)⟩
  obtain ⟨a, d', ha, hQ⟩ := h.yields hP
  exact ⟨a, d', hrun.trans ha, hQ⟩

/-- What is known of every outcome may be added. -/
theorem Decides.and_ensures (h : Decides x d P Q) (hR : Ensures x d R) :
    Decides x d P fun a d' => Q a d' ∧ R a d' where
  ensures a d' hrun := by
    obtain ⟨hP, hQ⟩ := h.ensures a d' hrun
    exact ⟨hP, hQ, hR a d' hrun⟩
  yields hP := by
    obtain ⟨a, d', hrun, hQ⟩ := h.yields hP
    exact ⟨a, d', hrun, hQ, hR a d' hrun⟩
  fault := h.fault

/-- A step that always succeeds has no condition. -/
theorem Yields.decides (h : Yields x d Q) : Decides x d True Q where
  ensures := h.ensures.mono fun _ _ hQ => ⟨trivial, hQ⟩
  yields _ := h
  fault e d' hrun := by
    obtain ⟨a, d'', ha, -⟩ := h
    cases ha.symm.trans hrun

/-- A step that is always refused has a condition that never holds. -/
theorem Refuses.decides (h : Refuses x d) : Decides x d False Q := by
  obtain ⟨e, d', hrun, hfault⟩ := h
  refine ⟨fun a d'' ha => ?_, False.elim, fun e' d'' he' => ?_⟩
  · cases hrun.symm.trans ha
  · cases hrun.symm.trans he'
    exact hfault

/-- An error that blames the definition is a refusal. -/
theorem Refuses.throw {e : LoadError} (he : e.isFault = true) : Refuses (throw e : Builder α) d :=
  ⟨e, d, rfl, he⟩

/-- What follows a refused step is not reached. -/
theorem Refuses.bind {f : α → Builder β} (h : Refuses x d) : Refuses (x >>= f) d := by
  obtain ⟨e, d', hrun, hfault⟩ := h
  refine ⟨e, d', ?_, hfault⟩
  rw [run_bind, hrun]

theorem Decides.pure {a : α} (h : Q a d) : Decides (pure a) d True Q := (yields_pure.2 h).decides

theorem Decides.throw {e : LoadError} (he : e.isFault = true) :
    Decides (throw e : Builder α) d False Q :=
  (Refuses.throw he).decides

/-- The second step only matters if the first one succeeds. -/
theorem Decides.bind {f : α → Builder β} {S : Prop} {R : β → Draft → Prop} (h : Decides x d P Q)
    (hf : P → ∀ a d', Q a d' → Decides (f a) d' S R) : Decides (x >>= f) d (P ∧ S) R where
  ensures := by
    refine ensures_bind.2 (h.ensures.mono fun a d' hQ => ?_)
    exact (hf hQ.1 a d' hQ.2).ensures.mono fun b d'' hR => ⟨⟨hQ.1, hR.1⟩, hR.2⟩
  yields := by
    rintro ⟨hP, hS⟩
    exact yields_bind.2 ((h.yields hP).mono fun a d' hQ => (hf hP a d' hQ).yields hS)
  -- the error is one of the first step, or of the second one from where the first one ended
  fault e d'' hrun := by
    rw [run_bind] at hrun
    rcases hx : x.run.run d with ⟨e' | a, d'⟩
    · rw [hx] at hrun
      cases hrun
      exact h.fault e d'' hx
    · rw [hx] at hrun
      have hQ := h.ensures a d' hx
      exact (hf hQ.1 a d' hQ.2).fault e d'' hrun

/-- Looking at the program decides nothing. -/
theorem Decides.program {f : Program → Builder β} {R : β → Draft → Prop}
    (h : Decides (f d.program) d P R) : Decides (program >>= f) d P R :=
  ⟨ensures_bind.2 (ensures_program.2 h.ensures),
    fun hP => yields_bind.2 (yields_program.2 (h.yields hP)), fun e d' hrun => h.fault e d' hrun⟩

/-- A step that is refused in one case. -/
theorem Decides.unless {c : Prop} [Decidable c] (hx : c → Refuses x d) (hy : ¬c → Decides y d P Q) :
    Decides (if c then x else y) d (¬c ∧ P) Q := by
  by_cases hc : c
  · rw [if_pos hc]
    exact (hx hc).decides.congr (by simp [hc])
  · rw [if_neg hc]
    exact (hy hc).congr (by simp [hc])

end Rules

/-! ## Loops -/

/-- A loop succeeds exactly if each of its rounds does. -/
theorem Decides.forM {l : List α} {f : α → Builder Unit} {P : List α → α → Prop}
    {I : List α → Draft → Prop}
    (h : ∀ before a after, l = before ++ a :: after → ∀ d, I before d →
      Decides (f a) d (P before a) fun _ => I (before ++ [a])) {d : Draft} (hd : I [] d) :
    Decides (l.forM f) d (Each l P) fun _ => I l := by
  -- generalised over the rounds that were made before the rest of the loop
  suffices hgen : ∀ rest done, l = done ++ rest → ∀ d, I done d →
      Decides (rest.forM f) d (Each rest fun before => P (done ++ before)) fun _ => I l by
    exact hgen l [] rfl d hd
  intro rest
  induction rest with
  | nil =>
      intro done hl d hd
      rw [List.append_nil] at hl
      rw [hl]
      exact (Decides.pure (a := ()) hd).congr (iff_true_intro each_nil)
  | cons a rest ih =>
      intro done hl d hd
      rw [List.forM_eq_forM, List.forM_cons]
      have hfirst := h done a rest hl d hd
      refine (hfirst.bind (S := Each rest fun before => P (done ++ a :: before))
        fun _ _ d' hd' => ?_).congr ?_
      · simpa using ih (done ++ [a]) (by simp [hl]) d' hd'
      · rw [each_cons, List.append_nil]

/-- A loop that collects its values succeeds exactly if each of its rounds does. -/
theorem Decides.mapM {l : List α} {f : α → Builder β} {P : List α → α → Prop}
    {I : List α → List β → Draft → Prop}
    (h : ∀ before a after, l = before ++ a :: after → ∀ bs d, I before bs d →
      Decides (f a) d (P before a) fun b => I (before ++ [a]) (bs ++ [b])) {d : Draft}
    (hd : I [] [] d) : Decides (l.mapM f) d (Each l P) (I l) := by
  -- generalised as for loops without values, and over the values that were collected so far
  suffices hgen : ∀ rest done, l = done ++ rest → ∀ bs d, I done bs d →
      Decides (rest.mapM f) d (Each rest fun before => P (done ++ before))
        fun cs => I l (bs ++ cs) by
    exact hgen l [] rfl [] d hd
  intro rest
  induction rest with
  | nil =>
      intro done hl bs d hd
      rw [List.append_nil] at hl
      rw [hl]
      refine (Decides.pure ?_).congr (iff_true_intro each_nil)
      simpa using hd
  | cons a rest ih =>
      intro done hl bs d hd
      rw [List.mapM_cons]
      have hfirst := h done a rest hl bs d hd
      refine (hfirst.bind (S := Each rest fun before => P (done ++ a :: before))
        fun _ b d' hd' => ?_).congr ?_
      · have hrest := ih (done ++ [a]) (by simp [hl]) (bs ++ [b]) d' hd'
        refine (Decides.bind (S := True) hrest fun _ cs d'' hcs => .pure ?_).congr ?_
        · simpa using hcs
        · simp
      · rw [each_cons, List.append_nil]

/-- A loop with an accumulator succeeds exactly if each of its rounds does. -/
theorem Decides.foldlM {l : List α} {f : β → α → Builder β} {P : List α → α → Prop}
    {I : List α → β → Draft → Prop}
    (h : ∀ before a after, l = before ++ a :: after → ∀ b d, I before b d →
      Decides (f b a) d (P before a) (I (before ++ [a])))
    {b : β} {d : Draft} (hd : I [] b d) : Decides (l.foldlM f b) d (Each l P) (I l) := by
  -- generalised as for the other loops, and over what has been accumulated
  suffices hgen : ∀ rest done, l = done ++ rest → ∀ b d, I done b d →
      Decides (rest.foldlM f b) d (Each rest fun before => P (done ++ before)) (I l) by
    exact hgen l [] rfl b d hd
  intro rest
  induction rest with
  | nil =>
      intro done hl b d hd
      rw [List.append_nil] at hl
      rw [hl]
      exact (Decides.pure hd).congr (iff_true_intro each_nil)
  | cons a rest ih =>
      intro done hl b d hd
      rw [List.foldlM_cons]
      have hfirst := h done a rest hl b d hd
      refine (hfirst.bind (S := Each rest fun before => P (done ++ a :: before))
        fun _ c d' hd' => ?_).congr ?_
      · simpa using ih (done ++ [a]) (by simp [hl]) c d' hd'
      · rw [each_cons, List.append_nil]

/-! ## Descriptors -/

/-- A reader of descriptors succeeds exactly if the parser does. The draft is left as it is. -/
theorem decides_read {x : Builder α} {r : Except DescriptorError α} (d : Draft)
    (hok : ∀ a, r = .ok a → x = pure a) (herror : ∀ e, r = .error e → x = throw (.descriptor e)) :
    Decides x d (∃ a, r = .ok a) fun a d' => r = .ok a ∧ d' = d := by
  cases r with
  | ok a =>
      rw [hok a rfl]
      exact (Decides.pure ⟨rfl, rfl⟩).congr (iff_true_intro ⟨a, rfl⟩)
  | error e =>
      rw [herror e rfl]
      exact (Decides.throw rfl).congr (by simp)

/-- A descriptor of a type is read if it is one. -/
theorem decides_readType (s : String) (d : Draft) :
    Decides (readType s) d (∃ t, Ty.parse s = .ok t) fun t d' => Ty.parse s = .ok t ∧ d' = d :=
  decides_read d (fun t ht => by rw [readType, ht]) fun e he => by rw [readType, he]

/-- A reference to a method is read if it is one. -/
theorem decides_readMethodRef (s : String) (d : Draft) :
    Decides (readMethodRef s) d (∃ r, MethodRef.parse s = .ok r)
      fun r d' => MethodRef.parse s = .ok r ∧ d' = d :=
  decides_read d (fun r hr => by rw [readMethodRef, hr]) fun e he => by rw [readMethodRef, he]

/-- A reference to a field is read if it is one. -/
theorem decides_readFieldRef (s : String) (d : Draft) :
    Decides (readFieldRef s) d (∃ r, FieldRef.parse s = .ok r)
      fun r d' => FieldRef.parse s = .ok r ∧ d' = d :=
  decides_read d (fun r hr => by rw [readFieldRef, hr]) fun e he => by rw [readFieldRef, he]

end Builder

end PointsTo
