import PointsTo.Proofs.Program.Ensures
import Mathlib.Data.List.Forall2

/-! # Two constructions side by side

`Yields x d Q` says that the step `x` succeeds from the draft `d`, with `Q` afterwards. `Follows` puts
two steps side by side: whenever the first one succeeds, so does the second one, and the outcomes are
related. Its rules follow the shape of the two steps; where the second construction does the same things
in another order, the first step is described by `Ensures` and the second one by `Yields`.
-/

namespace PointsTo.Builder

variable {α β γ δ : Type}

/-! ## Steps that succeed -/

/-- The step succeeds, and its value and the new draft satisfy `Q`. -/
def Yields (x : Builder α) (d : Draft) (Q : α → Draft → Prop) : Prop :=
  ∃ a d', x.run.run d = (.ok a, d') ∧ Q a d'

/-- What is known of the outcome may be weakened. -/
theorem Yields.mono {x : Builder α} {d : Draft} {Q R : α → Draft → Prop} (h : Yields x d Q)
    (hQR : ∀ a d', Q a d' → R a d') : Yields x d R := by
  obtain ⟨a, d', hx, hQ⟩ := h
  exact ⟨a, d', hx, hQR a d' hQ⟩

/-- A step has one outcome only. -/
theorem Yields.ensures {x : Builder α} {d : Draft} {Q : α → Draft → Prop} (h : Yields x d Q) :
    Ensures x d Q := by
  obtain ⟨a, d', hx, hQ⟩ := h
  intro b d'' hb
  cases hx.symm.trans hb
  exact hQ

@[simp] theorem yields_pure {a : α} {d : Draft} {Q : α → Draft → Prop} :
    Yields (pure a) d Q ↔ Q a d := by
  constructor
  · rintro ⟨b, d', hb, hQ⟩
    cases hb
    exact hQ
  · exact fun h => ⟨a, d, rfl, h⟩

@[simp] theorem yields_bind {x : Builder α} {f : α → Builder β} {d : Draft}
    {Q : β → Draft → Prop} :
    Yields (x >>= f) d Q ↔ Yields x d fun a d' => Yields (f a) d' Q := by
  constructor
  · rintro ⟨b, d'', hb, hQ⟩
    rw [run_bind] at hb
    rcases hx : x.run.run d with ⟨e | a, d'⟩
    · rw [hx] at hb
      cases hb
    · rw [hx] at hb
      exact ⟨a, d', hx, b, d'', hb, hQ⟩
  · rintro ⟨a, d', hx, b, d'', hb, hQ⟩
    refine ⟨b, d'', ?_, hQ⟩
    rw [run_bind, hx]
    exact hb

@[simp] theorem yields_map {x : Builder α} {f : α → β} {d : Draft} {Q : β → Draft → Prop} :
    Yields (f <$> x) d Q ↔ Yields x d fun a d' => Q (f a) d' := by
  rw [map_eq_pure_bind, yields_bind]
  simp only [yields_pure]

@[simp] theorem yields_program {d : Draft} {Q : Program → Draft → Prop} :
    Yields program d Q ↔ Q d.program d := by
  constructor
  · rintro ⟨p, d', hp, hQ⟩
    cases hp
    exact hQ
  · exact fun h => ⟨d.program, d, rfl, h⟩

@[simp] theorem yields_update {f : Program → Program} {d : Draft} {Q : Unit → Draft → Prop} :
    Yields (update f) d Q ↔ Q () { d with program := f d.program } := by
  constructor
  · rintro ⟨u, d', hu, hQ⟩
    cases hu
    exact hQ
  · exact fun h => ⟨(), _, rfl, h⟩

@[simp] theorem yields_report {severity : Severity} {text : String} {d : Draft}
    {Q : Unit → Draft → Prop} :
    Yields (report severity text) d Q ↔
      Q () { d with log := d.log.push ⟨severity, text⟩ } := by
  constructor
  · rintro ⟨u, d', hu, hQ⟩
    cases hu
    exact hQ
  · exact fun h => ⟨(), _, rfl, h⟩

/-- A loop succeeds if each of its rounds does and keeps an invariant. -/
theorem Yields.forM {l : List α} {f : α → Builder Unit} {I : List α → Draft → Prop}
    (h : ∀ a ∈ l, ∀ as d, I as d → Yields (f a) d fun _ => I (as ++ [a])) {d : Draft}
    (hd : I [] d) : Yields (l.forM f) d fun _ => I l := by
  -- generalised over the rounds that were made before the loop
  suffices hgen : ∀ as d, I as d → Yields (l.forM f) d fun _ => I (as ++ l) by
    exact hgen [] d hd
  clear hd
  induction l with
  | nil =>
      intro as d hd
      rw [List.append_nil]
      exact yields_pure.2 hd
  | cons a l ih =>
      intro as d hd
      rw [List.forM_eq_forM, List.forM_cons, yields_bind]
      refine (h a (by simp) as d hd).mono fun _ d' hd' => ?_
      have hrest := ih (fun b hb => h b (List.mem_cons_of_mem a hb)) (as ++ [a]) d' hd'
      simpa using hrest

/-! ## Steps that follow each other -/

/-- If the first step succeeds from the first draft, then the second step succeeds from the second
draft, and the outcomes satisfy `Q`. -/
def Follows (x : Builder α) (y : Builder β) (d e : Draft) (Q : α → Draft → β → Draft → Prop) : Prop :=
  Ensures x d fun a d' => Yields y e fun b e' => Q a d' b e'

section Rules

variable {x : Builder α} {y : Builder β} {d e : Draft} {Q R : α → Draft → β → Draft → Prop}

/-- What is known of the outcomes may be weakened. -/
theorem Follows.mono (h : Follows x y d e Q) (hQR : ∀ a d' b e', Q a d' b e' → R a d' b e') :
    Follows x y d e R :=
  Ensures.mono h fun a d' hy => hy.mono fun b e' => hQR a d' b e'

theorem Follows.pure {a : α} {b : β} (h : Q a d b e) : Follows (pure a) (pure b) d e Q :=
  ensures_pure.2 (yields_pure.2 h)

/-- Anything follows a refusal. -/
theorem Follows.throw {err : LoadError} : Follows (throw err) y d e Q :=
  ensures_throw

/-- Sequences follow each other if their parts do. -/
theorem Follows.bind {f : α → Builder γ} {g : β → Builder δ} {S : γ → Draft → δ → Draft → Prop}
    (h : Follows x y d e Q) (hfg : ∀ a d' b e', Q a d' b e' → Follows (f a) (g b) d' e' S) :
    Follows (x >>= f) (y >>= g) d e S := by
  refine ensures_bind.2 (Ensures.mono h fun a d' hy => ?_)
  obtain ⟨b, e', hb, hQ⟩ := hy
  exact Ensures.mono (hfg a d' b e' hQ) fun c d'' hg => yields_bind.2 ⟨b, e', hb, hg⟩

/-- Updates follow each other. -/
theorem Follows.update {f g : Program → Program} {Q : Unit → Draft → Unit → Draft → Prop}
    (h : Q () { d with program := f d.program } () { e with program := g e.program }) :
    Follows (update f) (update g) d e Q :=
  ensures_update.2 (yields_update.2 h)

/-- Both steps may look at their programs. -/
theorem Follows.program {f : Program → Builder γ} {g : Program → Builder δ}
    {S : γ → Draft → δ → Draft → Prop} (h : Follows (f d.program) (g e.program) d e S) :
    Follows (program >>= f) (program >>= g) d e S := by
  rw [Follows, ensures_bind, ensures_program]
  simp only [yields_bind, yields_program]
  exact h

/-- What the first step ensures may be used. -/
theorem Follows.assume {P : α → Draft → Prop} (hx : Ensures x d P)
    (h : (∃ a d', P a d') → Follows x y d e Q) : Follows x y d e Q :=
  fun a d' hrun => h ⟨a, d', hx a d' hrun⟩ a d' hrun

/-- Two steps that each succeed. -/
theorem Follows.of_yields {P : α → Draft → Prop} {S : β → Draft → Prop} (hx : Yields x d P)
    (hy : Yields y e S) (h : ∀ a d' b e', P a d' → S b e' → Q a d' b e') : Follows x y d e Q :=
  hx.ensures.mono fun a d' ha => hy.mono fun b e' hb => h a d' b e' ha hb

/-- The same choice is made twice. -/
theorem Follows.ite {c c' : Prop} [Decidable c] [Decidable c'] {x₁ x₂ : Builder α}
    {y₁ y₂ : Builder β} (hc : c' ↔ c) (h₁ : c → Follows x₁ y₁ d e Q)
    (h₂ : ¬c → Follows x₂ y₂ d e Q) :
    Follows (if c then x₁ else x₂) (if c' then y₁ else y₂) d e Q := by
  by_cases h : c
  · rw [if_pos h, if_pos (hc.2 h)]
    exact h₁ h
  · rw [if_neg h, if_neg fun h' => h (hc.1 h')]
    exact h₂ h

end Rules

/-- Two loops over related lists keep what related rounds keep. -/
theorem Follows.forM {S : α → β → Prop} {l : List α} {l' : List β} (hl : List.Forall₂ S l l')
    {f : α → Builder Unit} {g : β → Builder Unit} {I : Draft → Draft → Prop}
    (h : ∀ a b d e, S a b → I d e → Follows (f a) (g b) d e fun _ d' _ e' => I d' e') {d e : Draft}
    (hd : I d e) : Follows (l.forM f) (l'.forM g) d e fun _ d' _ e' => I d' e' := by
  induction hl generalizing d e with
  | nil => exact Follows.pure hd
  | cons hab _ ih =>
      rw [List.forM_eq_forM, List.forM_eq_forM, List.forM_cons, List.forM_cons]
      exact (h _ _ d e hab hd).bind fun _ d' _ e' hd' => ih hd'

/-- Two loops over related lists that collect related values. -/
theorem Follows.mapM {S : α → β → Prop} {l : List α} {l' : List β} (hl : List.Forall₂ S l l')
    {f : α → Builder γ} {g : β → Builder δ} {T : γ → δ → Prop} {I : Draft → Draft → Prop}
    (h : ∀ a b d e, S a b → I d e → Follows (f a) (g b) d e fun c d' c' e' => T c c' ∧ I d' e')
    {d e : Draft} (hd : I d e) :
    Follows (l.mapM f) (l'.mapM g) d e fun cs d' cs' e' => List.Forall₂ T cs cs' ∧ I d' e' := by
  induction hl generalizing d e with
  | nil => exact Follows.pure ⟨.nil, hd⟩
  | cons hab _ ih =>
      rw [List.mapM_cons, List.mapM_cons]
      refine (h _ _ d e hab hd).bind fun c d' c' e' hc => ?_
      refine (ih hc.2).bind fun cs d'' cs' e'' hcs => ?_
      exact Follows.pure ⟨.cons hc.1 hcs.1, hcs.2⟩

/-- Two loops over the same list that keep the same accumulator. -/
theorem Follows.foldlM {l : List α} {f : β → α → Builder β} {I : β → Draft → Draft → Prop}
    (h : ∀ a ∈ l, ∀ b d e, I b d e →
      Follows (f b a) (f b a) d e fun b d' b' e' => b' = b ∧ I b d' e') {b : β} {d e : Draft}
    (hd : I b d e) :
    Follows (l.foldlM f b) (l.foldlM f b) d e fun b d' b' e' => b' = b ∧ I b d' e' := by
  induction l generalizing b d e with
  | nil => exact Follows.pure ⟨rfl, hd⟩
  | cons a l ih =>
      rw [List.foldlM_cons]
      refine (h a (by simp) b d e hd).bind ?_
      rintro c d' c' e' ⟨rfl, hc⟩
      exact ih (fun x hx => h x (List.mem_cons_of_mem a hx)) hc

/-! ## Steps that do not look at the draft -/

/-- Both steps give the same value whatever the draft is, or the first one refuses. -/
def Concur (x y : Builder α) : Prop := (∃ a, x = pure a ∧ y = pure a) ∨ ∃ err, x = throw err

section Concur

variable {x y : Builder α}

theorem Concur.pure (a : α) : Concur (Pure.pure a) (Pure.pure a) := .inl ⟨a, rfl, rfl⟩

/-- Sequences concur if their parts do. -/
theorem Concur.bind {f g : α → Builder β} (h : Concur x y) (hfg : ∀ a, Concur (f a) (g a)) :
    Concur (x >>= f) (y >>= g) := by
  rcases h with ⟨a, rfl, rfl⟩ | ⟨err, rfl⟩
  · rw [pure_bind, pure_bind]
    exact hfg a
  · exact .inr ⟨err, rfl⟩

/-- Loops concur if their rounds do. -/
theorem Concur.mapM {f g : α → Builder β} (h : ∀ a, Concur (f a) (g a)) (l : List α) :
    Concur (l.mapM f) (l.mapM g) := by
  induction l with
  | nil => exact .pure []
  | cons a l ih =>
      rw [List.mapM_cons, List.mapM_cons]
      exact (h a).bind fun b => ih.bind fun bs => .pure (b :: bs)

/-- Steps that concur may come before steps that follow each other. -/
theorem Concur.follows (h : Concur x y) {f : α → Builder γ} {g : α → Builder δ} {d e : Draft}
    {Q : γ → Draft → δ → Draft → Prop} (hfg : ∀ a, Follows (f a) (g a) d e Q) :
    Follows (x >>= f) (y >>= g) d e Q := by
  rcases h with ⟨a, rfl, rfl⟩ | ⟨err, rfl⟩
  · rw [pure_bind, pure_bind]
    exact hfg a
  · exact ensures_bind.2 ensures_throw

end Concur

/-- Reading a type does not depend on the draft. -/
theorem concur_readType (s : String) : Concur (readType s) (readType s) := by
  unfold readType
  split
  · exact .pure _
  · exact .inr ⟨_, rfl⟩

/-- Reading a reference to a method does not depend on the draft. -/
theorem concur_readMethodRef (s : String) : Concur (readMethodRef s) (readMethodRef s) := by
  unfold readMethodRef
  split
  · exact .pure _
  · exact .inr ⟨_, rfl⟩

/-- Reading a reference to a field does not depend on the draft. -/
theorem concur_readFieldRef (s : String) : Concur (readFieldRef s) (readFieldRef s) := by
  unfold readFieldRef
  split
  · exact .pure _
  · exact .inr ⟨_, rfl⟩

end PointsTo.Builder
