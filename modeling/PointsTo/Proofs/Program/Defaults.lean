import PointsTo.Proofs.Program.Superinterfaces

/-! # Default methods

Among interfaces, dispatch takes the first one with a method, and does not compare interfaces with each
other. An interface that overrides a method of another one comes first if all routes to the other one lead
through it. It may come last if the other one is named beside it.
-/

namespace PointsTo

/-- An interface that overrides a method of another one. A class and its superclass implement one each, the
class the one with the method that is overridden. Another class implements neither, but an interface that
inherits from that one. -/
def ProgramDef.redundant : ProgramDef :=
  ⟨none, [⟨"I", none, [], true, false, [], [⟨"get", [], "V", false, false, false, [], []⟩]⟩,
    ⟨"J", none, ["I"], true, false, [], [⟨"get", [], "V", false, false, false, [], []⟩]⟩,
    ⟨"A", some "B", ["I"], false, false, [], []⟩, ⟨"B", none, ["J"], false, false, [], []⟩,
    ⟨"K", none, ["I"], true, false, [], []⟩, ⟨"D", none, ["K"], false, false, [], []⟩]⟩

/-- If two members have a place in a list each, and the first one is not left of the second one, then the
second one is left of the first one. -/
theorem mem_of_append_cons_eq {α : Type} {a b : α} {l l' r r' : List α}
    (h : l ++ a :: r = l' ++ b :: r') (ha : a ∉ l') (hne : b ≠ a) : b ∈ l := by
  rcases List.append_eq_append_iff.1 h with ⟨k, rfl, hk⟩ | ⟨k, rfl, hk⟩
  · cases k with
    | nil => exact absurd (List.cons.inj hk).1.symm hne
    | cons x k => exact absurd (by simp [(List.cons.inj hk).1]) ha
  · cases k with
    | nil => exact absurd (List.cons.inj hk).1 hne
    | cons x k => simp [(List.cons.inj hk).1]

namespace Program

variable {p : Program} {c i j : ClassId} {s : Subsignature} {m : MethodId}

/-- For a class, the lookup looks at the first of two others no later than at the second one. The classes
of the chain come before the interfaces, and these level by level. -/
inductive Precedes (p : Program) (c j i : ClassId) : Prop where
  | chain {before after : List ClassId} (chain : p.HasChain c (before ++ j :: after))
      (later : i ∉ before) : Precedes p c j i
  | interface {l before after : List ClassId} {n : Nat} (chain : p.HasChain c l) (above : i ∉ l)
      (place : p.interfaceLevel l n = before ++ j :: after)
      (higher : ∀ k, k < n → i ∉ p.interfaceLevel l k) (later : i ∉ before) : Precedes p c j i

/-- The way to the method that a call reaches leads past no other method for it. -/
theorem DispatchesTo.exists_route (h : p.DispatchesTo c s (some m)) :
    ∃ path, p.Route c path (p.methodAt m).owner ∧ ∀ k ∈ path, p.Silent s k := by
  cases h with
  | @chain before after d _ chain nearer offers =>
      refine ⟨before, ?_, nearer⟩
      rw [offers.owner, ← List.append_nil before]
      exact chain.route rfl .here
  | @interface l _ _ n i _ chain classes place lower _ offers =>
      have hi : i ∈ level p.interfaces l (n + 1) := by
        rw [← interfaceLevel_eq, place]
        simp
      -- The position of a level below this one says whether its classes come from the chain or from
      -- links to interfaces.
      obtain ⟨b, hb, path, hclimbs, hpath⟩ := exists_climbs_of_mem_level (P := p.Silent s) hi fun k hk => by
        cases k with
        | zero => exact classes
        | succ k => exact interfaceLevel_eq p l k ▸ lower k (Nat.lt_of_succ_lt_succ hk)
      obtain ⟨before, after, rfl⟩ := List.append_of_mem hb
      refine ⟨before ++ path, offers.owner ▸ chain.route rfl hclimbs, fun k hk => ?_⟩
      rcases List.mem_append.1 hk with hk | hk
      · exact classes k (List.mem_append_left _ hk)
      · exact hpath k hk

/-- No class that is looked at before the one with the method has a method for the call. -/
theorem DispatchesTo.silent_of_precedes
    (hunique : ∀ l l', p.HasChain c l → p.HasChain c l' → l = l') (h : p.DispatchesTo c s (some m))
    (hj : p.Precedes c j (p.methodAt m).owner) (hne : j ≠ (p.methodAt m).owner) : p.Silent s j := by
  -- both places are on the same chain, since there is only one
  -- One of the two places is in the order of the lookup, the other one is where it stopped. All four
  -- pairs of chain and level are looked at.
  cases h with
  | chain chain nearer offers =>
      rw [offers.owner] at hj hne
      cases hj with
      | chain chain' later =>
          exact nearer j (mem_of_append_cons_eq (hunique _ _ chain chain') later hne)
      | interface chain' above =>
          rw [← hunique _ _ chain chain'] at above
          simp at above
  | @interface l _ _ n i _ chain classes place lower earlier offers =>
      have hi : i ∈ p.interfaceLevel l n := by
        rw [place]
        simp
      rw [offers.owner] at hj hne
      cases hj with
      | chain chain' later =>
          rw [hunique _ _ chain chain'] at classes
          exact classes j (by simp)
      | @interface _ _ _ k chain' above place' higher later =>
          obtain rfl := hunique _ _ chain chain'
          -- The level of the method is compared with the level of the other interface.
          rcases Nat.lt_trichotomy k n with hk | rfl | hk
          · exact lower k hk j (by rw [place']; simp)
          · exact earlier j (mem_of_append_cons_eq (place.symm.trans place') later hne)
          · -- the method is on a level that is too low
            exact absurd hi (higher n hk)

/-- In a loaded program, the method that dispatch finds for a class is the first one in the order of the
lookup, and a route leads to it on which no other class has one. So no other class has a method for the
call if it is looked at before, or if every route leads through it; interfaces that override the method of
an interface are such classes, unless the interface is looked at before them. -/
theorem dispatch_not_overridden_before {x : ProgramDef} (hp : (build x).1 = .ok p)
    (hc : c ∈ p.classIds) (hm : p.dispatch? c s = some m) :
    (∃ path, p.Route c path (p.methodAt m).owner ∧ ∀ j ∈ path, p.Silent s j) ∧
    ∀ j, j ≠ (p.methodAt m).owner →
      (p.Precedes c j (p.methodAt m).owner ∨ ∀ path, p.Route c path (p.methodAt m).owner → j ∈ path) →
        p.Silent s j := by
  have hunderway := build_underway hp
  have h := hunderway.rooted
  have hclass := mem_classIds.1 hc
  have hreaches : p.DispatchesTo c s (some m) :=
    hm ▸ dispatchesTo_dispatch? h.link h.acyclic hunderway.declared hclass
  have hunique (l l' : List ClassId) (hl : p.HasChain c l) (hl' : p.HasChain c l') : l = l' := by
    rw [(hasChain_iff h.link h.acyclic hclass).1 hl, (hasChain_iff h.link h.acyclic hclass).1 hl']
  obtain ⟨path, hroute, hsilent⟩ := hreaches.exists_route
  refine ⟨⟨path, hroute, hsilent⟩, fun j hne hj => ?_⟩
  rcases hj with hj | hj
  · exact hreaches.silent_of_precedes hunique hj hne
  · exact hsilent j (hj path hroute)

/-- The method is found in the interface whose method is overridden, since it is looked at first. -/
theorem dispatch_not_overridden_before_redundant : ∃ p, (build .redundant).1 = .ok p ∧
    p.dispatch? ⟨5⟩ ⟨"get", [], .void⟩ = some ⟨0⟩ ∧
    (∃ path, p.Route ⟨5⟩ path ⟨0⟩ ∧ ∀ j ∈ path, p.Silent ⟨"get", [], .void⟩ j) ∧
    p.Precedes ⟨5⟩ ⟨4⟩ ⟨0⟩ ∧ p.Silent ⟨"get", [], .void⟩ ⟨4⟩ := by
  have hrun : ∃ p, (build .redundant).1 = .ok p ∧
      ⟨5⟩ ∈ p.classIds ∧ p.dispatch? ⟨5⟩ ⟨"get", [], .void⟩ = some ⟨0⟩ ∧
      (p.methodAt ⟨0⟩).owner = ⟨0⟩ ∧ p.superclass? ⟨5⟩ = none ∧
      p.interfaceLevel [⟨5⟩] 0 = [⟨4⟩] := by
    decide +kernel
  obtain ⟨p, hp, hclass, hm, howner, hsuper, hplace⟩ := hrun
  have hbefore : p.Precedes ⟨5⟩ ⟨4⟩ ⟨0⟩ :=
    @Precedes.interface p _ _ _ [⟨5⟩] [] [] 0 (.top hsuper) (by decide) hplace (by simp) (by simp)
  obtain ⟨hroute, hsilent⟩ := dispatch_not_overridden_before hp hclass hm
  rw [howner] at hroute hsilent
  exact ⟨p, hp, hm, hroute, hbefore, hsilent ⟨4⟩ (by decide) (Or.inl hbefore)⟩

/-- A class gets the method that is overridden, although it has the interface that overrides it as well. -/
theorem overridden_default_found : ∃ p, (build .redundant).1 = .ok p ∧
    ⟨2⟩ ∈ p.classIds ∧ p.dispatch? ⟨2⟩ ⟨"get", [], .void⟩ = some ⟨0⟩ ∧ (p.methodAt ⟨0⟩).owner = ⟨0⟩ ∧
    (p.classAt ⟨0⟩).isInterface = true ∧ ⟨1⟩ ∈ p.allParents ⟨2⟩ ∧
    (p.classAt ⟨1⟩).isInterface = true ∧ ⟨0⟩ ∈ p.allParents ⟨1⟩ ∧
    p.Offers ⟨1⟩ ⟨"get", [], .void⟩ ⟨1⟩ := by
  have hrun : ∃ p, (build .redundant).1 = .ok p ∧
      ⟨2⟩ ∈ p.classIds ∧ p.dispatch? ⟨2⟩ ⟨"get", [], .void⟩ = some ⟨0⟩ ∧
      (p.methodAt ⟨0⟩).owner = ⟨0⟩ ∧ (p.classAt ⟨0⟩).isInterface = true ∧
      ⟨1⟩ ∈ p.allParents ⟨2⟩ ∧ (p.classAt ⟨1⟩).isInterface = true ∧ ⟨0⟩ ∈ p.allParents ⟨1⟩ ∧
      p.offered? ⟨"get", [], .void⟩ ⟨1⟩ = some ⟨1⟩ := by
    decide +kernel
  obtain ⟨p, hp, hclass, hm, howner, hinterface, hparent, hinterface', hparent', hoffered⟩ := hrun
  exact ⟨p, hp, hclass, hm, howner, hinterface, hparent, hinterface', hparent',
    (offered?_eq_some_iff (build_underway hp).declared).1 hoffered⟩

end Program

end PointsTo
