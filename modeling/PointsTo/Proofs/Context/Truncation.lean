import PointsTo.Context.Checked

/-! # Cutting contexts

A context is cut to its last tokens, and a token is added to what is left of it. Both are a matter of
the last tokens of a sequence: cutting twice is cutting once to the smaller number of tokens, and cutting
before or after a token is added makes no difference. No cut starts before or beyond the context,
whatever its limit.
-/

namespace PointsTo.Context

variable {c : Context} {t x : Token} {j k : Nat}

/-! ## Cuts -/

theorem length_lastK_le (c : Context) (k : Nat) : (c.lastK k).length ≤ k := by
  rw [lastK, List.length_drop]
  omega

theorem mem_of_mem_lastK (h : t ∈ c.lastK k) : t ∈ c := List.mem_of_mem_drop h

@[simp] theorem lastK_zero (c : Context) : c.lastK 0 = [] := by
  simp [lastK]

/-- The last tokens of the last ones are the last ones. -/
theorem lastK_lastK (h : k ≤ j) : (c.lastK j).lastK k = c.lastK k := by
  rw [lastK, lastK, lastK, List.drop_drop, List.length_drop]
  congr 1
  omega

/-- Extending a context means to append a token and to keep the last ones. -/
theorem extend_eq_lastK (c : Context) (x : Token) (k : Nat) :
    c.extend x k = Context.lastK (c ++ [x]) k := by
  unfold extend
  split
  · rename_i hk
    rw [hk, lastK_zero]
  · rw [lastK, lastK, List.length_append, List.length_singleton,
      List.drop_append_of_le_length (by omega)]
    congr 2
    omega

/-- A context to which a token is added has no more tokens than are kept, however long it was. -/
theorem length_extend_le (c : Context) (x : Token) (k : Nat) : (c.extend x k).length ≤ k := by
  rw [extend_eq_lastK]
  exact length_lastK_le _ k

/-- A token of an extended context is the new one or an old one. -/
theorem mem_or_eq_of_mem_extend (h : t ∈ c.extend x k) : t ∈ c ∨ t = x := by
  rw [extend_eq_lastK] at h
  exact (List.mem_append.1 (mem_of_mem_lastK h)).imp_right List.mem_singleton.1

/-- Of a context with one more token, the last ones are that token and the last ones of the others. -/
theorem lastK_extend (x : Token) (h : k ≤ j) : (c.extend x j).lastK k = c.extend x k := by
  rw [extend_eq_lastK, extend_eq_lastK, lastK_lastK h]

/-- An extension depends on one token less than it keeps. -/
theorem extend_lastK (x : Token) (h : k - 1 ≤ j) : Context.extend (c.lastK j) x k = c.extend x k := by
  unfold extend
  rw [lastK_lastK h]

/-! ## Last tokens -/

/-- The second context is made of the last tokens of the first one: `k` of them, or all if there are
fewer. -/
structure IsLast (k : Nat) (c d : Context) : Prop where
  suffix : d <:+ c
  length : d.length = min k c.length

/-- The cut leaves the last tokens. -/
theorem isLast_lastK (c : Context) (k : Nat) : IsLast k c (c.lastK k) where
  suffix := List.drop_suffix _ c
  length := by
    rw [lastK, List.length_drop]
    omega

/-! ## Bounds of cuts -/

/-- Computed with the arithmetic of machine words, the cut is defined and the same. -/
theorem lastK?_eq (c : Context) (k : Nat) : c.lastK? k = some (c.lastK k) := by
  unfold lastK?
  split
  · rename_i hle
    rw [lastK, Nat.sub_eq_zero_of_le hle, List.drop_zero]
  · rename_i hlt
    have hminus : minus? c.length k = some (c.length - k) := if_pos (by omega)
    rw [hminus]
    exact if_pos (Nat.sub_le _ _)

/-- What is kept of a context has fewer tokens than the limit allows, so with one more they can be
counted in a word. -/
theorem extend?_eq (c : Context) (x : Token) (hk : k < Selector.boundLimit) :
    c.extend? x k = some (c.extend x k) := by
  unfold extend? extend
  split
  · rfl
  · have hone : minus? k 1 = some (k - 1) := if_pos (by omega)
    have hroom : plus? (min c.length (k - 1)) 1 = some (min c.length (k - 1) + 1) := if_pos (by omega)
    have hstart : minus? c.length (min c.length (k - 1)) = some (c.length - min c.length (k - 1)) :=
      if_pos (Nat.min_le_left _ _)
    have hslice : c.slice? (c.length - min c.length (k - 1)) = some (c.lastK (k - 1)) := by
      rw [slice?, if_pos (Nat.sub_le _ _), lastK]
      congr 2
      omega
    simp only [hone, hroom, hstart, hslice, Option.bind_eq_bind, Option.bind_some]
    rfl

/-! ## Cuts together -/

/-- How cuts to `k` tokens, and to `j` of these, go together. -/
structure CutsAgree (c : Context) (x : Token) (j k : Nat) : Prop where
  isLast_lastK : IsLast k c (c.lastK k)
  isLast_extend : IsLast k (c ++ [x]) (c.extend x k)
  lastK_lastK : (c.lastK k).lastK j = c.lastK j
  lastK_extend : (c.extend x k).lastK j = Context.extend (c.lastK j) x j
  /-- Only those tokens matter that are kept beside the new one. -/
  extend_congr : ∀ d : Context, d.lastK (k - 1) = c.lastK (k - 1) → d.extend x k = c.extend x k
  length_lastK_le : (c.lastK k).length ≤ k
  length_extend_le : (c.extend x k).length ≤ k
  /-- All numbers on the way to a cut are within their bounds. -/
  lastK?_eq : c.lastK? k = some (c.lastK k)
  extend?_eq : c.extend? x k = some (c.extend x k)

/-- For every bound that a selector may have, a longer cut may come first, and an extended context may
be cut before it is extended. -/
theorem cutsAgree_of_le (c : Context) (x : Token) (hj : j ≤ k) (hk : k < Selector.boundLimit) :
    CutsAgree c x j k where
  isLast_lastK := c.isLast_lastK k
  isLast_extend := by
    rw [extend_eq_lastK]
    exact Context.isLast_lastK _ k
  lastK_lastK := Context.lastK_lastK hj
  lastK_extend := (Context.lastK_extend x hj).trans (extend_lastK x (Nat.sub_le j 1)).symm
  extend_congr d hd := by
    rw [← extend_lastK x (Nat.le_refl (k - 1)), hd, extend_lastK x (Nat.le_refl (k - 1))]
  length_lastK_le := c.length_lastK_le k
  length_extend_le := c.length_extend_le x k
  lastK?_eq := c.lastK?_eq k
  extend?_eq := c.extend?_eq x hk

/-- Three tokens, one of each kind. -/
def sample : Context := [.callSite ⟨0⟩, .object ⟨1⟩, .type ⟨2⟩]

/-- Of three tokens and a new one, two are kept, and one of them after a shorter cut. -/
theorem cutsAgree_of_le_sample : 1 ≤ 2 ∧ 2 < Selector.boundLimit ∧
    CutsAgree sample (.object ⟨3⟩) 1 2 ∧
      sample.extend (.object ⟨3⟩) 2 = [.type ⟨2⟩, .object ⟨3⟩] ∧ sample.lastK 1 = [.type ⟨2⟩] :=
  ⟨by decide, by decide, cutsAgree_of_le _ _ (by decide) (by decide), by decide, by decide⟩

end PointsTo.Context
