import PointsTo.Context.Element

/-!
# Sets of objects

A set of context-sensitive objects is a natural number, whose bit at a position says whether the object
of that number is in the set. The view is `contains`; two sets with the same view are equal.
-/

namespace PointsTo

/-- A finite set of context-sensitive objects. -/
structure ObjectSet where
  bits : Nat
  deriving DecidableEq, Repr

namespace ObjectSet

def empty : ObjectSet := ⟨0⟩

instance : Inhabited ObjectSet := ⟨empty⟩

def contains (s : ObjectSet) (o : CsObjectId) : Bool := s.bits.testBit o.idx

def singleton (o : CsObjectId) : ObjectSet := ⟨1 <<< o.idx⟩

def union (s t : ObjectSet) : ObjectSet := ⟨s.bits ||| t.bits⟩

def difference (s t : ObjectSet) : ObjectSet := ⟨s.bits ^^^ (s.bits &&& t.bits)⟩

def insert (s : ObjectSet) (o : CsObjectId) : ObjectSet := s.union (singleton o)

def ofList (os : List CsObjectId) : ObjectSet := os.foldl insert empty

def isEmpty (s : ObjectSet) : Bool := s.bits = 0

def isSubset (s t : ObjectSet) : Bool := (s.difference t).isEmpty

/-- Positions of the bits of a number of `2 ^ e` bits, counted from `offset`, in increasing order. The
number is halved, and halves without bits are left out. -/
def positions : (e offset bits : Nat) → List Nat
  | 0, offset, bits => if bits = 0 then [] else [offset]
  | e + 1, offset, bits =>
    let half := 1 <<< e
    if bits = 0 then []
    else positions e offset (bits % (1 <<< half)) ++ positions e (offset + half) (bits >>> half)

/-- The objects of the set, in increasing order. -/
def toList (s : ObjectSet) : List CsObjectId :=
  (positions (s.bits.log2.log2 + 1) 0 s.bits).map CsObjectId.mk

def size (s : ObjectSet) : Nat := s.toList.length

/-- A set is determined by the objects that it contains. -/
theorem ext {s t : ObjectSet} (h : ∀ o, s.contains o = t.contains o) : s = t := by
  cases s with
  | mk a =>
    cases t with
    | mk b => exact congrArg mk (Nat.eq_of_testBit_eq fun i => h ⟨i⟩)

@[simp] theorem contains_empty (o : CsObjectId) : empty.contains o = false := by
  simp [contains, empty]

@[simp] theorem contains_singleton (a o : CsObjectId) :
    (singleton a).contains o = decide (a = o) := by
  cases a; cases o
  simp [contains, singleton, Nat.one_shiftLeft, Nat.testBit_two_pow]

@[simp] theorem contains_union (s t : ObjectSet) (o : CsObjectId) :
    (s.union t).contains o = (s.contains o || t.contains o) := by
  simp [contains, union]

@[simp] theorem contains_difference (s t : ObjectSet) (o : CsObjectId) :
    (s.difference t).contains o = (s.contains o && !t.contains o) := by
  simp only [contains, difference, Nat.testBit_xor, Nat.testBit_and]
  cases s.bits.testBit o.idx <;> cases t.bits.testBit o.idx <;> rfl

@[simp] theorem contains_insert (s : ObjectSet) (a o : CsObjectId) :
    (s.insert a).contains o = (s.contains o || decide (a = o)) := by
  simp [insert]

@[simp] theorem contains_ofList (os : List CsObjectId) (o : CsObjectId) :
    (ofList os).contains o = decide (o ∈ os) := by
  have hfold : ∀ s : ObjectSet,
      (os.foldl insert s).contains o = (s.contains o || decide (o ∈ os)) := by
    induction os with
    | nil => simp
    | cons a os ih =>
        intro s
        rw [List.foldl_cons, ih, contains_insert, Bool.or_assoc, ← Bool.decide_or]
        simp only [List.mem_cons, eq_comm]
  rw [ofList, hfold, contains_empty, Bool.false_or]

theorem isEmpty_iff (s : ObjectSet) : s.isEmpty = true ↔ ∀ o, s.contains o = false := by
  constructor
  · intro h o
    have hs : s.bits = 0 := by simpa [isEmpty] using h
    simp [contains, hs]
  · intro h
    have hs : s = empty := ext fun o => by simp [h o]
    simp [isEmpty, hs, empty]

/-- A set is a subset if each of its objects is in the other one. -/
theorem isSubset_iff (s t : ObjectSet) :
    s.isSubset t = true ↔ ∀ o, s.contains o = true → t.contains o = true := by
  rw [isSubset, isEmpty_iff]
  constructor
  · intro h o hs
    have := h o
    simpa [hs] using this
  · intro h o
    cases hs : s.contains o with
    | false => simp [hs]
    | true => simp [h o hs]

/-- Positions of a row are found by halves, each of which starts at an offset. -/
theorem mem_positions (e offset bits i : Nat) (hb : bits < 1 <<< (1 <<< e)) :
    i ∈ positions e offset bits ↔ offset ≤ i ∧ bits.testBit (i - offset) = true := by
  rw [Nat.one_shiftLeft, Nat.one_shiftLeft] at hb
  induction e generalizing offset bits with
  | zero =>
    have hbits : bits = 0 ∨ bits = 1 := by simp at hb; omega
    rcases hbits with rfl | rfl
    · simp [positions]
    · have hone : Nat.testBit 1 (i - offset) = decide (0 = i - offset) :=
        @Nat.testBit_two_pow 0 (i - offset)
      simp only [positions, Nat.one_ne_zero, if_false, List.mem_singleton, hone,
        decide_eq_true_eq]
      omega
  | succ e ih =>
    simp only [positions, Nat.one_shiftLeft]
    split
    · rename_i h0
      simp [h0]
    · have hw : 0 < 2 ^ e := Nat.two_pow_pos e
      have hlow : bits % 2 ^ 2 ^ e < 2 ^ 2 ^ e := Nat.mod_lt _ (Nat.two_pow_pos _)
      have hhigh : bits >>> 2 ^ e < 2 ^ 2 ^ e := by
        rw [Nat.shiftRight_eq_div_pow, Nat.div_lt_iff_lt_mul (Nat.two_pow_pos _), ← Nat.pow_add]
        rwa [← Nat.two_mul, ← Nat.pow_succ']
      rw [List.mem_append, ih _ _ hlow, ih _ _ hhigh, Nat.testBit_mod_two_pow,
        Nat.testBit_shiftRight]
      simp only [Bool.and_eq_true, decide_eq_true_eq]
      constructor
      · rintro (⟨ho, _, hbit⟩ | ⟨ho, hbit⟩)
        · exact ⟨ho, hbit⟩
        · refine ⟨by omega, ?_⟩
          rwa [show 2 ^ e + (i - (offset + 2 ^ e)) = i - offset by omega] at hbit
      · rintro ⟨ho, hbit⟩
        by_cases hi : i - offset < 2 ^ e
        · exact Or.inl ⟨ho, hi, hbit⟩
        · refine Or.inr ⟨by omega, ?_⟩
          rwa [show 2 ^ e + (i - (offset + 2 ^ e)) = i - offset by omega]

/-- Positions stay within the row that they are taken from. -/
theorem mem_positions_range {e offset bits i : Nat} (h : i ∈ positions e offset bits) :
    offset ≤ i ∧ i < offset + 1 <<< e := by
  induction e generalizing offset bits with
  | zero =>
      unfold positions at h
      split at h
      · cases h
      · rw [List.mem_singleton] at h
        subst h
        simp
  | succ e ih =>
      simp only [positions] at h
      split at h
      · cases h
      · rw [Nat.shiftLeft_succ]
        rcases List.mem_append.1 h with h | h
        · have := ih h
          omega
        · have := ih h
          omega

/-- Positions come in increasing order: those of the lower half are below those of the upper one. -/
theorem sorted_positions (e offset bits : Nat) : (positions e offset bits).Pairwise (· < ·) := by
  induction e generalizing offset bits with
  | zero =>
      unfold positions
      split <;> simp
  | succ e ih =>
      simp only [positions]
      split
      · exact List.Pairwise.nil
      · refine List.pairwise_append.2 ⟨ih _ _, ih _ _, fun i hi j hj => ?_⟩
        have hlow := mem_positions_range hi
        have hhigh := mem_positions_range hj
        omega

/-- The list of a set holds exactly its objects. -/
@[simp] theorem mem_toList (s : ObjectSet) (o : CsObjectId) :
    o ∈ s.toList ↔ s.contains o = true := by
  have hb : s.bits < 1 <<< (1 <<< (s.bits.log2.log2 + 1)) := by
    rw [Nat.one_shiftLeft, Nat.one_shiftLeft]
    exact Nat.lt_of_lt_of_le Nat.lt_log2_self
      (Nat.pow_le_pow_right (by decide) Nat.lt_log2_self)
  simp only [toList, List.mem_map]
  constructor
  · rintro ⟨i, hi, rfl⟩
    exact ((mem_positions _ _ _ _ hb).1 hi).2
  · intro h
    exact ⟨o.idx, (mem_positions _ _ _ _ hb).2 ⟨Nat.zero_le _, h⟩, rfl⟩

theorem sorted_toList (s : ObjectSet) : s.toList.Pairwise (·.idx < ·.idx) :=
  List.pairwise_map.2 (sorted_positions _ _ _)

theorem nodup_toList (s : ObjectSet) : s.toList.Nodup := CsObjectId.nodup_of_sorted s.sorted_toList

end ObjectSet

end PointsTo
