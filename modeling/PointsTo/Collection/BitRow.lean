/-!
# Rows of bits

A row has a length and a bit for each position below it. Bits at or beyond the length are clear, and
cannot be set before the row has been made longer. `BitRow` is what may be done with rows,
`LawfulBitRow` what is relied on, and `Bits` are rows that are kept in a natural number.
-/

namespace PointsTo

/-- What may be done with rows of bits. -/
class BitRow (R : Type) where
  /-- The row of length zero. -/
  empty : R
  /-- The row of a length, without bits that are set. -/
  zeros : (n : Nat) → R
  length : R → Nat
  /-- The bit at a position is set. -/
  test : R → (i : Nat) → Bool
  /-- Makes a row as long as `n`, unless it is longer. -/
  grow : R → (n : Nat) → R
  /-- Sets the bit at a position, and says whether it was set before. The row must be longer than
  that. -/
  put? : R → (i : Nat) → Option (Bool × R)
  /-- Sets the bit at a position. The row must be longer than that. -/
  set? : R → (i : Nat) → Option R
  /-- The positions of the bits that are set, the first one first. -/
  ones : R → List Nat
  /-- Number of bits that are set. -/
  count : R → Nat
  /-- Sets in the first row what is set in the second. -/
  union : R → R → R
  /-- The positions of the bits that are set in the first row and not in the second. -/
  difference : R → R → List Nat
  /-- What is set in the first row is set in the second. -/
  isSubset : R → R → Bool

/-- The row, made longer if it is shorter than `n`. -/
def BitRow.atLeast {R : Type} [BitRow R] (r : R) (n : Nat) : R :=
  if length r < n then grow r n else r

section Laws

open BitRow

/-- Rows that do what they are meant to do. -/
class LawfulBitRow (R : Type) [BitRow R] : Prop where
  test_of_length_le : ∀ {r : R} {i : Nat}, length r ≤ i → test r i = false
  length_empty : length (empty : R) = 0
  length_zeros : ∀ n : Nat, length (zeros n : R) = n
  test_zeros : ∀ n i : Nat, test (zeros n : R) i = false
  length_grow : ∀ (r : R) (n : Nat), length (grow r n) = max (length r) n
  test_grow : ∀ (r : R) (n i : Nat), test (grow r n) i = test r i
  put?_eq : ∀ {r : R} {i : Nat}, i < length r → ∃ r' : R,
    put? r i = some (test r i, r') ∧ ∀ j, test r' j = (test r j || decide (j = i))
  set?_eq : ∀ {r : R} {i : Nat}, i < length r → ∃ r' : R,
    set? r i = some r' ∧ length r' = length r ∧ ∀ j, test r' j = (test r j || decide (j = i))
  ones_eq : ∀ r : R, ones r = (List.range (length r)).filter (test r)
  count_eq : ∀ r : R, count r = (List.range (length r)).countP (test r)
  /-- Nothing is said of a second row that is longer. -/
  test_union : ∀ {r t : R}, length t ≤ length r →
    ∀ i, test (union r t) i = (test r i || test t i)
  mem_difference : ∀ {r t : R} {i : Nat}, i ∈ difference r t ↔ test r i = true ∧ test t i = false
  isSubset_iff : ∀ {r t : R}, isSubset r t = true ↔ ∀ i, test r i = true → test t i = true

end Laws

/-- A row of bits that is kept in a natural number. -/
structure Bits where
  length : Nat
  bits : Nat
  testBit_of_length_le : ∀ i : Nat, length ≤ i → bits.testBit i = false

namespace Bits

def zeros (n : Nat) : Bits := ⟨n, 0, fun i _ => Nat.zero_testBit i⟩

/-- Makes a row as long as `n`, unless it is longer. -/
def grow (r : Bits) (n : Nat) : Bits :=
  ⟨max r.length n, r.bits, fun i hi =>
    r.testBit_of_length_le i (Nat.le_trans (Nat.le_max_left _ _) hi)⟩

/-- A single bit is put into a row. -/
theorem testBit_or_shiftLeft (bits i j : Nat) :
    (bits ||| 1 <<< i).testBit j = (bits.testBit j || decide (j = i)) := by
  rw [Nat.testBit_or, Nat.one_shiftLeft, Nat.testBit_two_pow]
  simp only [eq_comm]

/-- Sets the bit at a position. The row must be longer than that. -/
def set? (r : Bits) (i : Nat) : Option Bits :=
  if h : i < r.length then
    some ⟨r.length, r.bits ||| 1 <<< i, fun j hj => by
      rw [testBit_or_shiftLeft, r.testBit_of_length_le j hj, Bool.false_or, decide_eq_false_iff_not]
      exact Nat.ne_of_gt (Nat.lt_of_lt_of_le h hj)⟩
  else none

/-- Sets in the first row what is set in the second. If that one is longer, the first row grows. -/
def union (r t : Bits) : Bits :=
  ⟨max r.length t.length, r.bits ||| t.bits, fun i hi => by
    rw [Nat.testBit_or, r.testBit_of_length_le i (Nat.le_trans (Nat.le_max_left _ _) hi),
      t.testBit_of_length_le i (Nat.le_trans (Nat.le_max_right _ _) hi)]
    rfl⟩

/-- The positions of the bits that are set. -/
def ones (r : Bits) : List Nat := (List.range r.length).filter r.bits.testBit

instance : BitRow Bits where
  empty := zeros 0
  zeros := zeros
  length := length
  test r := r.bits.testBit
  grow := grow
  put? r i := (r.set? i).map fun t => (r.bits.testBit i, t)
  set? := set?
  ones := ones
  count r := (List.range r.length).countP r.bits.testBit
  union := union
  difference r t := r.ones.filter fun i => !t.bits.testBit i
  isSubset r t := r.ones.all t.bits.testBit

/-- Ones are listed up to the length of the row, and beyond it there are none. -/
theorem mem_ones {r : Bits} {i : Nat} : i ∈ r.ones ↔ r.bits.testBit i = true := by
  rw [ones, List.mem_filter, List.mem_range, and_iff_right_iff_imp]
  intro hi
  refine Nat.lt_of_not_le fun hle => ?_
  rw [r.testBit_of_length_le i hle] at hi
  cases hi

theorem set?_of_lt {r : Bits} {i : Nat} (h : i < r.length) : ∃ t : Bits, r.set? i = some t ∧
    t.length = r.length ∧ ∀ j, t.bits.testBit j = (r.bits.testBit j || decide (j = i)) :=
  ⟨_, dif_pos h, rfl, testBit_or_shiftLeft r.bits i⟩

instance : LawfulBitRow Bits where
  test_of_length_le {r i} := r.testBit_of_length_le i
  length_empty := rfl
  length_zeros _ := rfl
  test_zeros _ i := Nat.zero_testBit i
  length_grow _ _ := rfl
  test_grow _ _ _ := rfl
  put?_eq {r i} hi := by
    obtain ⟨t, ht, -, htest⟩ := set?_of_lt hi
    exact ⟨t, congrArg (Option.map _) ht, htest⟩
  set?_eq := set?_of_lt
  ones_eq _ := rfl
  count_eq _ := rfl
  test_union _ _ := Nat.testBit_or _ _ _
  mem_difference {r t i} := by
    show i ∈ r.ones.filter (fun i => !t.bits.testBit i) ↔ _
    rw [List.mem_filter, mem_ones, Bool.not_eq_true']
    rfl
  isSubset_iff {r t} := by
    show r.ones.all t.bits.testBit = true ↔ _
    simp only [List.all_eq_true, mem_ones]
    rfl

end Bits

end PointsTo
