import Mathlib.Data.Finset.Card
import Mathlib.Data.Finset.Dedup
import Mathlib.Data.Finset.SDiff
import Mathlib.Data.List.Perm.Basic
import PointsTo.ObjectSet
import PointsTo.StoredSet

/-! # Stored sets are finite sets

The same objects may be stored in rows of different lengths, and every operation meets rows of different
lengths in every combination. Whatever the lengths are, no bit is set that has no place in its row, and
all questions about stored sets are answered as for the finite sets of their objects. So stored sets are
as good as the sets of an analysis, which have no lengths at all.

What an operation does is said once, in terms of the objects that its result contains; all else follows
from that.
-/

namespace PointsTo

/-- If items can be added, then so can all items of a list, one after the other. -/
theorem exists_foldlM_of_adds {σ α : Type} [DecidableEq α] {has : σ → α → Bool}
    {add : σ → α → Option σ} {P : σ → Prop} {l : List α} {s : σ} (hs : P s)
    (hadd : ∀ s, P s → ∀ a ∈ l, ∃ s', add s a = some s' ∧ P s' ∧
      ∀ b, has s' b = (has s b || decide (b = a))) :
    ∃ s', l.foldlM add s = some s' ∧ ∀ b, has s' b = (has s b || decide (b ∈ l)) := by
  induction l generalizing s with
  | nil => exact ⟨s, rfl, fun b => by simp⟩
  | cons a l ih =>
      obtain ⟨s₁, hfirst, hs₁, hhas⟩ := hadd s hs a List.mem_cons_self
      obtain ⟨s₂, hrest, hhas'⟩ := ih hs₁ fun s hs b hb => hadd s hs b (List.mem_cons_of_mem a hb)
      refine ⟨s₂, ?_, fun b => ?_⟩
      · rw [List.foldlM_cons, hfirst]
        exact hrest
      · rw [hhas', hhas, Bool.or_assoc, ← Bool.decide_or]
        simp only [List.mem_cons]

variable {R : Type} [BitRow R] [LawfulBitRow R]

/-! ## Bits that are set -/

namespace BitRow

open LawfulBitRow

variable {r : R} {i : Nat}

theorem test_empty (i : Nat) : test (empty : R) i = false := by
  refine test_of_length_le ?_
  rw [length_empty]
  exact Nat.zero_le i

/-- A bit that is set has a place in its row. -/
theorem lt_length_of_test (h : test r i = true) : i < length r := by
  refine Nat.lt_of_not_le fun hle => ?_
  rw [test_of_length_le hle] at h
  cases h

/-- A row that is made longer has the length that was asked for. -/
theorem le_length_atLeast (r : R) (n : Nat) : n ≤ length (atLeast r n) := by
  unfold atLeast
  split
  · rw [length_grow]
    exact Nat.le_max_right _ _
  · exact Nat.le_of_not_lt ‹_›

/-- No bit changes when a row is made longer. -/
theorem test_atLeast (r : R) (n i : Nat) : test (atLeast r n) i = test r i := by
  unfold atLeast
  split
  · exact test_grow r n i
  · rfl

theorem mem_ones : i ∈ ones r ↔ test r i = true := by
  rw [ones_eq, List.mem_filter, List.mem_range, and_iff_right_iff_imp]
  exact lt_length_of_test

theorem sorted_ones (r : R) : (ones r).Pairwise (· < ·) := by
  rw [ones_eq]
  exact List.pairwise_lt_range.filter _

theorem length_ones (r : R) : (ones r).length = count r := by
  rw [ones_eq, count_eq, List.countP_eq_length_filter]

/-- Bits are set one after the other, if all of them have a place in the row. -/
theorem foldlM_set? {is : List Nat} (h : ∀ i ∈ is, i < length r) : ∃ r' : R,
    is.foldlM set? r = some r' ∧ ∀ j, test r' j = (test r j || decide (j ∈ is)) := by
  refine exists_foldlM_of_adds (P := fun r' => length r' = length r) rfl fun r' hr' i hi => ?_
  obtain ⟨r'', hset, hlength, htest⟩ := set?_eq (r := r') (i := i) (by rw [hr']; exact h i hi)
  exact ⟨r'', hset, hlength.trans hr', htest⟩

end BitRow

/-! ## What operations do -/

namespace StoredSet

open BitRow LawfulBitRow

variable {s t : StoredSet R} {o : CsObjectId}

theorem contains_empty (o : CsObjectId) : (empty : StoredSet R).contains o = false := test_empty o.idx

/-- The row has a place for the object, since it is made longer where it has none. -/
theorem insert?_eq (s : StoredSet R) (o : CsObjectId) : ∃ s',
    s.insert? o = some (!s.contains o, s') ∧
      ∀ a, s'.contains a = (s.contains a || decide (a = o)) := by
  obtain ⟨r, hput, htest⟩ := put?_eq (le_length_atLeast s.row (o.idx + 1))
  refine ⟨⟨r⟩, ?_, fun a => ?_⟩
  · rw [insert?, hput, test_atLeast]
    rfl
  · cases a
    cases o
    simp only [contains, htest, test_atLeast, CsObjectId.mk.injEq]

/-- A set of one object can be made and contains this object only. -/
theorem singleton?_eq (o : CsObjectId) : ∃ s : StoredSet R, singleton? o = some s ∧
    ∀ a, s.contains a = decide (a = o) := by
  obtain ⟨s, hs, hcontains⟩ := (empty : StoredSet R).insert?_eq o
  refine ⟨s, ?_, fun a => ?_⟩
  · rw [singleton?, hs]
    rfl
  · rw [hcontains, contains_empty, Bool.false_or]

/-- A set can be made from a list and contains the objects of the list. -/
theorem ofList?_eq (os : List CsObjectId) : ∃ s : StoredSet R, ofList? os = some s ∧
    ∀ o, s.contains o = decide (o ∈ os) := by
  obtain ⟨s, hs, hcontains⟩ := exists_foldlM_of_adds (P := fun _ => True) (l := os)
    (s := (empty : StoredSet R)) trivial fun s _ o _ => by
      obtain ⟨s', hinsert, hcontains⟩ := s.insert?_eq o
      exact ⟨s', congrArg (Option.map (·.2)) hinsert, trivial, hcontains⟩
  refine ⟨s, hs, fun o => ?_⟩
  rw [hcontains, contains_empty, Bool.false_or]

/-- The first row has places for all bits of the second one before these are set in it. -/
theorem contains_union (s t : StoredSet R) (o : CsObjectId) :
    (s.union t).contains o = (s.contains o || t.contains o) := by
  simp only [contains, union, test_union (le_length_atLeast s.row (length t.row)), test_atLeast]

/-- The row of the result has places for all objects of the first set. -/
theorem difference?_eq (s t : StoredSet R) : ∃ d, s.difference? t = some d ∧
    ∀ o, d.contains o = (s.contains o && !t.contains o) := by
  have hplace : ∀ i ∈ difference s.row t.row, i < length (zeros (length s.row) : R) := fun i hi => by
    rw [length_zeros]
    exact lt_length_of_test (mem_difference.1 hi).1
  obtain ⟨r, hr, htest⟩ := foldlM_set? hplace
  refine ⟨⟨r⟩, congrArg (Option.map mk) hr, fun o => ?_⟩
  rw [contains, htest, test_zeros, Bool.false_or, Bool.eq_iff_iff, decide_eq_true_eq, mem_difference,
    Bool.and_eq_true, Bool.not_eq_true']
  rfl

/-- The objects that are listed are those of the set. -/
theorem mem_toList : o ∈ s.toList ↔ s.contains o = true := by
  rw [toList, List.mem_map]
  constructor
  · rintro ⟨i, hi, rfl⟩
    exact mem_ones.1 hi
  · exact fun ho => ⟨o.idx, mem_ones.2 ho, rfl⟩

theorem sorted_toList (s : StoredSet R) : s.toList.Pairwise (·.idx < ·.idx) :=
  List.pairwise_map.2 (sorted_ones s.row)

theorem length_toList (s : StoredSet R) : s.toList.length = s.size :=
  (List.length_map _).trans (length_ones s.row)

omit [LawfulBitRow R] in
theorem isEmpty_toList (s : StoredSet R) : s.toList.isEmpty = s.isEmpty := List.isEmpty_map

theorem isSubset_iff : s.isSubset t = true ↔ ∀ o, s.contains o = true → t.contains o = true :=
  LawfulBitRow.isSubset_iff.trans ⟨fun h o => h o.idx, fun h i => h ⟨i⟩⟩

/-- Equal sets contain the same objects, whatever the lengths of their rows are. -/
theorem beq_iff : (s == t) = true ↔ ∀ o, s.contains o = t.contains o := by
  show (s.isSubset t && t.isSubset s) = true ↔ _
  rw [Bool.and_eq_true, isSubset_iff, isSubset_iff, ← forall_and]
  exact forall_congr' fun o => iff_iff_implies_and_implies.symm.trans Bool.eq_iff_iff.symm

/-! ## As finite sets -/

/-- The stored set has the objects of a finite set. -/
def Holds (s : StoredSet R) (A : Finset CsObjectId) : Prop := ∀ o, s.contains o = true ↔ o ∈ A

/-- A stored set does what a finite set does, by itself and with any other stored set, however long the
rows are. -/
structure BehavesAs (s : StoredSet R) (A : Finset CsObjectId) : Prop where
  contains_iff : ∀ o, s.contains o = true ↔ o ∈ A
  size_eq : s.size = A.card
  isEmpty_iff : s.isEmpty = true ↔ A = ∅
  /-- Objects are listed in the order of their identifiers, and so once each. -/
  sorted : s.toList.Pairwise (·.idx < ·.idx)
  mem_toList : ∀ o, o ∈ s.toList ↔ o ∈ A
  isSubset_iff : ∀ {t : StoredSet R} {B : Finset CsObjectId}, t.Holds B →
    (s.isSubset t = true ↔ A ⊆ B)
  beq_iff : ∀ {t : StoredSet R} {B : Finset CsObjectId}, t.Holds B → ((s == t) = true ↔ A = B)
  /-- An object can be added, and is new if it is not there. -/
  insert : ∀ o, ∃ s', s.insert? o = some (decide (o ∉ A), s') ∧ s'.Holds (insert o A)
  union : ∀ {t : StoredSet R} {B : Finset CsObjectId}, t.Holds B → (s.union t).Holds (A ∪ B)
  difference : ∀ {t : StoredSet R} {B : Finset CsObjectId}, t.Holds B →
    ∃ d, s.difference? t = some d ∧ d.Holds (A \ B)
  /-- Nothing is lost if only those objects of another set are added that are not there. -/
  union_difference : ∀ {t : StoredSet R} {B : Finset CsObjectId}, t.Holds B →
    ∃ d, t.difference? s = some d ∧ (s.union d).Holds (A ∪ B) ∧ (s.union d == s.union t) = true

variable {A B : Finset CsObjectId}

/-- Stored sets are joined as finite sets are. -/
theorem Holds.union (hs : s.Holds A) (ht : t.Holds B) : (s.union t).Holds (A ∪ B) := fun o => by
  rw [contains_union, Bool.or_eq_true, hs o, ht o, Finset.mem_union]

/-- Inserting into a stored set is inserting into a finite one, and tells if the object is new. -/
theorem Holds.exists_insert? (hs : s.Holds A) (o : CsObjectId) :
    ∃ s', s.insert? o = some (decide (o ∉ A), s') ∧ s'.Holds (insert o A) := by
  obtain ⟨s', hs', hcontains⟩ := s.insert?_eq o
  have hnew : (!s.contains o) = decide (o ∉ A) := by
    rw [Bool.eq_iff_iff, Bool.not_eq_true', decide_eq_true_eq, ← hs o, Bool.not_eq_true]
  refine ⟨s', hnew ▸ hs', fun a => ?_⟩
  rw [hcontains, Bool.or_eq_true, decide_eq_true_eq, hs a, Finset.mem_insert, or_comm]

/-- Stored sets are taken from each other as finite sets are. -/
theorem Holds.exists_difference? (hs : s.Holds A) (ht : t.Holds B) :
    ∃ d, s.difference? t = some d ∧ d.Holds (A \ B) := by
  obtain ⟨d, hd, hcontains⟩ := s.difference?_eq t
  refine ⟨d, hd, fun o => ?_⟩
  rw [hcontains, Bool.and_eq_true, Bool.not_eq_true', hs o, Finset.mem_sdiff, ← ht o, Bool.not_eq_true]

theorem Holds.toFinset_toList (hs : s.Holds A) : s.toList.toFinset = A :=
  Finset.ext fun o => by rw [List.mem_toFinset, mem_toList, hs o]

theorem nodup_toList (s : StoredSet R) : s.toList.Nodup := CsObjectId.nodup_of_sorted s.sorted_toList

/-- A stored set that has the objects of a finite one behaves as it does. -/
theorem Holds.behavesAs (hs : s.Holds A) : s.BehavesAs A where
  contains_iff := hs
  size_eq := by
    rw [← hs.toFinset_toList, List.toFinset_card_of_nodup s.nodup_toList, length_toList]
  isEmpty_iff := by
    rw [← hs.toFinset_toList, List.toFinset_eq_empty_iff, ← isEmpty_toList, List.isEmpty_iff]
  sorted := s.sorted_toList
  mem_toList o := mem_toList.trans (hs o)
  isSubset_iff {t B} ht := by
    rw [isSubset_iff, Finset.subset_iff]
    exact forall_congr' fun o => imp_congr (hs o) (ht o)
  beq_iff {t B} ht := by
    rw [beq_iff, Finset.ext_iff]
    exact forall_congr' fun o => Bool.eq_iff_iff.trans (iff_congr (hs o) (ht o))
  insert := hs.exists_insert?
  union := hs.union
  difference := hs.exists_difference?
  -- The difference is what the second set adds to the first one.
  union_difference {t B} ht := by
    obtain ⟨d, hd, hdiff⟩ := ht.exists_difference? hs
    have hunion : (s.union d).Holds (A ∪ B) := by
      rw [← Finset.union_sdiff_self_eq_union]
      exact hs.union hdiff
    refine ⟨d, hd, hunion, beq_iff.2 fun o => ?_⟩
    rw [Bool.eq_iff_iff, hunion o, hs.union ht o]

/-! ## As the sets of an analysis -/

/-- A stored set and a set of an analysis give the same answers. -/
structure Agrees (s : StoredSet R) (x : ObjectSet) : Prop where
  contains : ∀ o, s.contains o = x.contains o
  size : s.size = x.size
  isEmpty : s.isEmpty = x.isEmpty
  toList : s.toList = x.toList
  isSubset : ∀ {t : StoredSet R} {y : ObjectSet}, (∀ o, t.contains o = y.contains o) →
    s.isSubset t = x.isSubset y
  beq : ∀ {t : StoredSet R} {y : ObjectSet}, (∀ o, t.contains o = y.contains o) →
    (s == t) = decide (x = y)

/-- The objects of a set can be listed in increasing order in one way only. -/
theorem toList_eq {x : ObjectSet} (h : ∀ o, s.contains o = x.contains o) : s.toList = x.toList := by
  have hperm : s.toList.Perm x.toList := by
    refine (List.perm_ext_iff_of_nodup s.nodup_toList x.nodup_toList).2 fun o => ?_
    rw [mem_toList, ObjectSet.mem_toList, h]
  exact hperm.eq_of_pairwise (fun _ _ _ _ hab hba => absurd hab (Nat.lt_asymm hba)) s.sorted_toList
    x.sorted_toList

/-- A stored set with the objects of an abstract one gives the answers of it. -/
theorem agrees_of_contains {x : ObjectSet} (h : ∀ o, s.contains o = x.contains o) : s.Agrees x where
  contains := h
  size := by rw [← length_toList, toList_eq h, ObjectSet.size]
  isEmpty := by
    rw [Bool.eq_iff_iff, ObjectSet.isEmpty_iff, ← isEmpty_toList, List.isEmpty_iff,
      List.eq_nil_iff_forall_not_mem]
    exact forall_congr' fun o => by rw [mem_toList, h, Bool.not_eq_true]
  toList := toList_eq h
  isSubset {t y} ht := by
    rw [Bool.eq_iff_iff, isSubset_iff, ObjectSet.isSubset_iff]
    exact forall_congr' fun o => by rw [h, ht]
  beq {t y} ht := by
    rw [Bool.eq_iff_iff, beq_iff, decide_eq_true_eq]
    constructor
    · exact fun heq => ObjectSet.ext fun o => by rw [← h, ← ht, heq]
    · rintro rfl o
      rw [h, ht]

end StoredSet

/-! ## Constructions -/

/-- How a set of objects is made from others. -/
inductive SetConstruction where
  | empty
  | singleton (o : CsObjectId)
  | ofList (os : List CsObjectId)
  | insert (c : SetConstruction) (o : CsObjectId)
  | union (c d : SetConstruction)
  | difference (c d : SetConstruction)

namespace SetConstruction

def objects : SetConstruction → Finset CsObjectId
  | empty => ∅
  | singleton o => {o}
  | ofList os => os.toFinset
  | insert c o => Insert.insert o c.objects
  | union c d => c.objects ∪ d.objects
  | difference c d => c.objects \ d.objects

def objectSet : SetConstruction → ObjectSet
  | empty => .empty
  | singleton o => .singleton o
  | ofList os => .ofList os
  | insert c o => c.objectSet.insert o
  | union c d => c.objectSet.union d.objectSet
  | difference c d => c.objectSet.difference d.objectSet

def stored? {R : Type} [BitRow R] : SetConstruction → Option (StoredSet R)
  | empty => some .empty
  | singleton o => StoredSet.singleton? o
  | ofList os => StoredSet.ofList? os
  | insert c o => do
    let (_, s) ← (← c.stored?).insert? o
    return s
  | union c d => do return (← c.stored?).union (← d.stored?)
  | difference c d => do (← c.stored?).difference? (← d.stored?)

/-- Constructions of abstract sets and of finite ones have the same objects. -/
theorem contains_objectSet_iff (c : SetConstruction) (o : CsObjectId) :
    c.objectSet.contains o = true ↔ o ∈ c.objects := by
  induction c with
  | empty => simp [objects, objectSet]
  | singleton a => simp [objects, objectSet, eq_comm]
  | ofList os => simp [objects, objectSet]
  | insert c a ih =>
      rw [objectSet, ObjectSet.contains_insert, Bool.or_eq_true, decide_eq_true_eq, ih, objects,
        Finset.mem_insert, or_comm, @eq_comm _ a]
  | union c d ihc ihd => simp [objects, objectSet, ihc, ihd]
  | difference c d ihc ihd => simp [objects, objectSet, ihc, ← ihd]

/-- Every construction can be carried out in rows of bits. -/
theorem exists_stored? (c : SetConstruction) :
    ∃ s : StoredSet R, c.stored? = some s ∧ s.Holds c.objects := by
  -- One case for each construction, in which the parts are there by induction.
  induction c with
  | empty => exact ⟨.empty, rfl, fun o => by simp [StoredSet.contains_empty, objects]⟩
  | singleton o =>
      obtain ⟨s, hs, hcontains⟩ := StoredSet.singleton?_eq (R := R) o
      exact ⟨s, hs, fun a => by simp [hcontains, objects]⟩
  | ofList os =>
      obtain ⟨s, hs, hcontains⟩ := StoredSet.ofList?_eq (R := R) os
      exact ⟨s, hs, fun o => by simp [hcontains, objects]⟩
  | insert c o ih =>
      obtain ⟨s, hs, hobjects⟩ := ih
      obtain ⟨s', hs', hobjects'⟩ := hobjects.exists_insert? o
      refine ⟨s', ?_, hobjects'⟩
      rw [stored?, hs]
      show (s.insert? o >>= fun x => pure x.2) = some s'
      rw [hs']
      rfl
  | union c d ihc ihd =>
      obtain ⟨s, hs, hsobjects⟩ := ihc
      obtain ⟨t, ht, htobjects⟩ := ihd
      refine ⟨s.union t, ?_, hsobjects.union htobjects⟩
      rw [stored?, hs, ht]
      rfl
  | difference c d ihc ihd =>
      obtain ⟨s, hs, hsobjects⟩ := ihc
      obtain ⟨t, ht, htobjects⟩ := ihd
      obtain ⟨u, hu, huobjects⟩ := hsobjects.exists_difference? htobjects
      refine ⟨u, ?_, huobjects⟩
      rw [stored?, hs, ht]
      exact hu

/-- Whatever is made of sets of objects in rows of bits is a finite set, and it gives the answers of the
set that an analysis makes in the same way. -/
theorem stored_as_finite_set (c : SetConstruction) : ∃ s : StoredSet R, c.stored? = some s ∧
    s.BehavesAs c.objects ∧ s.Agrees c.objectSet := by
  obtain ⟨s, hs, hobjects⟩ := c.exists_stored? (R := R)
  refine ⟨s, hs, hobjects.behavesAs, StoredSet.agrees_of_contains fun o => ?_⟩
  rw [Bool.eq_iff_iff, hobjects o, contains_objectSet_iff]

/-- Three objects, in a row that has a place for the hundredth one. -/
def sample : SetConstruction :=
  .difference
    (.union (.insert (.ofList [⟨2⟩, ⟨1⟩, ⟨2⟩]) ⟨99⟩)
      (.difference (.ofList [⟨3⟩, ⟨70⟩]) (.singleton ⟨70⟩)))
    (.ofList [⟨99⟩, ⟨500⟩])

/-- A bit row made of a list carries the construction out, with a row that is longer than its objects
need. -/
theorem stored_as_finite_set_sample : LawfulBitRow Bits ∧ ∃ s : StoredSet Bits,
    sample.stored? = some s ∧ s.BehavesAs sample.objects ∧ s.Agrees sample.objectSet ∧
      s.row.length = 100 ∧ s.toList = [⟨1⟩, ⟨2⟩, ⟨3⟩] := by
  obtain ⟨s, hs, hbehaves, hagrees⟩ := stored_as_finite_set (R := Bits) sample
  have hsample : (sample.stored? : Option (StoredSet Bits)).map (fun s => (s.row.length, s.toList)) =
      some (100, [⟨1⟩, ⟨2⟩, ⟨3⟩]) := by decide
  rw [hs, Option.map_some, Option.some.injEq, Prod.mk.injEq] at hsample
  exact ⟨inferInstance, s, hs, hbehaves, hagrees, hsample⟩

end SetConstruction

end PointsTo
