import PointsTo.Collection.Family

/-!
# Canonical numbering

A table gives each item a number, the same for equal items, counted from zero in the order in which
items are first met. Numbers are found through an index by a key of the items, which need not tell all
items apart. The invariants say that the index is exact and in order, and that no item is there twice;
with them `find?_eq_some_iff` reads the number of an item off the table.
-/

namespace PointsTo

/-- A canonical numbering of items, with an index by `key`. -/
structure Table (α : Type) (key : α → Nat) where
  items : Array α
  /-- For each key, the numbers of the items with that key, in increasing order. -/
  index : Family (Array Nat)
  mem_index : ∀ (k i : Nat), i ∈ index.get k ↔ ∃ a, items[i]? = some a ∧ key a = k
  sorted : ∀ k : Nat, (index.get k).toList.Pairwise (· < ·)
  distinct : ∀ (i j : Nat) (a : α), items[i]? = some a → items[j]? = some a → i = j

namespace Table

variable {α : Type} {key : α → Nat}

def empty : Table α key where
  items := #[]
  index := .empty
  mem_index k i := by
    simp only [Family.get_empty, Array.getElem?_empty, reduceCtorEq, false_and, exists_false,
      iff_false]
    exact Array.not_mem_empty i
  sorted k := by
    rw [Family.get_empty]
    exact List.Pairwise.nil
  distinct := by simp

instance : Inhabited (Table α key) := ⟨empty⟩

def size (t : Table α key) : Nat := t.items.size

def get [Inhabited α] (t : Table α key) (i : Nat) : α := t.items.getD i default

/-- The numbers of the items with a key, in increasing order. -/
def withKey (t : Table α key) (k : Nat) : List Nat := (t.index.get k).toList

/-- Adds an item that is not in the table. -/
def add (t : Table α key) (a : α) (h : a ∉ t.items) : Table α key where
  items := t.items.push a
  index := t.index.update (key a) (·.push t.items.size)
  mem_index k i := by
    have hlt : ∀ b, t.items[i]? = some b → i < t.items.size := fun b hb =>
      (Array.getElem?_eq_some_iff.1 hb).1
    rw [Family.get_update, Array.getElem?_push]
    -- The list of one key gets the new number, and those of other keys stay.
    by_cases hk : k = key a
    · subst hk
      simp only [if_true, Array.mem_push, t.mem_index]
      constructor
      · rintro (⟨b, hb, hkb⟩ | rfl)
        · exact ⟨b, by simp [Nat.ne_of_lt (hlt b hb), hb], hkb⟩
        · exact ⟨a, by simp, rfl⟩
      · rintro ⟨b, hb, hkb⟩
        split at hb
        · exact Or.inr ‹_›
        · exact Or.inl ⟨b, hb, hkb⟩
    · simp only [hk, if_false, t.mem_index]
      constructor
      · rintro ⟨b, hb, hkb⟩
        exact ⟨b, by simp [Nat.ne_of_lt (hlt b hb), hb], hkb⟩
      · rintro ⟨b, hb, hkb⟩
        split at hb
        · simp only [Option.some.injEq] at hb
          exact absurd (hb ▸ hkb).symm hk
        · exact ⟨b, hb, hkb⟩
  sorted k := by
    rw [Family.get_update]
    split
    · rw [Array.toList_push, List.pairwise_append]
      -- The new number is above all others.
      refine ⟨t.sorted _, List.pairwise_singleton _ _, fun i hi j hj => ?_⟩
      obtain ⟨b, hb, -⟩ := (t.mem_index _ i).1 (Array.mem_toList_iff.1 hi)
      rw [List.mem_singleton.1 hj]
      exact (Array.getElem?_eq_some_iff.1 hb).1
    · exact t.sorted k
  distinct i j b hi hj := by
    rw [Array.getElem?_push] at hi hj
    have hmem : ∀ n, t.items[n]? = some a → False := fun n hn => h (Array.mem_of_getElem? hn)
    -- The new item would have to be in the table, if it stood at two places.
    split at hi <;> split at hj
    · omega
    · simp only [Option.some.injEq] at hi
      exact (hmem j (hi ▸ hj)).elim
    · simp only [Option.some.injEq] at hj
      exact (hmem i (hj ▸ hi)).elim
    · exact t.distinct i j b hi hj

section Lookup

variable [DecidableEq α]

/-- The number of an item. -/
def find? (t : Table α key) (a : α) : Option Nat :=
  (t.index.get (key a)).find? fun i => t.items[i]? = some a

/-- The index finds an item exactly where it stands. -/
theorem find?_eq_some_iff (t : Table α key) (a : α) (i : Nat) :
    t.find? a = some i ↔ t.items[i]? = some a := by
  constructor
  · intro h
    simpa using Array.find?_some h
  · intro h
    have hi : i ∈ t.index.get (key a) := (t.mem_index _ _).2 ⟨a, h, rfl⟩
    cases hf : t.find? a with
    | none =>
      have := Array.find?_eq_none.1 hf i hi
      simp [h] at this
    | some j =>
      have hj : t.items[j]? = some a := by simpa using Array.find?_some hf
      rw [t.distinct j i a hj h]

/-- What the index does not find is not in the table. -/
theorem not_mem_of_find?_eq_none (t : Table α key) {a : α} (h : t.find? a = none) :
    a ∉ t.items := by
  intro hmem
  obtain ⟨i, hi⟩ := Array.mem_iff_getElem?.1 hmem
  rw [(t.find?_eq_some_iff a i).2 hi] at h
  cases h

/-- The number of an item, which is added if it is new. -/
def intern (t : Table α key) (a : α) : Nat × Table α key :=
  match h : t.find? a with
  | some i => (i, t)
  | none => (t.size, t.add a (t.not_mem_of_find?_eq_none h))

end Lookup

end Table

end PointsTo
