/-!
# Families with a default

A value for every natural number, of which only finitely many differ from the default. `get_update`
says what an update does to the view `get`.
-/

namespace PointsTo

/-- A value for every natural number; those beyond the stored ones are the default. -/
structure Family (α : Type) [Inhabited α] where
  stored : Array α

namespace Family

variable {α : Type} [Inhabited α]

def empty : Family α := ⟨#[]⟩

instance : Inhabited (Family α) := ⟨empty⟩

def get (m : Family α) (i : Nat) : α := m.stored.getD i default

def update (m : Family α) (i : Nat) (f : α → α) : Family α :=
  if i < m.stored.size then ⟨m.stored.modify i f⟩
  else ⟨(m.stored ++ Array.replicate (i - m.stored.size) default).push (f default)⟩

/-- Stores the default at the indices up to a size that are not stored yet. -/
def grow (m : Family α) (n : Nat) : Family α := ⟨m.stored ++ Array.replicate (n - m.stored.size) default⟩

@[simp] theorem get_empty (i : Nat) : (empty : Family α).get i = default := by
  simp [empty, get]

/-- An update changes one member, whether it is stored already or not. -/
theorem get_update (m : Family α) (i j : Nat) (f : α → α) :
    (m.update i f).get j = if j = i then f (m.get i) else m.get j := by
  unfold update
  split
  · rename_i hi
    simp only [get, Array.getD_eq_getD_getElem?, Array.getElem?_modify]
    by_cases h : i = j
    · subst h; simp [hi]
    · simp [h, Ne.symm h]
  · rename_i hi
    have hsize : m.stored.size + (i - m.stored.size) = i := by omega
    simp only [get, Array.getD_eq_getD_getElem?, Array.getElem?_push, Array.size_append,
      Array.size_replicate, hsize, Array.getElem?_append, Array.getElem?_replicate]
    by_cases h : j = i
    · subst h; simp [hi]
    · by_cases hj : j < m.stored.size
      · simp [h, hj]
      · by_cases hk : j - m.stored.size < i - m.stored.size <;> simp [h, hj, hk]

@[simp] theorem get_update_self (m : Family α) (i : Nat) (f : α → α) :
    (m.update i f).get i = f (m.get i) := by
  simp [get_update]

/-- What is not stored is the default. -/
theorem get_of_size_le (m : Family α) {i : Nat} (h : m.stored.size ≤ i) : m.get i = default := by
  rw [get, Array.getD_eq_getD_getElem?, Array.getElem?_eq_none h]
  rfl

theorem size_grow (m : Family α) (n : Nat) : (m.grow n).stored.size = max m.stored.size n := by
  rw [grow, Array.size_append, Array.size_replicate]
  omega

/-- Nothing is stored in addition if the index has its place. -/
theorem size_update_of_lt (m : Family α) {i : Nat} {f : α → α} (h : i < m.stored.size) :
    (m.update i f).stored.size = m.stored.size := by
  rw [update, if_pos h, Array.size_modify]

@[simp] theorem get_grow (m : Family α) (n i : Nat) : (m.grow n).get i = m.get i := by
  simp only [grow, get, Array.getD_eq_getD_getElem?, Array.getElem?_append, Array.getElem?_replicate]
  split
  · rfl
  · rw [Array.getElem?_eq_none (by omega)]
    split <;> rfl

end Family

end PointsTo
