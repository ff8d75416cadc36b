import Mathlib.Algebra.Order.BigOperators.Group.List
import Mathlib.Algebra.Order.Group.Nat
import PointsTo.Proofs.Program.Consistency

/-! # What a dispatched call reaches

The nearest class on the chain of superclasses that has a method for the call comes first, then the first
such interface in breadth-first order. That order is level by level: the interfaces of the classes on the
chain, then those that these extend, and so on. The search keeps a queue and the interfaces that it has
seen, and looks at each one once. It comes to the same result, because an interface that is met again
brings nothing that was not met on the same level or on a lower one; and the levels end, because the
hierarchy is acyclic.
-/

namespace PointsTo

/-! ## Levels of a graph -/

section Levels

variable {α : Type} (next : α → List α)

/-- Where paths of the given length lead to, with repetitions. -/
def level (q : List α) : Nat → List α
  | 0 => q
  | n + 1 => (level q n).flatMap next

/-- The first levels, one after the other. -/
def levels (n : Nat) (q : List α) : List α := (List.range n).flatMap (level next q)

/-- The members of a list that were not seen before, each once, at its first place. -/
def fresh [DecidableEq α] : (seen l : List α) → List α
  | _, [] => []
  | seen, a :: l => if a ∈ seen then fresh seen l else a :: fresh (a :: seen) l

/-- The successors of all that was seen were seen, too, or are in the queue. -/
def Explored (seen queue : List α) : Prop := ∀ a ∈ seen, ∀ b ∈ next a, b ∈ seen ∨ b ∈ queue

variable {next} {q r l l' seen seen' : List α} {a : α} {n : Nat}

/-- The first of a queue may be left out if it was seen. -/
theorem Explored.skip (h : Explored next seen (a :: q)) (ha : a ∈ seen) : Explored next seen q := by
  intro c hc b hb
  rcases h c hc b hb with hb | hb
  · exact Or.inl hb
  · rcases List.mem_cons.1 hb with rfl | hb
    · exact Or.inl ha
    · exact Or.inr hb

/-- The first of a queue is seen when its successors are put at the end. -/
theorem Explored.visit (h : Explored next seen (a :: q)) : Explored next (a :: seen) (q ++ next a) := by
  intro c hc b hb
  rw [List.mem_cons, List.mem_append]
  rcases List.mem_cons.1 hc with rfl | hc
  · exact Or.inr (Or.inr hb)
  · rcases h c hc b hb with hb | hb
    · exact Or.inl (Or.inr hb)
    · rcases List.mem_cons.1 hb with rfl | hb
      · exact Or.inl (Or.inl rfl)
      · exact Or.inr (Or.inl hb)

theorem level_nil (n : Nat) : level next [] n = [] := by
  induction n with
  | zero => rfl
  | succ n ih => rw [level, ih, List.flatMap_nil]

/-- Levels above two lists are levels above each of them. -/
theorem level_append (q r : List α) (n : Nat) :
    level next (q ++ r) n = level next q n ++ level next r n := by
  induction n with
  | zero => rfl
  | succ n ih => rw [level, ih, List.flatMap_append, level, level]

/-- Nothing is above a list if nothing is above its members. -/
theorem level_eq_nil (h : ∀ a ∈ q, level next [a] n = []) : level next q n = [] := by
  induction q with
  | nil => exact level_nil n
  | cons a q ih =>
      rw [← List.singleton_append, level_append, h a (by simp),
        ih fun b hb => h b (List.mem_cons_of_mem _ hb)]
      rfl

/-- The levels from the successors are those from the members, without the first one. -/
theorem level_flatMap (q : List α) (n : Nat) : level next (q.flatMap next) n = level next q (n + 1) := by
  induction n with
  | zero => rfl
  | succ n ih => rw [level, ih, level, level, level]

/-- A member of the levels is on one of them. -/
theorem mem_levels : a ∈ levels next n q ↔ ∃ k, k < n ∧ a ∈ level next q k := by
  simp only [levels, List.mem_flatMap, List.mem_range]

/-- Two interleaved sequences of lists may be cut one place later. -/
theorem append_flatMap_range (f g : Nat → List α) (n : Nat) :
    f 0 ++ (List.range n).flatMap (fun k => g k ++ f (k + 1)) =
      (List.range n).flatMap (fun k => f k ++ g k) ++ f n := by
  induction n with
  | zero => simp
  | succ n ih =>
      rw [List.range_succ, List.flatMap_append, List.flatMap_append, ← List.append_assoc, ih]
      simp

/-- A queue goes through its levels: the successors of the first member come after the other members. -/
theorem levels_cons (hend : level next [a] n = []) :
    levels next n (a :: q) = a :: levels next n (q ++ next a) := by
  have hnext (k : Nat) : level next (next a) k = level next [a] (k + 1) := by
    rw [← level_flatMap, List.flatMap_singleton]
  have hcut := append_flatMap_range (level next [a]) (level next q) n
  rw [hend, List.append_nil] at hcut
  rw [levels, levels, ← List.singleton_append, funext (level_append [a] q),
    funext (level_append q (next a)), funext hnext]
  exact hcut.symm

section Fresh

variable [DecidableEq α]

/-- What is fresh depends on which members were seen, and not on their order. -/
theorem fresh_congr (h : ∀ a, a ∈ seen ↔ a ∈ seen') (l : List α) : fresh seen l = fresh seen' l := by
  induction l generalizing seen seen' with
  | nil => rfl
  | cons a l ih =>
      have hcons (b : α) : b ∈ a :: seen ↔ b ∈ a :: seen' := by rw [List.mem_cons, List.mem_cons, h b]
      rw [fresh, fresh, ih h, ih hcons]
      simp only [h a]

/-- What is fresh in the second part was not in the first part either. -/
theorem fresh_append (seen l l' : List α) :
    fresh seen (l ++ l') = fresh seen l ++ fresh (l ++ seen) l' := by
  induction l generalizing seen with
  | nil => rfl
  | cons a l ih =>
      rw [List.cons_append, fresh, fresh]
      split
      · rename_i ha
        rw [ih]
        refine congrArg _ (fresh_congr (fun b => ?_) l')
        simp only [List.cons_append, List.mem_cons, List.mem_append]
        refine ⟨Or.inr, fun hb => hb.elim (fun hb => ?_) id⟩
        exact Or.inr (hb ▸ ha)
      · rw [ih, List.cons_append]
        refine congrArg (a :: fresh (a :: seen) l ++ ·) (fresh_congr (fun b => ?_) l')
        simp only [List.cons_append, List.mem_cons, List.mem_append]
        tauto

/-- Nothing is fresh if all was seen. -/
theorem fresh_eq_nil (h : ∀ a ∈ l, a ∈ seen) : fresh seen l = [] := by
  induction l with
  | nil => rfl
  | cons a l ih =>
      rw [fresh, if_pos (h a (by simp))]
      exact ih fun b hb => h b (List.mem_cons_of_mem _ hb)

/-- Members that were seen, or are on the same level or on a lower one, add nothing. -/
theorem fresh_flatMap_range {f g : Nat → List α}
    (h : ∀ n, ∀ a ∈ g n, a ∈ seen ∨ ∃ k, k ≤ n ∧ a ∈ f k) (n : Nat) :
    fresh seen ((List.range n).flatMap fun k => f k ++ g k) =
      fresh seen ((List.range n).flatMap f) := by
  -- With the first levels alone or with the second ones beside them, the same has been seen.
  have hmem (n : Nat) (a : α) : a ∈ ((List.range n).flatMap fun k => f k ++ g k) ++ seen ↔
      a ∈ (List.range n).flatMap f ++ seen := by
    simp only [List.mem_append, List.mem_flatMap, List.mem_range]
    constructor
    · rintro (⟨k, hk, ha | ha⟩ | ha)
      · exact Or.inl ⟨k, hk, ha⟩
      · rcases h k a ha with ha | ⟨j, hj, ha⟩
        · exact Or.inr ha
        · exact Or.inl ⟨j, by omega, ha⟩
      · exact Or.inr ha
    · rintro (⟨k, hk, ha⟩ | ha)
      · exact Or.inl ⟨k, hk, Or.inl ha⟩
      · exact Or.inr ha
  induction n with
  | zero => rfl
  | succ n ih =>
      -- The last of the second levels has nothing that was not seen by then.
      have hnil : fresh (f n ++ ((List.range n).flatMap f ++ seen)) (g n) = [] := by
        refine fresh_eq_nil fun a ha => ?_
        rw [List.mem_append, List.mem_append, List.mem_flatMap]
        rcases h n a ha with hseen | ⟨k, hk, hf⟩
        · exact Or.inr (Or.inr hseen)
        · rcases Nat.lt_or_eq_of_le hk with hk | rfl
          · exact Or.inr (Or.inl ⟨k, List.mem_range.2 hk, hf⟩)
          · exact Or.inl hf
      rw [List.range_succ, List.flatMap_append, List.flatMap_append, List.flatMap_singleton,
        List.flatMap_singleton, fresh_append, ih, fresh_congr (hmem n), fresh_append, fresh_append, hnil,
        List.append_nil]

/-- Members that were seen bring no level anything new, if their successors are seen or queued. -/
theorem fresh_levels_append {x : α} (hx : x ∈ seen) (hseen : Explored next seen q) (n : Nat) :
    fresh seen (levels next n (q ++ next x)) = fresh seen (levels next n q) := by
  have hlevel (n : Nat) : ∀ a ∈ level next (next x) n, a ∈ seen ∨ ∃ k, k ≤ n ∧ a ∈ level next q k := by
    induction n with
    -- by induction on the number of levels; whatever `g` has on the last level is on a level of `f`
    -- already
    | zero => exact fun a ha => (hseen x hx a ha).imp id fun ha => ⟨0, Nat.le_refl 0, ha⟩
    | succ n ih =>
        intro b hb
        obtain ⟨a, ha, hb⟩ := List.mem_flatMap.1 hb
        rcases ih a ha with ha | ⟨k, hk, ha⟩
        · exact (hseen a ha b hb).imp id fun hb => ⟨0, Nat.zero_le _, hb⟩
        · exact Or.inr ⟨k + 1, Nat.succ_le_succ hk, List.mem_flatMap.2 ⟨a, ha, hb⟩⟩
  rw [levels, levels, funext (level_append q (next x))]
  exact fresh_flatMap_range hlevel n

/-- A search finds the same among the members that were not seen, if there is nothing to be found among
those that were. -/
theorem findSome?_fresh {β : Type} {f : α → Option β} (hseen : ∀ a ∈ seen, f a = none) (l : List α) :
    (fresh seen l).findSome? f = l.findSome? f := by
  induction l generalizing seen with
  | nil => rfl
  | cons a l ih =>
      rw [fresh, List.findSome?_cons]
      split
      · rename_i ha
        rw [hseen a ha]
        exact ih hseen
      · rw [List.findSome?_cons]
        cases hfa : f a with
        | some b => rfl
        | none => exact ih (List.forall_mem_cons.2 ⟨hfa, hseen⟩)

end Fresh

/-- What is found on the levels is found on the first one that has it, at its first place there. -/
theorem findSome?_levels_eq_some_iff {β : Type} {f : α → Option β} {b : β} :
    (levels next n q).findSome? f = some b ↔ ∃ k, k < n ∧ (level next q k).findSome? f = some b ∧
      ∀ j, j < k → ∀ a ∈ level next q j, f a = none := by
  have hlevel (n : Nat) : (levels next n q).findSome? f = none ↔
      ∀ j, j < n → ∀ a ∈ level next q j, f a = none := by
    rw [List.findSome?_eq_none_iff]
    exact ⟨fun h j hj a ha => h a (mem_levels.2 ⟨j, hj, ha⟩), fun h a ha => by
      obtain ⟨j, hj, ha⟩ := mem_levels.1 ha
      exact h j hj a ha⟩
  induction n with
  | zero => simp [levels]
  | succ n ih =>
      -- One more level is searched behind the others, and only if these have nothing.
      have hsucc : levels next (n + 1) q = levels next n q ++ level next q n := by
        simp [levels, List.range_succ]
      simp only [hsucc, List.findSome?_append, Option.or_eq_some_iff, ih, hlevel]
      constructor
      · rintro (⟨k, hk, hfound⟩ | ⟨hnone, hfound⟩)
        · exact ⟨k, Nat.lt_succ_of_lt hk, hfound⟩
        · exact ⟨n, Nat.lt_succ_self n, hfound, hnone⟩
      · rintro ⟨k, hk, hfound, hnone⟩
        rcases Nat.lt_or_eq_of_le (Nat.le_of_lt_succ hk) with hk | rfl
        · exact Or.inl ⟨k, hk, hfound, hnone⟩
        · exact Or.inr ⟨hnone, hfound⟩

end Levels

/-- A class is defined with one superclass at most. -/
theorem ProgramDef.extends_unique {d : ProgramDef} (hnames : (d.classes.map (·.name)).Nodup)
    {x y z : String} (hy : (y, .extends) ∈ d.links x) (hz : (z, .extends) ∈ d.links x) : y = z := by
  have hdeclared {y : String} (hy : (y, .extends) ∈ d.declaredLinks x) :
      ∃ c ∈ d.classes, c.name = x ∧ c.superclass = some y := by
    obtain ⟨c, hc, hy⟩ := List.mem_flatMap.1 hy
    obtain ⟨hmem, hname⟩ := List.mem_filter.1 hc
    exact ⟨c, hmem, of_decide_eq_true hname, by simpa [ClassDef.links] using hy⟩
  unfold links at hy hz
  split at hy
  · rename_i hadded
    rw [if_pos hadded] at hz
    simp only [List.mem_singleton, Prod.mk.injEq, and_true] at hy hz
    exact hy.trans hz.symm
  · rename_i hadded
    rw [if_neg hadded] at hz
    obtain ⟨c, hc, hname, hy⟩ := hdeclared hy
    obtain ⟨c', hc', hname', hz⟩ := hdeclared hz
    obtain rfl := List.inj_on_of_nodup_map hnames hc hc' (hname.trans hname'.symm)
    exact Option.some.inj (hy.symm.trans hz)

namespace Program

variable {p : Program} {c d : ClassId} {s : Subsignature}

/-! ## Chains of superclasses -/

/-- The list is the class, its superclass, the superclass of that one, and so on up. -/
inductive HasChain (p : Program) : ClassId → List ClassId → Prop where
  | top {c : ClassId} (h : p.superclass? c = none) : HasChain p c [c]
  | up {c d : ClassId} {l : List ClassId} (h : p.superclass? c = some d) (rest : HasChain p d l) :
      HasChain p c (c :: l)

/-- The superclass is the parent that a link of its kind leads to. -/
theorem superclass?_eq_some_iff {x : ProgramDef} (hp : (build x).1 = .ok p) :
    p.superclass? c = some d ↔ ⟨c, d, .extends⟩ ∈ p.links := by
  have h := (build_underway hp).realizes.toConnects
  rw [superclass?, Option.map_eq_some_iff]
  constructor
  · rintro ⟨⟨c', d', kind⟩, hfind, rfl⟩
    have hkind := List.find?_some hfind
    simp only [decide_eq_true_eq] at hkind
    obtain ⟨rfl, rfl⟩ := hkind
    exact Array.mem_toList_iff.1 (List.mem_of_find?_eq_some hfind)
  · intro hl
    have hmem := Array.mem_toList_iff.2 hl
    cases hfind : p.links.toList.find? fun l => l.child = c ∧ l.kind = .extends with
    | none => simpa using List.find?_eq_none.1 hfind _ hmem
    | some l =>
        refine ⟨l, rfl, ?_⟩
        have hkind := List.find?_some hfind
        simp only [decide_eq_true_eq] at hkind
        have hl' := List.mem_of_find?_eq_some hfind
        -- The link that was found and the given one are from the same class to a superclass.
        have hentry {l : Link} (hl : l ∈ p.links.toList) (hkind : l.child = c ∧ l.kind = .extends) :
            ((p.classAt l.parent).name, .extends) ∈ x.links (p.classAt c).name := by
          rw [← h.links, linksFrom, linkNames, List.mem_map]
          refine ⟨l, List.mem_filter.2 ⟨hl, ?_⟩, by rw [hkind.2]⟩
          rw [hkind.1, decide_eq_true_eq]
        have hname := ProgramDef.extends_unique (build_valid hp).classNames (hentry hl' hkind)
          (hentry hmem ⟨rfl, rfl⟩)
        exact h.layered.eq_of_name (h.layered.parent l (Array.mem_toList_iff.1 hl'))
          (h.layered.parent _ hl) hname

/-- Interfaces are the parents that links of their kind lead to, in the order of identifiers. -/
theorem mem_interfaces_iff : d ∈ p.interfaces c ↔ ⟨c, d, .implements⟩ ∈ p.links := by
  rw [interfaces, List.mem_mergeSort, List.mem_map, linksOf]
  constructor
  · rintro ⟨⟨c', d', kind⟩, hl, rfl⟩
    simp only [List.mem_filter, decide_eq_true_eq, Array.mem_toList_iff] at hl
    obtain ⟨⟨hl, rfl⟩, rfl⟩ := hl
    exact hl
  · intro hl
    exact ⟨⟨c, d, .implements⟩, by simpa [List.mem_filter] using hl, rfl⟩

/-- Interfaces are searched in the order of their identifiers. -/
theorem pairwise_interfaces (p : Program) (c : ClassId) :
    (p.interfaces c).Pairwise (·.idx ≤ ·.idx) := by
  have hsorted : (p.interfaces c).Pairwise fun a b => decide (a.idx ≤ b.idx) = true :=
    List.pairwise_mergeSort
      (fun a b c hab hbc => by simp only [decide_eq_true_eq] at *; omega)
      (fun a b => by simp only [Bool.or_eq_true, decide_eq_true_eq]; omega) _
  exact hsorted.imp of_decide_eq_true

/-! ## Breadth-first order -/

section Ranged

variable (hlinks : ∀ l ∈ p.links, l.child.idx < p.classes.size ∧ l.parent.idx < p.classes.size)
  (hacyclic : p.Acyclic)

/-- Links suffice as steps of a search among interfaces. -/
theorem reachBound_interfaces_le (p : Program) (todo : List ClassId) :
    reachBound p.interfaces p.classIds todo ≤ todo.length + p.links.size := by
  refine Nat.le_trans ?_ (p.reachBound_le todo)
  rw [reachBound, reachBound, List.length_flatMap, List.length_flatMap]
  refine Nat.add_le_add_left (List.sum_le_sum fun c _ => ?_) _
  rw [interfaces, List.length_mergeSort, List.length_map, parents, List.length_map]
  exact List.length_filter_le _ _

include hlinks

theorem interfaces_lt (hd : d ∈ p.interfaces c) : d.idx < p.classes.size :=
  (hlinks _ (mem_interfaces_iff.1 hd)).2

include hacyclic

/-- Above a class there are no more levels of interfaces than it has ancestors. -/
theorem level_interfaces_eq_nil {n : Nat} (hc : c.idx < p.classes.size)
    (hn : (p.allParents c).length ≤ n) : level p.interfaces [c] n = [] := by
  induction n generalizing c with
  | zero =>
      have hself := (mem_allParents_iff hlinks hc).2 .refl
      have hpos := List.length_pos_of_mem hself
      omega
  | succ n ih =>
      rw [← level_flatMap, List.flatMap_singleton]
      refine level_eq_nil fun d hd => ih (interfaces_lt hlinks hd) ?_
      have hless := length_allParents_lt hlinks hacyclic hc (interfaces_subset_parents hd)
      omega

/-- In an acyclic hierarchy, levels end with the number of classes. -/
theorem level_interfaces_eq_nil_of_size_le {n : Nat} (hn : p.classes.size ≤ n) {q : List ClassId}
    (hq : ∀ d ∈ q, d.idx < p.classes.size) : level p.interfaces q n = [] := by
  refine level_eq_nil fun d hd => level_interfaces_eq_nil hlinks hacyclic (hq d hd) ?_
  have hle : (p.allParents d).length ≤ p.classIds.length := List.length_filter_le _ _
  rw [classIds, List.length_map, List.length_range] at hle
  exact Nat.le_trans hle hn

/-- The search goes through the levels above its queue, and leaves out what it has seen. -/
theorem interfaceOrderFrom_eq {fuel : Nat} {seen queue unseen : List ClassId}
    (hfuel : reachBound p.interfaces unseen queue ≤ fuel)
    (hunseen : ∀ i : ClassId, i.idx < p.classes.size → i ∉ seen → i ∈ unseen)
    (hqueue : ∀ i ∈ queue, i.idx < p.classes.size) (hseen : Explored p.interfaces seen queue) :
    p.interfaceOrderFrom fuel seen queue = fresh seen (levels p.interfaces p.classes.size queue) := by
  have hdone (seen : List ClassId) : fresh seen (levels p.interfaces p.classes.size []) = [] := by
    refine fresh_eq_nil fun a ha => ?_
    obtain ⟨k, -, ha⟩ := mem_levels.1 ha
    rw [level_nil] at ha
    cases ha
  -- the queue is the last part of a level and the first part of the next one; what is appended behind
  -- it comes later
  induction fuel generalizing seen queue unseen with
  | zero =>
      obtain rfl : queue = [] := List.eq_nil_of_length_eq_zero (by rw [reachBound] at hfuel; omega)
      exact (hdone seen).symm
  | succ fuel ih =>
      cases queue with
      | nil => exact (hdone seen).symm
      | cons i queue =>
          have hi := hqueue i (by simp)
          have hrest : ∀ j ∈ queue, j.idx < p.classes.size :=
            fun j hj => hqueue j (List.mem_cons_of_mem _ hj)
          rw [reachBound_cons] at hfuel
          have hend : level p.interfaces [i] p.classes.size = [] :=
            level_interfaces_eq_nil_of_size_le hlinks hacyclic (Nat.le_refl _) (by simpa using hi)
          rw [interfaceOrderFrom, levels_cons hend, fresh]
          split
          · rename_i hmem
            rw [fresh_levels_append hmem (hseen.skip hmem)]
            exact ih (by omega) hunseen hrest (hseen.skip hmem)
          · rename_i hmem
            have hcost : reachBound p.interfaces (unseen.erase i) (p.interfaces i ++ queue) =
                reachBound p.interfaces unseen queue := reachBound_erase (hunseen i hi hmem)
            have hrest' : reachBound p.interfaces (unseen.erase i) (queue ++ p.interfaces i) ≤ fuel := by
              rw [reachBound, List.length_append] at hcost ⊢
              omega
            refine congrArg (i :: ·) (ih hrest' ?_ ?_ hseen.visit)
            · intro j hj hnot
              rw [List.mem_cons, not_or] at hnot
              exact (List.mem_erase_of_ne hnot.1).2 (hunseen j hj hnot.2)
            · intro j hj
              rcases List.mem_append.1 hj with hj | hj
              · exact hrest j hj
              · exact interfaces_lt hlinks hj

/-- The interfaces of a class are searched level by level. -/
theorem interfaceOrder_eq (c : ClassId) : p.interfaceOrder c =
    fresh [] (levels p.interfaces p.classes.size ((p.superclassChain c).flatMap p.interfaces)) := by
  have hfuel : reachBound p.interfaces p.classIds ((p.superclassChain c).flatMap p.interfaces) ≤
      ((p.superclassChain c).flatMap p.interfaces).length + p.searchBound := by
    have hle := p.reachBound_interfaces_le ((p.superclassChain c).flatMap p.interfaces)
    rw [searchBound]
    omega
  refine interfaceOrderFrom_eq hlinks hacyclic hfuel ?_ ?_ ?_
  · exact fun i hi _ => mem_classIds.2 hi
  · intro i hi
    obtain ⟨d, -, hi⟩ := List.mem_flatMap.1 hi
    exact interfaces_lt hlinks hi
  · exact fun i hi => absurd hi List.not_mem_nil

/-- A class has one chain of superclasses. -/
theorem hasChain_iff {l : List ClassId} (hc : c.idx < p.classes.size) :
    p.HasChain c l ↔ l = p.superclassChain c := by
  constructor
  · intro h
    induction h with
    | top h => rw [superclassChain_eq hlinks hacyclic hc, h]; rfl
    | up h _ ih =>
        have hd := Inherits.lt hlinks (.single (superclass?_mem_parents h)) hc
        rw [superclassChain_eq hlinks hacyclic hc, h, ih hd]
        rfl
  · rintro rfl
    refine Acyclic.induction hlinks hacyclic (P := fun c => p.HasChain c (p.superclassChain c))
      (fun c hc ih => ?_) hc
    rw [superclassChain_eq hlinks hacyclic hc]
    cases h : p.superclass? c with
    | none => exact .top h
    | some d => exact .up h (ih d (superclass?_mem_parents h))

end Ranged

/-! ## Dispatch -/

/-- The class declares the method, and calls with the subsignature can be dispatched to it. -/
structure Offers (p : Program) (c : ClassId) (s : Subsignature) (m : MethodId) : Prop where
  lt : m.idx < p.methods.size
  owner : (p.methodAt m).owner = c
  subsignature : (p.methodAt m).ref.subsignature = s
  implemented : (p.methodAt m).isAbstract = false
  nonstatic : (p.methodAt m).isStatic = false

/-- The class offers no method for the subsignature. -/
def Silent (p : Program) (s : Subsignature) (c : ClassId) : Prop := ∀ m, ¬p.Offers c s m

/-- Interfaces that the classes of a list have, then those that these extend, and so on, with
repetitions. -/
def interfaceLevel (p : Program) (l : List ClassId) (n : Nat) : List ClassId :=
  level p.interfaces (l.flatMap p.interfaces) n

/-- These are the levels above the list. -/
theorem interfaceLevel_eq (p : Program) (l : List ClassId) (n : Nat) :
    p.interfaceLevel l n = level p.interfaces l (n + 1) :=
  level_flatMap l n

/-- What a call with the subsignature reaches on an object of the class. -/
inductive DispatchesTo (p : Program) (c : ClassId) (s : Subsignature) : Option MethodId → Prop where
  /-- The nearest class of the chain that offers a method. -/
  | chain {before after : List ClassId} {d : ClassId} {m : MethodId}
      (chain : p.HasChain c (before ++ d :: after)) (nearer : ∀ e ∈ before, p.Silent s e)
      (offers : p.Offers d s m) : DispatchesTo p c s (some m)
  /-- The first interface that offers a method, on the first level that has one, if no class of the
  chain does. -/
  | interface {l before after : List ClassId} {n : Nat} {i : ClassId} {m : MethodId}
      (chain : p.HasChain c l) (classes : ∀ e ∈ l, p.Silent s e)
      (place : p.interfaceLevel l n = before ++ i :: after)
      (lower : ∀ k, k < n → ∀ j ∈ p.interfaceLevel l k, p.Silent s j)
      (earlier : ∀ j ∈ before, p.Silent s j) (offers : p.Offers i s m) : DispatchesTo p c s (some m)
  /-- Neither a class of the chain nor an interface on any level offers a method. -/
  | none {l : List ClassId} (chain : p.HasChain c l) (classes : ∀ e ∈ l, p.Silent s e)
      (interfaces : ∀ n, ∀ j ∈ p.interfaceLevel l n, p.Silent s j) : DispatchesTo p c s none

/-- The method that the class offers. -/
def offered? (p : Program) (s : Subsignature) (c : ClassId) : Option MethodId :=
  (p.declared? c s).filter fun m => isDispatchable (p.methodAt m)

/-- Superclasses are looked through first, and then interfaces. -/
theorem dispatch?_eq (p : Program) (c : ClassId) (s : Subsignature) : p.dispatch? c s =
    ((p.superclassChain c).findSome? (p.offered? s)).or
      ((p.interfaceOrder c).findSome? (p.offered? s)) := by
  rw [dispatch?, lookup?, Option.orElse_eq_orElse, Option.orElse_eq_or]
  rfl

/-- The method that a class offers is unique. -/
theorem offered?_eq_some_iff (h : p.Declared) {m : MethodId} :
    p.offered? s c = some m ↔ p.Offers c s m := by
  rw [offered?, Option.filter_eq_some_iff, h.method, isDispatchable, Bool.and_eq_true, Bool.not_eq_true',
    Bool.not_eq_true']
  constructor
  · rintro ⟨⟨hlt, howner, hsub⟩, habstract, hstatic⟩
    exact ⟨hlt, howner, hsub, habstract, hstatic⟩
  · intro h
    exact ⟨⟨h.lt, h.owner, h.subsignature⟩, h.implemented, h.nonstatic⟩

/-- A class that offers no method is silent. -/
theorem offered?_eq_none_iff (h : p.Declared) : p.offered? s c = none ↔ p.Silent s c := by
  rw [Option.eq_none_iff_forall_ne_some]
  exact forall_congr' fun m => not_congr (offered?_eq_some_iff h)

/-- Nothing is offered by classes that are all silent. -/
theorem findSome?_offered?_eq_none_iff (h : p.Declared) {l : List ClassId} :
    l.findSome? (p.offered? s) = none ↔ ∀ e ∈ l, p.Silent s e := by
  rw [List.findSome?_eq_none_iff]
  exact forall₂_congr fun e _ => offered?_eq_none_iff h

/-- A search finds what the first class that is not silent offers. -/
theorem findSome?_offered?_eq_some_iff (h : p.Declared) {l : List ClassId} {m : MethodId} :
    l.findSome? (p.offered? s) = some m ↔
      ∃ before i after, l = before ++ i :: after ∧ p.Offers i s m ∧ ∀ j ∈ before, p.Silent s j := by
  simp only [List.findSome?_eq_some_iff, offered?_eq_some_iff h, offered?_eq_none_iff h]

section Dispatches

variable (hlinks : ∀ l ∈ p.links, l.child.idx < p.classes.size ∧ l.parent.idx < p.classes.size)
  (hacyclic : p.Acyclic)

include hlinks hacyclic

/-- In an acyclic hierarchy, levels of interfaces end with the number of classes. -/
theorem interfaceLevel_eq_nil {l : List ClassId} {n : Nat} (hn : p.classes.size ≤ n) :
    p.interfaceLevel l n = [] := by
  refine level_interfaces_eq_nil_of_size_le hlinks hacyclic hn fun i hi => ?_
  obtain ⟨d, -, hi⟩ := List.mem_flatMap.1 hi
  exact interfaces_lt hlinks hi

/-- A search of the interfaces finds nothing if there is nothing on any level. -/
theorem findSome?_interfaceOrder_eq_none_iff {β : Type} {f : ClassId → Option β} :
    (p.interfaceOrder c).findSome? f = none ↔
      ∀ n, ∀ i ∈ p.interfaceLevel (p.superclassChain c) n, f i = none := by
  rw [interfaceOrder_eq hlinks hacyclic, findSome?_fresh (by simp), List.findSome?_eq_none_iff]
  constructor
  · intro h n i hi
    rcases Nat.lt_or_ge n p.classes.size with hn | hn
    · exact h i (mem_levels.2 ⟨n, hn, hi⟩)
    · rw [interfaceLevel_eq_nil hlinks hacyclic hn] at hi
      cases hi
  · intro h i hi
    obtain ⟨n, -, hi⟩ := mem_levels.1 hi
    exact h n i hi

/-- It finds what there is on the first level that has anything. -/
theorem findSome?_interfaceOrder_eq_some_iff {β : Type} {f : ClassId → Option β} {b : β} :
    (p.interfaceOrder c).findSome? f = some b ↔
      ∃ n, (p.interfaceLevel (p.superclassChain c) n).findSome? f = some b ∧
        ∀ k, k < n → ∀ i ∈ p.interfaceLevel (p.superclassChain c) k, f i = none := by
  rw [interfaceOrder_eq hlinks hacyclic, findSome?_fresh (by simp), findSome?_levels_eq_some_iff]
  constructor
  · rintro ⟨n, -, hfound⟩
    exact ⟨n, hfound⟩
  · rintro ⟨n, hfound, hlower⟩
    refine ⟨n, Nat.lt_of_not_le fun hn => ?_, hfound, hlower⟩
    rw [interfaceLevel_eq_nil hlinks hacyclic hn] at hfound
    cases hfound

variable (h : p.Declared) (hc : c.idx < p.classes.size)

include h hc

/-- A dispatched call reaches nothing but what is looked up for it. -/
theorem DispatchesTo.dispatch?_eq {r : Option MethodId} (hr : p.DispatchesTo c s r) :
    p.dispatch? c s = r := by
  rw [Program.dispatch?_eq]
  cases hr with
  | chain chain nearer offers =>
      rw [← (hasChain_iff hlinks hacyclic hc).1 chain,
        (findSome?_offered?_eq_some_iff h).2 ⟨_, _, _, rfl, offers, nearer⟩, Option.some_or]
  | interface chain classes place lower earlier offers =>
      obtain rfl := (hasChain_iff hlinks hacyclic hc).1 chain
      rw [(findSome?_offered?_eq_none_iff h).2 classes, Option.none_or,
        findSome?_interfaceOrder_eq_some_iff hlinks hacyclic]
      exact ⟨_, (findSome?_offered?_eq_some_iff h).2 ⟨_, _, _, place, offers, earlier⟩,
        fun k hk j hj => (offered?_eq_none_iff h).2 (lower k hk j hj)⟩
  | none chain classes interfaces =>
      obtain rfl := (hasChain_iff hlinks hacyclic hc).1 chain
      rw [(findSome?_offered?_eq_none_iff h).2 classes, Option.none_or,
        findSome?_interfaceOrder_eq_none_iff hlinks hacyclic]
      exact fun n j hj => (offered?_eq_none_iff h).2 (interfaces n j hj)

/-- A dispatched call reaches what is looked up for it. -/
theorem dispatchesTo_dispatch? : p.DispatchesTo c s (p.dispatch? c s) := by
  have hchain {l : List ClassId} := hasChain_iff hlinks hacyclic (l := l) hc
  rw [dispatch?_eq]
  -- The chain answers first, then the interfaces, and otherwise nothing does.
  cases hclasses : (p.superclassChain c).findSome? (p.offered? s) with
  | some m =>
      obtain ⟨before, d, after, hsplit, offers, nearer⟩ := (findSome?_offered?_eq_some_iff h).1 hclasses
      exact .chain (hchain.2 hsplit.symm) nearer offers
  | none =>
      have classes := (findSome?_offered?_eq_none_iff h).1 hclasses
      rw [Option.none_or]
      cases hinterfaces : (p.interfaceOrder c).findSome? (p.offered? s) with
      | some m =>
          obtain ⟨n, hfound, lower⟩ :=
            (findSome?_interfaceOrder_eq_some_iff hlinks hacyclic).1 hinterfaces
          obtain ⟨before, i, after, place, offers, earlier⟩ := (findSome?_offered?_eq_some_iff h).1 hfound
          exact .interface (hchain.2 rfl) classes place
            (fun k hk j hj => (offered?_eq_none_iff h).1 (lower k hk j hj)) earlier offers
      | none =>
          have silent := (findSome?_interfaceOrder_eq_none_iff hlinks hacyclic).1 hinterfaces
          exact .none (hchain.2 rfl) classes fun n j hj => (offered?_eq_none_iff h).1 (silent n j hj)

/-- A dispatched call reaches what is looked up for it, and nothing else. -/
theorem dispatchesTo_iff {r : Option MethodId} : p.DispatchesTo c s r ↔ p.dispatch? c s = r := by
  constructor
  · exact DispatchesTo.dispatch?_eq hlinks hacyclic h hc
  · rintro rfl
    exact dispatchesTo_dispatch? hlinks hacyclic h hc

end Dispatches

end Program

end PointsTo
