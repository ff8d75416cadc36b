import PointsTo.Proofs.Program.Alike
import Mathlib.Data.List.Perm.Subperm
import Mathlib.Logic.Relation

/-! # Ancestors

The searches among the parents of classes find exactly the classes that paths of links lead to: their
bounds leave a step for each link. In an acyclic hierarchy every step to a parent leaves fewer ancestors,
so chains of superclasses end, and they end at the root if no other class is without a parent.
-/

namespace PointsTo

open Relation (ReflTransGen TransGen)

/-! ## Searches -/

section Search

variable {α : Type} [DecidableEq α] {next : α → List α} {fuel : Nat} {unseen todo : List α} {a b : α}

/-- All that a search finds is on a path from what it starts with. -/
theorem path_of_mem_reach (h : a ∈ reach next fuel unseen todo) :
    ∃ r ∈ todo, ReflTransGen (fun x y => y ∈ next x) r a := by
  induction fuel generalizing unseen todo with
  | zero => cases h
  | succ fuel ih =>
      cases todo with
      | nil => cases h
      | cons x todo =>
          rw [reach] at h
          split at h
          · rcases List.mem_cons.1 h with rfl | h
            · exact ⟨a, by simp, .refl⟩
            · obtain ⟨r, hr, hpath⟩ := ih h
              rcases List.mem_append.1 hr with hr | hr
              · exact ⟨x, by simp, hpath.head hr⟩
              · exact ⟨r, List.mem_cons_of_mem _ hr, hpath⟩
          · obtain ⟨r, hr, hpath⟩ := ih h
            exact ⟨r, List.mem_cons_of_mem _ hr, hpath⟩

/-- Steps that suffice: one for each member that is left to do, and one for each successor of a member
that was not seen yet. -/
def reachBound (next : α → List α) (unseen todo : List α) : Nat :=
  todo.length + (unseen.flatMap next).length

omit [DecidableEq α] in
/-- A member that is left to do takes one more step. -/
theorem reachBound_cons (x : α) : reachBound next unseen (x :: todo) =
    reachBound next unseen todo + 1 := by
  rw [reachBound, reachBound, List.length_cons]
  omega

/-- The successors of a member are paid for when it is seen. -/
theorem reachBound_erase (ha : a ∈ unseen) :
    reachBound next (unseen.erase a) (next a ++ todo) = reachBound next unseen todo := by
  have hlength := ((List.perm_cons_erase ha).flatMap_right next).length_eq
  rw [List.flatMap_cons, List.length_append] at hlength
  rw [reachBound, reachBound, List.length_append, hlength]
  omega

/-- A search with enough steps finds what is left to do. -/
theorem mem_reach_of_mem_todo (hfuel : reachBound next unseen todo ≤ fuel) (ha : a ∈ todo)
    (hunseen : a ∈ unseen) : a ∈ reach next fuel unseen todo := by
  induction fuel generalizing unseen todo with
  | zero =>
      rw [reachBound] at hfuel
      have hlength := List.length_pos_of_mem ha
      omega
  | succ fuel ih =>
      cases todo with
      | nil => cases ha
      | cons x todo =>
          rw [reachBound_cons] at hfuel
          rw [reach]
          split
          · rename_i hx
            -- the member is the next one, or stays to do while the search goes on with one step less
            by_cases hax : a = x
            · exact hax ▸ List.mem_cons_self ..
            · refine List.mem_cons_of_mem _ (ih ?_ ?_ ((List.mem_erase_of_ne hax).2 hunseen))
              · rw [reachBound_erase hx]
                omega
              · exact List.mem_append_right _ (List.mem_of_ne_of_mem hax ha)
          · rename_i hx
            refine ih (by omega) (List.mem_of_ne_of_mem ?_ ha) hunseen
            rintro rfl
            exact hx hunseen

/-- A search with enough steps finds the successors of what it finds. -/
theorem mem_reach_of_mem_next (hfuel : reachBound next unseen todo ≤ fuel)
    (ha : a ∈ reach next fuel unseen todo) (hb : b ∈ next a) (hunseen : b ∈ unseen) :
    b ∈ reach next fuel unseen todo := by
  induction fuel generalizing unseen todo with
  | zero => cases ha
  | succ fuel ih =>
      cases todo with
      | nil => cases ha
      | cons x todo =>
          rw [reachBound_cons] at hfuel
          rw [reach] at ha ⊢
          split
          · rename_i hx
            rw [if_pos hx] at ha
            have hrest : reachBound next (unseen.erase x) (next x ++ todo) ≤ fuel := by
              rw [reachBound_erase hx]
              omega
            -- a successor is the member itself, is put in front of the queue, or is found by the rest
            -- of the search
            by_cases hbx : b = x
            · exact hbx ▸ List.mem_cons_self ..
            · have hb' : b ∈ unseen.erase x := (List.mem_erase_of_ne hbx).2 hunseen
              apply List.mem_cons_of_mem
              rcases List.mem_cons.1 ha with rfl | ha
              · exact mem_reach_of_mem_todo hrest (List.mem_append_left _ hb) hb'
              · exact ih hrest ha hb'
          · rename_i hx
            rw [if_neg hx] at ha
            exact ih (by omega) ha hunseen

/-- A search with enough steps among all members finds what paths lead to. -/
theorem mem_reach_iff (hclosed : ∀ x ∈ unseen, ∀ y ∈ next x, y ∈ unseen)
    (htodo : ∀ x ∈ todo, x ∈ unseen) (hfuel : reachBound next unseen todo ≤ fuel) :
    a ∈ reach next fuel unseen todo ↔ ∃ r ∈ todo, ReflTransGen (fun x y => y ∈ next x) r a := by
  constructor
  · exact path_of_mem_reach
  · rintro ⟨r, hr, hpath⟩
    suffices hboth : a ∈ unseen ∧ a ∈ reach next fuel unseen todo from hboth.2
    induction hpath with
    | refl => exact ⟨htodo r hr, mem_reach_of_mem_todo hfuel hr (htodo r hr)⟩
    | tail _ hnext ih =>
        have hmem := hclosed _ ih.1 _ hnext
        exact ⟨hmem, mem_reach_of_mem_next hfuel ih.2 hnext hmem⟩

/-- Links are counted at one of their ends. -/
theorem length_flatMap_filter_le {ι κ : Type} [DecidableEq κ] {ids : List κ} (hids : ids.Nodup)
    (f : ι → κ) (links : List ι) :
    (ids.flatMap fun c => links.filter (f · = c)).length ≤ links.length := by
  induction ids generalizing links with
  | nil => exact Nat.zero_le _
  | cons c ids ih =>
      obtain ⟨hc, hids⟩ := List.nodup_cons.1 hids
      have hrest := ih hids (links.filter fun l => !decide (f l = c))
      have hsplit := List.length_eq_length_filter_add (l := links) fun l => decide (f l = c)
      -- the links of the other ends are among the rest
      have hkeep : (ids.flatMap fun d => (links.filter fun l => !decide (f l = c)).filter
          (f · = d)) = ids.flatMap fun d => links.filter (f · = d) := by
        refine List.flatMap_congr fun d hd => ?_
        rw [List.filter_filter]
        refine List.filter_congr fun l _ => ?_
        by_cases hl : f l = d
        · have hne : d ≠ c := fun heq => hc (heq ▸ hd)
          simp [hl, hne]
        · simp [hl]
      rw [hkeep] at hrest
      rw [List.flatMap_cons, List.length_append]
      omega

end Search

namespace Program

variable {p : Program} {c d : ClassId}

/-! ## Ancestors of a class -/

/-- The second class is the first one or an ancestor of it. -/
def Inherits (p : Program) : ClassId → ClassId → Prop :=
  ReflTransGen fun c d => d ∈ p.parents c

/-- No class is its own proper ancestor. -/
def Acyclic (p : Program) : Prop :=
  ∀ c, ¬TransGen (fun c d => d ∈ p.parents c) c c

theorem mem_parents : d ∈ p.parents c ↔ ∃ l ∈ p.links, l.child = c ∧ l.parent = d := by
  simp [parents, linksOf, and_assoc]

/-- A superclass is a parent. -/
theorem superclass?_mem_parents (h : p.superclass? c = some d) : d ∈ p.parents c := by
  obtain ⟨l, hl, rfl⟩ := Option.map_eq_some_iff.1 h
  have hkind := List.find?_some hl
  rw [decide_eq_true_eq] at hkind
  exact mem_parents.2 ⟨l, Array.mem_toList_iff.1 (List.mem_of_find?_eq_some hl), hkind.1, rfl⟩

/-- A class without a parent has no superclass. -/
theorem superclass?_eq_none_of_parents (h : p.parents c = []) : p.superclass? c = none := by
  cases hd : p.superclass? c with
  | none => rfl
  | some d =>
      have hmem := superclass?_mem_parents hd
      rw [h] at hmem
      cases hmem

theorem interfaces_subset_parents (h : d ∈ p.interfaces c) : d ∈ p.parents c := by
  rw [interfaces, List.mem_mergeSort] at h
  obtain ⟨l, hl, rfl⟩ := List.mem_map.1 h
  exact List.mem_map_of_mem (List.mem_filter.1 hl).1

/-- Superclasses are ancestors. -/
theorem inherits_of_mem_superclassesFrom {fuel : Nat} (h : d ∈ p.superclassesFrom fuel (some c)) :
    p.Inherits c d := by
  induction fuel generalizing c with
  | zero => cases h
  | succ fuel ih =>
      rw [superclassesFrom] at h
      rcases List.mem_cons.1 h with rfl | h
      · exact .refl
      · cases hsuper : p.superclass? c with
        | none =>
            rw [hsuper] at h
            cases fuel <;> cases h
        | some e =>
            rw [hsuper] at h
            exact (ih h).head (superclass?_mem_parents hsuper)

/-- A class inherits from the classes of its chain. -/
theorem inherits_of_mem_superclassChain (h : d ∈ p.superclassChain c) : p.Inherits c d :=
  inherits_of_mem_superclassesFrom h

/-- What a search among interfaces finds is above some class of the queue. -/
theorem inherits_of_mem_interfaceOrderFrom {fuel : Nat} {seen queue : List ClassId}
    (h : d ∈ p.interfaceOrderFrom fuel seen queue) : ∃ i ∈ queue, p.Inherits i d := by
  induction fuel generalizing seen queue with
  | zero => cases h
  | succ fuel ih =>
      cases queue with
      | nil => cases h
      | cons i queue =>
          rw [interfaceOrderFrom] at h
          split at h
          · obtain ⟨j, hj, hd⟩ := ih h
            exact ⟨j, List.mem_cons_of_mem _ hj, hd⟩
          · rcases List.mem_cons.1 h with rfl | h
            · exact ⟨d, by simp, .refl⟩
            · obtain ⟨j, hj, hd⟩ := ih h
              rcases List.mem_append.1 hj with hj | hj
              · exact ⟨j, List.mem_cons_of_mem _ hj, hd⟩
              · exact ⟨i, by simp, hd.head (interfaces_subset_parents hj)⟩

/-- Interfaces are ancestors. -/
theorem inherits_of_mem_interfaceOrder (h : d ∈ p.interfaceOrder c) : p.Inherits c d := by
  obtain ⟨i, hi, hd⟩ := inherits_of_mem_interfaceOrderFrom h
  obtain ⟨e, he, hi⟩ := List.mem_flatMap.1 hi
  exact ((inherits_of_mem_superclassChain he).tail (interfaces_subset_parents hi)).trans hd

/-- A method that is looked up is an acceptable one that an ancestor declares. -/
theorem inherits_of_lookup? {accept : Method → Bool} {s : Subsignature} {m : MethodId}
    (h : p.lookup? accept c s = some m) :
    ∃ d, p.Inherits c d ∧ p.declared? d s = some m ∧ accept (p.methodAt m) = true := by
  have hfound {l : List ClassId} (hl : ∀ d ∈ l, p.Inherits c d)
      (hm : (l.findSome? fun d => (p.declared? d s).filter fun m => accept (p.methodAt m)) =
        some m) : ∃ d, p.Inherits c d ∧ p.declared? d s = some m ∧ accept (p.methodAt m) = true := by
    obtain ⟨d, hd, hdm⟩ := List.exists_of_findSome?_eq_some hm
    obtain ⟨hdeclared, haccept⟩ := Option.filter_eq_some_iff.1 hdm
    exact ⟨d, hl d hd, hdeclared, haccept⟩
  rw [lookup?, Option.orElse_eq_orElse, Option.orElse_eq_or, Option.or_eq_some_iff] at h
  rcases h with h | ⟨-, h⟩
  · exact hfound (fun d => inherits_of_mem_superclassChain) h
  · exact hfound (fun d => inherits_of_mem_interfaceOrder) h

/-! ## Searches among ancestors -/

section Ranged

variable (hlinks : ∀ l ∈ p.links, l.child.idx < p.classes.size ∧ l.parent.idx < p.classes.size)

theorem nodup_classIds (p : Program) : p.classIds.Nodup :=
  List.Nodup.map (fun _ _ h => congrArg ClassId.idx h) List.nodup_range

/-- Searches that follow links from one end to the other need a step for each link. -/
theorem reachBound_links_le (p : Program) (f g : Link → ClassId) (todo : List ClassId) :
    reachBound (fun c => (p.links.toList.filter (f · = c)).map g) p.classIds todo ≤
      todo.length + p.links.size := by
  have hlength := length_flatMap_filter_le p.nodup_classIds f p.links.toList
  rw [Array.length_toList] at hlength
  rw [reachBound, ← List.map_flatMap, List.length_map]
  exact Nat.add_le_add_left hlength _

/-- Links suffice as steps of a search among ancestors. -/
theorem reachBound_le (p : Program) (todo : List ClassId) :
    reachBound p.parents p.classIds todo ≤ todo.length + p.links.size :=
  p.reachBound_links_le (·.child) (·.parent) todo

/-- A search from a class finds the classes that paths lead to. -/
theorem mem_classSet_reach_iff {next : ClassId → List ClassId}
    (hnext : ∀ c, ∀ d ∈ next c, d ∈ p.classIds)
    (hbound : ∀ todo, reachBound next p.classIds todo ≤ todo.length + p.links.size)
    (hc : c ∈ p.classIds) : d ∈ p.classSet (reach next p.searchBound p.classIds [c]) ↔
      ReflTransGen (fun x y => y ∈ next x) c d := by
  have hfuel : reachBound next p.classIds [c] ≤ p.searchBound := by
    have hle := hbound [c]
    rw [List.length_singleton] at hle
    rw [searchBound]
    omega
  have hreach := mem_reach_iff (a := d) (fun x _ => hnext x) (by simpa using hc) hfuel
  rw [classSet, List.mem_filter, decide_eq_true_eq, hreach]
  simp only [List.mem_singleton, exists_eq_left, and_iff_right_iff_imp]
  intro hpath
  induction hpath with
  | refl => exact hc
  | tail _ hd _ => exact hnext _ _ hd

include hlinks

theorem parents_mem_classIds (h : d ∈ p.parents c) : d ∈ p.classIds := by
  obtain ⟨l, hl, -, rfl⟩ := mem_parents.1 h
  exact mem_classIds.2 (hlinks l hl).2

/-- Ancestors are classes of the table. -/
theorem Inherits.lt (h : p.Inherits c d) (hc : c.idx < p.classes.size) : d.idx < p.classes.size := by
  induction h with
  | refl => exact hc
  | tail _ hd _ =>
      obtain ⟨l, hl, -, rfl⟩ := mem_parents.1 hd
      exact (hlinks l hl).2

/-- The ancestors that are found are those on paths of links. -/
theorem mem_allParents_iff (hc : c.idx < p.classes.size) : d ∈ p.allParents c ↔ p.Inherits c d :=
  mem_classSet_reach_iff (fun _ _ => parents_mem_classIds hlinks) p.reachBound_le (mem_classIds.2 hc)

/-- A class is on a cycle if a path leads back to it. -/
theorem isOnCycle_iff : p.isOnCycle c = true ↔ TransGen (fun c d => d ∈ p.parents c) c c := by
  have hbound : reachBound p.parents p.classIds (p.parents c) ≤ p.searchBound := by
    have hle := reachBound_le p (p.parents c)
    have hlength : (p.parents c).length ≤ p.links.size := by
      rw [parents, List.length_map, linksOf]
      simpa using List.length_filter_le (fun l : Link => decide (l.child = c)) p.links.toList
    rw [searchBound]
    omega
  rw [isOnCycle, decide_eq_true_eq, mem_reach_iff (fun _ _ _ hy => parents_mem_classIds hlinks hy)
    (fun _ hd => parents_mem_classIds hlinks hd) hbound, TransGen.head'_iff]

/-- The test for cycles finds any. -/
theorem isCyclic_eq_false_iff : p.isCyclic = false ↔ p.Acyclic := by
  rw [isCyclic, List.any_eq_false]
  constructor
  · intro h c hcycle
    obtain ⟨d, hd, -⟩ := TransGen.head'_iff.1 hcycle
    obtain ⟨l, hl, rfl, -⟩ := mem_parents.1 hd
    exact h l.child (mem_classIds.2 (hlinks l hl).1) ((isOnCycle_iff hlinks).2 hcycle)
  · exact fun h c _ hcycle => h c ((isOnCycle_iff hlinks).1 hcycle)

/-! ## Acyclic hierarchies -/

variable (hacyclic : p.Acyclic)

include hacyclic

/-- A parent has fewer ancestors. -/
theorem length_allParents_lt (hc : c.idx < p.classes.size) (hd : d ∈ p.parents c) :
    (p.allParents d).length < (p.allParents c).length := by
  have hlt : d.idx < p.classes.size := Inherits.lt hlinks (.single hd) hc
  have hsubset : ∀ e ∈ p.allParents d, e ∈ p.allParents c := by
    intro e he
    rw [mem_allParents_iff hlinks hlt] at he
    rw [mem_allParents_iff hlinks hc]
    exact .head hd he
  have hnodup : (c :: p.allParents d).Nodup := by
    refine List.nodup_cons.2 ⟨fun hmem => ?_, p.nodup_classIds.filter _⟩
    rw [mem_allParents_iff hlinks hlt] at hmem
    exact hacyclic c (.head' hd hmem)
  refine Nat.lt_of_succ_le ?_
  have hself : c ∈ p.allParents c := (mem_allParents_iff hlinks hc).2 .refl
  exact (List.subperm_of_subset hnodup (List.cons_subset.2 ⟨hself, hsubset⟩)).length_le

/-- Statements about classes are proved from parents to children. -/
theorem Acyclic.induction {P : ClassId → Prop}
    (h : ∀ c, c.idx < p.classes.size → (∀ d ∈ p.parents c, P d) → P c) (hc : c.idx < p.classes.size) :
    P c := by
  generalize hn : (p.allParents c).length = n
  induction n using Nat.strongRecOn generalizing c with
  | _ n ih =>
      refine h c hc fun d hd => ?_
      have hless := length_allParents_lt hlinks hacyclic hc hd
      exact ih _ (hn ▸ hless) (Inherits.lt hlinks (.single hd) hc) rfl

/-- A chain of superclasses has ended once it has as many steps as there are ancestors. -/
theorem superclassesFrom_eq {n k : Nat} (hc : c.idx < p.classes.size)
    (hn : (p.allParents c).length ≤ n) (hk : (p.allParents c).length ≤ k) :
    p.superclassesFrom n (some c) = p.superclassesFrom k (some c) := by
  have hself : c ∈ p.allParents c := (mem_allParents_iff hlinks hc).2 .refl
  have hpos := List.length_pos_of_mem hself
  -- each superclass has fewer ancestors, so both numbers of steps go down with them
  induction n generalizing c k with
  | zero => omega
  | succ n ih =>
      cases k with
      | zero => omega
      | succ k =>
          rw [superclassesFrom, superclassesFrom]
          cases hd : p.superclass? c with
          | none => cases n <;> cases k <;> rfl
          | some d =>
              have hparent := superclass?_mem_parents hd
              have hless := length_allParents_lt hlinks hacyclic hc hparent
              have hlt := Inherits.lt hlinks (.single hparent) hc
              have hmem : d ∈ p.allParents d := (mem_allParents_iff hlinks hlt).2 .refl
              rw [ih (k := k) hlt (by omega) (by omega) hmem (List.length_pos_of_mem hmem)]

/-- The chain of superclasses of a class goes on with that of its superclass. -/
theorem superclassChain_eq (hc : c.idx < p.classes.size) : p.superclassChain c =
    c :: (p.superclass? c).elim [] p.superclassChain := by
  have hle (e : ClassId) : (p.allParents e).length ≤ p.classes.size := by
    refine Nat.le_trans (List.length_filter_le _ _) ?_
    simp [classIds]
  have hstep : p.superclassChain c = p.superclassesFrom (p.classes.size + 1) (some c) :=
    superclassesFrom_eq hlinks hacyclic hc (hle c) (Nat.le_succ_of_le (hle c))
  rw [hstep, superclassesFrom]
  cases p.superclass? c with
  | none => cases p.classes.size <;> rfl
  | some d => rfl

/-- If only the root has no parent, then every class inherits from it. -/
theorem Acyclic.inherits_root {root : ClassId}
    (hroot : ∀ c, c.idx < p.classes.size → c ≠ root → p.parents c ≠ [])
    (hc : c.idx < p.classes.size) : p.Inherits c root := by
  refine Acyclic.induction hlinks hacyclic (P := fun c => p.Inherits c root) (fun c hc ih => ?_) hc
  by_cases heq : c = root
  · exact heq ▸ .refl
  · obtain ⟨d, hd⟩ := List.exists_mem_of_ne_nil _ (hroot c hc heq)
    exact .head hd (ih d hd)

end Ranged

end Program

end PointsTo
