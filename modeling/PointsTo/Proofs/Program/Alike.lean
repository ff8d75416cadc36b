import PointsTo.Proofs.Program.Construction
import Mathlib.Data.List.Forall2
import Mathlib.Data.List.Nodup

/-! # Programs that differ in the numbers of phantom classes

Defined classes are numbered before the classes that are only referenced, and the latter have no members
and no parents but the root. Two programs are alike if they agree in all but the numbers of these phantom
classes: classes are matched by their names. Nothing that is looked up depends on the numbers, because
the order in which classes are searched is the same up to phantom classes.
-/

namespace PointsTo

/-! ## Lists -/

section Lists

variable {α β γ : Type}

/-- Two lists with the same images are related element by element, if elements with the same image are.
-/
theorem forall₂_of_map_eq {f : α → γ} {g : β → γ} {R : α → β → Prop} {l : List α} {l' : List β}
    (h : l'.map g = l.map f) (hR : ∀ a ∈ l, ∀ b ∈ l', g b = f a → R a b) : List.Forall₂ R l l' := by
  induction l generalizing l' with
  | nil =>
      rw [List.map_eq_nil_iff.1 h]
      exact .nil
  | cons a l ih =>
      cases l' with
      | nil => cases h
      | cons b l' =>
          obtain ⟨hab, hrest⟩ := List.cons.inj h
          refine .cons (hR a (by simp) b (by simp) hab) (ih hrest fun x hx y hy => ?_)
          exact hR x (List.mem_cons_of_mem _ hx) y (List.mem_cons_of_mem _ hy)

/-- Two lists of one length are related element by element, if any two elements are. -/
theorem forall₂_of_length_eq {R : α → β → Prop} {l : List α} {l' : List β}
    (h : l'.length = l.length) (hR : ∀ a ∈ l, ∀ b ∈ l', R a b) : List.Forall₂ R l l' :=
  forall₂_of_map_eq (f := fun _ => ()) (g := fun _ => ()) (by simp [h]) fun a ha b hb _ => hR a ha b hb

/-- Filters that decide alike on related elements keep lists related. -/
theorem forall₂_filter {R : α → β → Prop} {q : α → Bool} {q' : β → Bool}
    (hq : ∀ a b, R a b → q' b = q a) {l : List α} {l' : List β} (h : List.Forall₂ R l l') :
    List.Forall₂ R (l.filter q) (l'.filter q') := by
  induction h with
  | nil => exact .nil
  | @cons a b l l' hab _ ih =>
      rw [List.filter_cons, List.filter_cons, hq a b hab]
      split
      · exact .cons hab ih
      · exact ih

/-- Functions that agree on related elements find the same in related lists. -/
theorem findSome?_congr_forall₂ {R : α → β → Prop} {f : α → Option γ} {g : β → Option γ}
    (hfg : ∀ a b, R a b → g b = f a) {l : List α} {l' : List β} (h : List.Forall₂ R l l') :
    l'.findSome? g = l.findSome? f := by
  induction h with
  | nil => rfl
  | @cons a b l l' hab _ ih => rw [List.findSome?_cons, List.findSome?_cons, hfg a b hab, ih]

/-- Elements for which nothing is found may be left out of a search. -/
theorem findSome?_filter_of {f : α → Option γ} {q : α → Bool} (hq : ∀ a, q a = false → f a = none)
    (l : List α) : (l.filter q).findSome? f = l.findSome? f := by
  induction l with
  | nil => rfl
  | cons a l ih =>
      rw [List.filter_cons, List.findSome?_cons]
      split
      · rw [List.findSome?_cons, ih]
      · rename_i h
        rw [hq a (by simpa using h), ih]

end Lists

/-! ## Searches -/

section Search

variable {α β : Type} [DecidableEq α] [DecidableEq β]

/-- A search only depends on the set of members that were not seen yet. -/
theorem reach_perm {next : α → List α} (fuel : Nat) {unseen unseen' : List α}
    (h : unseen'.Perm unseen) (todo : List α) :
    reach next fuel unseen' todo = reach next fuel unseen todo := by
  induction fuel generalizing unseen unseen' todo with
  | zero => rfl
  | succ fuel ih =>
      cases todo with
      | nil => rfl
      | cons a todo =>
          simp only [reach, h.mem_iff, ih (h.erase a), ih h]

/-- A search in the image of a graph finds the image of what a search in the graph finds. -/
theorem reach_map {f : α → β} {U : α → Prop} (hinj : ∀ a b, U a → U b → f a = f b → a = b)
    {next : α → List α} {next' : β → List β} (hU : ∀ a, U a → ∀ b ∈ next a, U b)
    (hnext : ∀ a, U a → next' (f a) = (next a).map f) (fuel : Nat) {unseen todo : List α}
    (hunseen : ∀ a ∈ unseen, U a) (htodo : ∀ a ∈ todo, U a) :
    reach next' fuel (unseen.map f) (todo.map f) = (reach next fuel unseen todo).map f := by
  -- by induction on the fuel; both searches take their next element in step, as `f` is injective on
  -- what can be met
  induction fuel generalizing unseen todo with
  | zero => rfl
  | succ fuel ih =>
      cases todo with
      | nil => rfl
      | cons a todo =>
          have ha := htodo a (List.mem_cons_self ..)
          have hrest : ∀ b ∈ todo, U b := fun b hb => htodo b (List.mem_cons_of_mem _ hb)
          have hmem : f a ∈ unseen.map f ↔ a ∈ unseen := by
            constructor
            · intro h
              obtain ⟨b, hb, heq⟩ := List.mem_map.1 h
              rwa [← hinj b a (hunseen b hb) ha heq]
            · exact List.mem_map_of_mem
          have herase : (unseen.map f).erase (f a) = (unseen.erase a).map f := by
            clear ih hmem
            induction unseen with
            | nil => rfl
            | cons b unseen ihu =>
                have hb := hunseen b (List.mem_cons_self ..)
                have hbeq : (f b == f a) = (b == a) := by
                  rw [Bool.eq_iff_iff, beq_iff_eq, beq_iff_eq]
                  exact ⟨hinj b a hb ha, congrArg f⟩
                rw [List.map_cons, List.erase_cons, List.erase_cons, hbeq]
                split
                · rfl
                · rw [ihu fun c hc => hunseen c (List.mem_cons_of_mem _ hc), List.map_cons]
          rw [List.map_cons, reach, reach]
          simp only [hmem]
          split
          · rw [List.map_cons, herase, hnext a ha, ← List.map_append]
            rw [ih (fun b hb => hunseen b (List.mem_of_mem_erase hb)) fun b hb => ?_]
            rcases List.mem_append.1 hb with hb | hb
            · exact hU a ha b hb
            · exact hrest b hb
          · exact ih hunseen hrest

/-- A search finds only what was unseen. -/
theorem mem_unseen_of_mem_reach {next : α → List α} {fuel : Nat} {unseen todo : List α} {a : α}
    (h : a ∈ reach next fuel unseen todo) : a ∈ unseen := by
  induction fuel generalizing unseen todo with
  | zero => cases h
  | succ fuel ih =>
      cases todo with
      | nil => cases h
      | cons b todo =>
          rw [reach] at h
          split at h
          · rcases List.mem_cons.1 h with rfl | h
            · assumption
            · exact List.mem_of_mem_erase (ih h)
          · exact ih h

end Search

/-! ## Classes and links by name -/

/-- A class that is only referenced. -/
def Class.phantom (name : String) : Class := ⟨name, false, false, false, [], []⟩

namespace Program

def classNames (p : Program) : List String := p.classIds.map fun c => (p.classAt c).name

/-- Those of the links that start at the class of a name: the names of the parents, and the kinds. -/
def linkNames (p : Program) (links : List Link) (name : String) : List (String × LinkKind) :=
  (links.filter fun l => (p.classAt l.child).name = name).map fun l =>
    ((p.classAt l.parent).name, l.kind)

/-- Links that start at the class of a name. -/
def linksFrom (p : Program) (name : String) : List (String × LinkKind) :=
  p.linkNames p.links.toList name

/-- The first `n` classes are followed by phantom classes, each of them under a name of its own. Only the
former have interfaces. -/
structure Layered (n : Nat) (p : Program) : Prop where
  le : n ≤ p.classes.size
  nodup : p.classNames.Nodup
  phantom : ∀ c, n ≤ c.idx → c.idx < p.classes.size → ∃ name, p.classAt c = .phantom name
  child : ∀ l ∈ p.links, l.child.idx < p.classes.size
  parent : ∀ l ∈ p.links, l.parent.idx < p.classes.size
  implements : ∀ l ∈ p.links, l.kind = .implements → l.child.idx < n

/-- The classes of two programs have the same name. -/
structure Twin (p p' : Program) (c c' : ClassId) : Prop where
  left : c.idx < p.classes.size
  right : c'.idx < p'.classes.size
  name : (p'.classAt c').name = (p.classAt c).name

/-- Twins are twins either way round. -/
theorem Twin.symm {p p' : Program} {c c' : ClassId} (h : Twin p p' c c') : Twin p' p c' c :=
  ⟨h.right, h.left, h.name.symm⟩

/-- A lookup that gives the same for classes of the same name. -/
theorem Twin.bind {α : Type} {p p' : Program} {c c' : Option ClassId}
    (hc : Option.Rel (Twin p p') c c') {f g : ClassId → Option α}
    (hfg : ∀ c c', Twin p p' c c' → g c' = f c) : c'.bind g = c.bind f := by
  cases hc with
  | none => rfl
  | some hc => exact hfg _ _ hc

/-- The identifiers of classes are the indices of their table. -/
theorem mem_classIds {p : Program} {c : ClassId} : c ∈ p.classIds ↔ c.idx < p.classes.size := by
  constructor
  · intro h
    obtain ⟨i, hi, rfl⟩ := List.mem_map.1 h
    exact List.mem_range.1 hi
  · exact fun h => List.mem_map.2 ⟨c.idx, List.mem_range.2 h, rfl⟩

section Layered

variable {n : Nat} {p : Program} (h : p.Layered n)

include h

/-- A class is known by its name. -/
theorem Layered.eq_of_name {c d : ClassId} (hc : c.idx < p.classes.size)
    (hd : d.idx < p.classes.size) (hname : (p.classAt c).name = (p.classAt d).name) : c = d :=
  List.inj_on_of_nodup_map h.nodup (mem_classIds.2 hc) (mem_classIds.2 hd) hname

/-- A class is found under its own name, as no two classes have the same one. -/
theorem Layered.findClass?_eq_some_iff {name : String} {c : ClassId} :
    p.findClass? name = some c ↔ c.idx < p.classes.size ∧ (p.classAt c).name = name := by
  have hget {i : Nat} (hi : i < p.classes.size) : p.classAt ⟨i⟩ = p.classes[i] := by
    simp [classAt, Array.getD_eq_getD_getElem?, hi]
  have hfound {i : Nat} (hi : p.classes.findIdx? (·.name = name) = some i) :
      i < p.classes.size ∧ (p.classAt ⟨i⟩).name = name := by
    obtain ⟨hlt, hname, -⟩ := Array.findIdx?_eq_some_iff_getElem.1 hi
    rw [hget hlt]
    exact ⟨hlt, of_decide_eq_true hname⟩
  rw [findClass?, Option.map_eq_some_iff]
  constructor
  · rintro ⟨i, hi, rfl⟩
    exact hfound hi
  · rintro ⟨hlt, hname⟩
    cases hi : p.classes.findIdx? (·.name = name) with
    | none =>
        have hnone := Array.findIdx?_eq_none_iff.1 hi p.classes[c.idx] (Array.getElem_mem hlt)
        rw [hget hlt] at hname
        simp [hname] at hnone
    | some i =>
        obtain ⟨hlt', hname'⟩ := hfound hi
        exact ⟨i, rfl, h.eq_of_name hlt' hlt (hname'.trans hname.symm)⟩

/-- A name under which no class is found is the name of no class. -/
theorem Layered.findClass?_eq_none_iff {name : String} :
    p.findClass? name = none ↔ name ∉ p.classNames := by
  rw [Option.eq_none_iff_forall_ne_some, classNames]
  simp only [ne_eq, h.findClass?_eq_some_iff, List.mem_map, mem_classIds, not_exists]

/-- Phantom classes have no members, nor has anything beyond the table. -/
theorem Layered.members (c : ClassId) (hc : n ≤ c.idx) :
    (p.classAt c).methods = [] ∧ (p.classAt c).fields = [] ∧ (p.classAt c).isInterface = false := by
  by_cases hlt : c.idx < p.classes.size
  · obtain ⟨name, hname⟩ := h.phantom c hc hlt
    rw [hname]
    exact ⟨rfl, rfl, rfl⟩
  · have hnone : p.classAt c = default := by
      simp [classAt, Array.getD_eq_getD_getElem?, Nat.le_of_not_lt hlt]
    rw [hnone]
    exact ⟨rfl, rfl, rfl⟩

/-- Links that start at a class, by names. -/
theorem Layered.linksOf (c : ClassId) (hc : c.idx < p.classes.size) :
    (p.linksOf c).map (fun l => ((p.classAt l.parent).name, l.kind)) =
      p.linksFrom (p.classAt c).name := by
  rw [Program.linksOf, linksFrom, linkNames]
  refine congrArg _ (List.filter_congr fun l hl => ?_)
  rw [Bool.eq_iff_iff, decide_eq_true_eq, decide_eq_true_eq]
  constructor
  · rintro rfl
    rfl
  · exact h.eq_of_name (h.child l (Array.mem_toList_iff.1 hl)) hc

/-- The parents of a class have the names of its links. -/
theorem Layered.parents (c : ClassId) (hc : c.idx < p.classes.size) :
    (p.parents c).map (fun d => (p.classAt d).name) =
      (p.linksFrom (p.classAt c).name).map Prod.fst := by
  rw [← h.linksOf c hc, Program.parents, List.map_map, List.map_map]
  rfl

theorem Layered.parents_lt {c d : ClassId} (hd : d ∈ p.parents c) : d.idx < p.classes.size := by
  obtain ⟨l, hl, rfl⟩ := List.mem_map.1 hd
  exact h.parent l (Array.mem_toList_iff.1 (List.mem_filter.1 hl).1)

/-- A search among the ancestors of classes, by names. -/
theorem Layered.mem_reach {fuel : Nat} {todo : List ClassId}
    (htodo : ∀ c ∈ todo, c.idx < p.classes.size) {c : ClassId} (hc : c.idx < p.classes.size) :
    c ∈ reach p.parents fuel p.classIds todo ↔ (p.classAt c).name ∈
      reach (fun name => (p.linksFrom name).map Prod.fst) fuel p.classNames
        (todo.map fun d => (p.classAt d).name) := by
  have hmap : reach (fun name => (p.linksFrom name).map Prod.fst) fuel p.classNames
      (todo.map fun d => (p.classAt d).name) =
        (reach p.parents fuel p.classIds todo).map fun d => (p.classAt d).name :=
    reach_map (U := fun c => c.idx < p.classes.size) (fun _ _ => h.eq_of_name)
      (fun _ _ _ => h.parents_lt) (fun c hc => (h.parents c hc).symm) fuel (fun _ => mem_classIds.1)
      htodo
  rw [hmap]
  constructor
  · exact List.mem_map_of_mem
  · intro hname
    obtain ⟨d, hd, heq⟩ := List.mem_map.1 hname
    rwa [← h.eq_of_name (mem_classIds.1 (mem_unseen_of_mem_reach hd)) hc heq]

/-- Phantom classes have no interfaces. -/
theorem Layered.interfaces_eq_nil {c : ClassId} (hc : n ≤ c.idx) : p.interfaces c = [] := by
  have hnone : (p.linksOf c).filter (·.kind = .implements) = [] := by
    refine List.filter_eq_nil_iff.2 fun l hl hkind => ?_
    obtain ⟨hmem, hchild⟩ := List.mem_filter.1 hl
    have hlt := h.implements l (Array.mem_toList_iff.1 hmem) (of_decide_eq_true hkind)
    rw [of_decide_eq_true hchild] at hlt
    omega
  rw [interfaces, hnone, List.map_nil, List.mergeSort_nil]

end Layered

/-! ## Programs that are alike -/

/-- The two programs have the same defined classes, fields and methods, and phantom classes of the same
names; the links of a class lead to classes of the same names. Methods belong to defined classes; their
bodies are left out. -/
structure Alike (n : Nat) (p p' : Program) : Prop where
  left : p.Layered n
  right : p'.Layered n
  defined : ∀ c : ClassId, c.idx < n → p'.classAt c = p.classAt c
  names : p'.classNames.Perm p.classNames
  links : ∀ name, p'.linksFrom name = p.linksFrom name
  size_links : p'.links.size = p.links.size
  fields : p'.fields = p.fields
  size_methods : p'.methods.size = p.methods.size
  method : ∀ m, { p'.methodAt m with body? := none } = { p.methodAt m with body? := none }
  owner : ∀ m, m.idx < p.methods.size → (p.methodAt m).owner.idx < n

/-- The two classes are the same defined class, or they are both phantom classes. -/
def Level (n : Nat) (c c' : ClassId) : Prop := c' = c ∧ c.idx < n ∨ n ≤ c.idx ∧ n ≤ c'.idx

namespace Alike

variable {n : Nat} {p p' : Program} (h : Alike n p p')

include h

/-- The methods of the two programs are declared alike. -/
theorem header (m : MethodId) : (p'.methodAt m).owner = (p.methodAt m).owner ∧
    (p'.methodAt m).ref = (p.methodAt m).ref ∧ (p'.methodAt m).isStatic = (p.methodAt m).isStatic ∧
    (p'.methodAt m).isAbstract = (p.methodAt m).isAbstract ∧
    (p'.methodAt m).isNative = (p.methodAt m).isNative := by
  have hm := h.method m
  simp only [Method.mk.injEq] at hm
  exact ⟨hm.1, hm.2.1, hm.2.2.1, hm.2.2.2.1, hm.2.2.2.2.1⟩

/-- Programs are alike either way round. -/
theorem symm : Alike n p' p where
  left := h.right
  right := h.left
  defined c hc := (h.defined c hc).symm
  names := h.names.symm
  links name := (h.links name).symm
  size_links := h.size_links.symm
  fields := h.fields.symm
  size_methods := h.size_methods.symm
  method m := (h.method m).symm
  owner m hm := by
    rw [(h.header m).1]
    exact h.owner m (h.size_methods ▸ hm)

theorem size_classes : p'.classes.size = p.classes.size := by
  have hlength := h.names.length_eq
  simpa [classNames, classIds] using hlength

theorem searchBound : p'.searchBound = p.searchBound := by
  rw [Program.searchBound, Program.searchBound, h.size_links, h.size_classes]

theorem classIds : p'.classIds = p.classIds := by
  rw [Program.classIds, Program.classIds, h.size_classes]

/-- A defined class is its own twin. -/
theorem twin_of_lt {c : ClassId} (hc : c.idx < n) : Twin p p' c c where
  left := Nat.lt_of_lt_of_le hc h.left.le
  right := Nat.lt_of_lt_of_le hc h.right.le
  name := by rw [h.defined c hc]

/-- Every class has a twin. -/
theorem exists_twin {c : ClassId} (hc : c.idx < p.classes.size) : ∃ c', Twin p p' c c' := by
  have hname : (p.classAt c).name ∈ p'.classNames :=
    h.names.symm.subset (List.mem_map.2 ⟨c, mem_classIds.2 hc, rfl⟩)
  obtain ⟨c', hc', heq⟩ := List.mem_map.1 hname
  exact ⟨c', hc, mem_classIds.1 hc', heq⟩

/-- A defined class is matched with itself. -/
theorem eq_of_twin {c c' : ClassId} (hc : Twin p p' c c') (hlt : c.idx < n) : c' = c := by
  refine h.right.eq_of_name hc.right (h.twin_of_lt hlt).right ?_
  rw [hc.name, h.defined c hlt]

/-- Twins are on the same level. -/
theorem level_of_twin {c c' : ClassId} (hc : Twin p p' c c') : Level n c c' := by
  by_cases hlt : c.idx < n
  · exact Or.inl ⟨h.eq_of_twin hc hlt, hlt⟩
  · refine Or.inr ⟨Nat.le_of_not_lt hlt, Nat.le_of_not_lt fun hlt' => hlt ?_⟩
    rwa [h.symm.eq_of_twin hc.symm hlt']

/-- Classes that are found under one name are twins. -/
theorem findClass? (name : String) :
    Option.Rel (Twin p p') (p.findClass? name) (p'.findClass? name) := by
  cases hc : p.findClass? name with
  | none =>
      have hnone : p'.findClass? name = none := by
        rw [h.right.findClass?_eq_none_iff, h.names.mem_iff]
        exact h.left.findClass?_eq_none_iff.1 hc
      rw [hnone]
      exact .none
  | some c =>
      obtain ⟨hlt, hname⟩ := h.left.findClass?_eq_some_iff.1 hc
      obtain ⟨c', hc'⟩ := h.exists_twin hlt
      have hsome : p'.findClass? name = some c' :=
        h.right.findClass?_eq_some_iff.2 ⟨hc'.right, hc'.name.trans hname⟩
      rw [hsome]
      exact .some hc'

/-! ### The hierarchy -/

/-- Links of twins lead to twins, in the same order. -/
theorem linksOf {c c' : ClassId} (hc : Twin p p' c c') :
    List.Forall₂ (fun l l' => Twin p p' l.parent l'.parent ∧ l'.kind = l.kind) (p.linksOf c)
      (p'.linksOf c') := by
  refine forall₂_of_map_eq (f := fun l : Link => ((p.classAt l.parent).name, l.kind))
    (g := fun l : Link => ((p'.classAt l.parent).name, l.kind)) ?_ fun l hl l' hl' heq => ?_
  · rw [h.right.linksOf c' hc.right, h.left.linksOf c hc.left, hc.name, h.links]
  · obtain ⟨hname, hkind⟩ := Prod.mk.inj heq
    have hmem := Array.mem_toList_iff.1 (List.mem_filter.1 hl).1
    have hmem' := Array.mem_toList_iff.1 (List.mem_filter.1 hl').1
    exact ⟨⟨h.left.parent l hmem, h.right.parent l' hmem', hname⟩, hkind⟩

/-- Parents of twins are twins. -/
theorem parents {c c' : ClassId} (hc : Twin p p' c c') :
    List.Forall₂ (Twin p p') (p.parents c) (p'.parents c') := by
  rw [Program.parents, Program.parents, List.forall₂_map_left_iff, List.forall₂_map_right_iff]
  exact (h.linksOf hc).imp fun _ _ hl => hl.1

/-- Superclasses of twins are twins. -/
theorem superclass? {c c' : ClassId} (hc : Twin p p' c c') :
    Option.Rel (Twin p p') (p.superclass? c) (p'.superclass? c') := by
  have heq (p : Program) (c : ClassId) :
      p.superclass? c = (((p.linksOf c).filter (·.kind = .extends)).map (·.parent)).head? := by
    rw [Program.superclass?, Program.linksOf, List.filter_filter, List.head?_map, List.head?_filter]
    congr 2
    funext l
    rw [Bool.eq_iff_iff]
    simp [and_comm]
  have hlinks : List.Forall₂ (fun l l' => Twin p p' l.parent l'.parent ∧ l'.kind = l.kind)
      ((p.linksOf c).filter (·.kind = .extends)) ((p'.linksOf c').filter (·.kind = .extends)) :=
    forall₂_filter (fun l l' hl => by rw [hl.2]) (h.linksOf hc)
  rw [heq, heq]
  generalize (p.linksOf c).filter _ = l at hlinks ⊢
  generalize (p'.linksOf c').filter _ = l' at hlinks ⊢
  cases hlinks with
  | nil => exact .none
  | cons hl _ => exact .some hl.1

theorem superclassesFrom (fuel : Nat) {c c' : Option ClassId} (hc : Option.Rel (Twin p p') c c') :
    List.Forall₂ (Twin p p') (p.superclassesFrom fuel c) (p'.superclassesFrom fuel c') := by
  induction fuel generalizing c c' with
  | zero => exact .nil
  | succ fuel ih =>
      cases hc with
      | none => exact .nil
      | some hc => exact .cons hc (ih (h.superclass? hc))

/-- Chains of superclasses of twins are twins, class by class. -/
theorem superclassChain {c c' : ClassId} (hc : Twin p p' c c') :
    List.Forall₂ (Twin p p') (p.superclassChain c) (p'.superclassChain c') := by
  rw [Program.superclassChain, Program.superclassChain, h.size_classes]
  exact h.superclassesFrom _ (.some hc)

/-- Searches among ancestors find classes of the same names. -/
theorem mem_reach {c c' : ClassId} (hc : Twin p p' c c') {todo todo' : List ClassId}
    (htodo : List.Forall₂ (Twin p p') todo todo') :
    c' ∈ reach p'.parents p'.searchBound p'.classIds todo' ↔
      c ∈ reach p.parents p.searchBound p.classIds todo := by
  have hlt : (∀ d ∈ todo, d.idx < p.classes.size) ∧ (∀ d ∈ todo', d.idx < p'.classes.size) ∧
      todo'.map (fun d => (p'.classAt d).name) = todo.map fun d => (p.classAt d).name := by
    induction htodo with
    | nil => simp
    | cons hd _ ih => simpa [hd.left, hd.right, hd.name] using ih
  have hlinks : (fun name => (p'.linksFrom name).map Prod.fst) =
      fun name => (p.linksFrom name).map Prod.fst := by
    funext name
    rw [h.links]
  rw [h.left.mem_reach hlt.1 hc.left, h.right.mem_reach hlt.2.1 hc.right, hlt.2.2, hc.name,
    h.searchBound, hlinks, reach_perm _ h.names]

/-- A class is on a cycle if its twin is. -/
theorem isOnCycle {c c' : ClassId} (hc : Twin p p' c c') : p'.isOnCycle c' = p.isOnCycle c := by
  rw [Program.isOnCycle, Program.isOnCycle, Bool.eq_iff_iff, decide_eq_true_eq, decide_eq_true_eq]
  exact h.mem_reach hc (h.parents hc)

theorem isCyclic_of (hcyclic : p.isCyclic = true) : p'.isCyclic = true := by
  obtain ⟨c, hc, hcycle⟩ := List.any_eq_true.1 hcyclic
  obtain ⟨c', hc'⟩ := h.exists_twin (mem_classIds.1 hc)
  exact List.any_eq_true.2 ⟨c', mem_classIds.2 hc'.right, (h.isOnCycle hc').trans hcycle⟩

/-- A hierarchy is cyclic if the other one is. -/
theorem isCyclic : p'.isCyclic = p.isCyclic := by
  rw [Bool.eq_iff_iff]
  exact ⟨h.symm.isCyclic_of, h.isCyclic_of⟩

/-- Interfaces above a class are defined, so they have the same numbers. -/
theorem interfacesAbove {c c' : ClassId} (hc : Twin p p' c c') :
    (p'.allParents c').filter (fun d => (p'.classAt d).isInterface) =
      (p.allParents c).filter fun d => (p.classAt d).isInterface := by
  rw [allParents, allParents, classSet, classSet, h.classIds, List.filter_filter,
    List.filter_filter]
  refine List.filter_congr fun d _ => ?_
  by_cases hd : d.idx < n
  · have hmem := h.mem_reach (h.twin_of_lt hd) (.cons hc .nil)
    rw [h.classIds] at hmem
    rw [h.defined d hd, decide_eq_decide.2 hmem]
  · have hle := Nat.le_of_not_lt hd
    rw [(h.left.members d hle).2.2, (h.right.members d hle).2.2]
    rfl

/-! ### Members -/

/-- Classes on the same level declare the same methods; phantom classes declare none. -/
theorem declared? {c c' : ClassId} (hc : Level n c c') (s : Subsignature) :
    p'.declared? c' s = p.declared? c s := by
  rw [Program.declared?, Program.declared?]
  rcases hc with ⟨rfl, hlt⟩ | ⟨hle, hle'⟩
  · rw [h.defined c' hlt]
  · rw [(h.left.members c hle).1, (h.right.members c' hle').1]

/-- Classes on the same level declare the same fields. -/
theorem declaredField? {c c' : ClassId} (hc : Level n c c') (name : String) :
    p'.declaredField? c' name = p.declaredField? c name := by
  rw [Program.declaredField?, Program.declaredField?]
  rcases hc with ⟨rfl, hlt⟩ | ⟨hle, hle'⟩
  · rw [h.defined c' hlt]
  · rw [(h.left.members c hle).2.1, (h.right.members c' hle').2.1]

omit h in
theorem level_self (n : Nat) (c : ClassId) : Level n c c :=
  (Nat.lt_or_ge c.idx n).imp (⟨rfl, ·⟩) fun hle => ⟨hle, hle⟩

/-- Fields are looked up with the same result. -/
theorem resolveField? (r : FieldRef) : p'.resolveField? r = p.resolveField? r := by
  refine Twin.bind (h.findClass? r.className) fun c c' hc => ?_
  have hself : (p'.declaredField? · r.name) = (p.declaredField? · r.name) := by
    funext d
    exact h.declaredField? (level_self n d) r.name
  have hchain : (p'.superclassChain c').findSome? (p'.declaredField? · r.name) =
      (p.superclassChain c).findSome? (p.declaredField? · r.name) := by
    refine findSome?_congr_forall₂ (fun d d' hd => ?_) (h.superclassChain hc)
    exact h.declaredField? (h.level_of_twin hd) r.name
  rw [hself] at hchain
  simp only [List.findSome?_append, h.interfacesAbove hc, hself, hchain]

/-! ### Interfaces -/

omit h in
/-- In a sorted list, defined classes stand before phantom classes. -/
theorem eq_append_of_sorted {l : List ClassId} (hl : l.Pairwise fun c d => c.idx ≤ d.idx) :
    l = l.filter (·.idx < n) ++ l.filter fun c => !decide (c.idx < n) := by
  induction l with
  | nil => rfl
  | cons c l ih =>
      obtain ⟨hc, hl⟩ := List.pairwise_cons.1 hl
      by_cases hlt : c.idx < n
      · simpa [hlt] using ih hl
      · have hnone : l.filter (·.idx < n) = [] := by
          refine List.filter_eq_nil_iff.2 fun d hd => ?_
          have hle := hc d hd
          simp only [decide_eq_true_eq]
          omega
        simpa [hlt, hnone] using ih hl

omit h in
/-- Sorting puts the same defined classes first, in the same order. -/
theorem level_mergeSort {l l' : List ClassId} (hl : List.Forall₂ (Level n) l l') :
    List.Forall₂ (Level n) (l.mergeSort fun a b => decide (a.idx ≤ b.idx))
      (l'.mergeSort fun a b => decide (a.idx ≤ b.idx)) := by
  have hsorted (l : List ClassId) :
      (l.mergeSort fun a b => decide (a.idx ≤ b.idx)).Pairwise fun c d => c.idx ≤ d.idx := by
    have hpairwise : (l.mergeSort fun a b => decide (a.idx ≤ b.idx)).Pairwise
        fun a b => decide (a.idx ≤ b.idx) = true :=
      List.pairwise_mergeSort
        (fun a b c hab hbc => by
          rw [decide_eq_true_eq] at hab hbc ⊢
          omega)
        (fun a b => by
          rw [Bool.or_eq_true, decide_eq_true_eq, decide_eq_true_eq]
          omega) l
    exact hpairwise.imp fun hab => of_decide_eq_true hab
  have hlow : l'.filter (·.idx < n) = l.filter (·.idx < n) := by
    induction hl with
    | nil => rfl
    | @cons c c' l l' hc _ ih =>
        rcases hc with ⟨rfl, hlt⟩ | ⟨hle, hle'⟩
        · simp [hlt, ih]
        · simp [Nat.not_lt.2 hle, Nat.not_lt.2 hle', ih]
  have hperm := List.mergeSort_perm l fun a b => decide (a.idx ≤ b.idx)
  have hperm' := List.mergeSort_perm l' fun a b => decide (a.idx ≤ b.idx)
  have hs := hsorted l
  have hs' := hsorted l'
  generalize l.mergeSort _ = s at hperm hs ⊢
  generalize l'.mergeSort _ = s' at hperm' hs' ⊢
  have heq : s'.filter (·.idx < n) = s.filter (·.idx < n) := by
    have hantisymm (c d : ClassId) (hcd : c.idx ≤ d.idx) (hdc : d.idx ≤ c.idx) : c = d := by
      cases c
      cases d
      exact congrArg ClassId.mk (Nat.le_antisymm hcd hdc)
    -- both sides have the same defined classes, and a sorted list is determined by its elements
    refine List.Perm.eq_of_pairwise (fun c d _ _ => hantisymm c d) (hs'.filter _) (hs.filter _) ?_
    exact ((hperm'.filter _).trans (.of_eq hlow)).trans (hperm.filter _).symm
  -- what is left on both sides are as many phantom classes
  have hlength := congrArg List.length heq
  have hsplit := congrArg List.length (eq_append_of_sorted (n := n) hs)
  have hsplit' := congrArg List.length (eq_append_of_sorted (n := n) hs')
  rw [List.length_append] at hsplit hsplit'
  have htotal := hl.length_eq
  rw [← hperm.length_eq, ← hperm'.length_eq] at htotal
  rw [eq_append_of_sorted (n := n) hs, eq_append_of_sorted (n := n) hs', heq]
  refine List.rel_append (List.forall₂_same.2 fun c hc => ?_)
    (forall₂_of_length_eq (by omega) fun c hc d hd => ?_)
  · exact Or.inl ⟨rfl, of_decide_eq_true (List.mem_filter.1 hc).2⟩
  · have hc := (List.mem_filter.1 hc).2
    have hd := (List.mem_filter.1 hd).2
    simp only [Bool.not_eq_true', decide_eq_false_iff_not, Nat.not_lt] at hc hd
    exact Or.inr ⟨hc, hd⟩

/-- Interfaces of classes on the same level are on the same level, in order. -/
theorem interfaces {c c' : ClassId} (hc : Level n c c') :
    List.Forall₂ (Level n) (p.interfaces c) (p'.interfaces c') := by
  rcases hc with ⟨rfl, hlt⟩ | ⟨hle, hle'⟩
  · refine level_mergeSort ?_
    rw [List.forall₂_map_left_iff, List.forall₂_map_right_iff]
    refine (forall₂_filter (fun l l' hl => ?_) (h.linksOf (h.twin_of_lt hlt))).imp
      fun l l' hl => h.level_of_twin hl.1
    rw [hl.2]
  · rw [h.left.interfaces_eq_nil hle, h.right.interfaces_eq_nil hle']
    exact .nil

/-- Interfaces are searched in the same order, up to phantom classes. -/
theorem interfaceOrderFrom (fuel : Nat) {seen seen' queue queue' : List ClassId}
    (hseen : ∀ c : ClassId, c.idx < n → (c ∈ seen' ↔ c ∈ seen))
    (hqueue : List.Forall₂ (Level n) queue queue') :
    (p'.interfaceOrderFrom fuel seen' queue').filter (·.idx < n) =
      (p.interfaceOrderFrom fuel seen queue).filter (·.idx < n) := by
  -- By induction on the fuel. Both searches put their first class aside, and these are on the same
  -- level.
  induction fuel generalizing seen seen' queue queue' with
  | zero => rfl
  | succ fuel ih =>
      cases hqueue with
      | nil => rfl
      | @cons c c' queue queue' hc hqueue =>
          have hnext := List.rel_append hqueue (h.interfaces hc)
          rw [Program.interfaceOrderFrom, Program.interfaceOrderFrom]
          rcases hc with ⟨rfl, hlt⟩ | ⟨hle, hle'⟩
          · by_cases hmem : c' ∈ seen
            · rw [if_pos hmem, if_pos ((hseen c' hlt).2 hmem)]
              exact ih hseen hqueue
            · have hseen' : ∀ d : ClassId, d.idx < n → (d ∈ c' :: seen' ↔ d ∈ c' :: seen) :=
                fun d hd => by simp [hseen d hd]
              rw [if_neg hmem, if_neg fun h => hmem ((hseen c' hlt).1 h), List.filter_cons,
                List.filter_cons, ih hseen' hnext]
          · -- whether a phantom class was seen does not matter, because it has no interfaces
            have hrest : ∀ (p : Program) (seen queue : List ClassId) (c : ClassId), p.Layered n →
                n ≤ c.idx → ∃ seen', (∀ d : ClassId, d.idx < n → (d ∈ seen' ↔ d ∈ seen)) ∧
                  (if c ∈ seen then p.interfaceOrderFrom fuel seen queue
                    else c :: p.interfaceOrderFrom fuel (c :: seen) (queue ++ p.interfaces c)).filter
                      (·.idx < n) = (p.interfaceOrderFrom fuel seen' queue).filter (·.idx < n) := by
              intro p seen queue c hp hc
              by_cases hmem : c ∈ seen
              · exact ⟨seen, fun _ _ => Iff.rfl, by rw [if_pos hmem]⟩
              · refine ⟨c :: seen, fun d hd => ?_, ?_⟩
                · rw [List.mem_cons]
                  refine or_iff_right ?_
                  rintro rfl
                  omega
                · rw [if_neg hmem, hp.interfaces_eq_nil hc, List.append_nil,
                    List.filter_cons, if_neg (by simpa using hc)]
            obtain ⟨s, hs, heq⟩ := hrest p seen queue c h.left hle
            obtain ⟨s', hs', heq'⟩ := hrest p' seen' queue' c' h.right hle'
            rw [heq, heq']
            exact ih (fun d hd => by rw [hs d hd, hs' d hd, hseen d hd]) hqueue

/-- The interfaces of twins are searched in the same order, as far as they are defined. -/
theorem interfaceOrder {c c' : ClassId} (hc : Twin p p' c c') :
    (p'.interfaceOrder c').filter (·.idx < n) = (p.interfaceOrder c).filter (·.idx < n) := by
  have hqueue : List.Forall₂ (Level n) ((p.superclassChain c).flatMap p.interfaces)
      ((p'.superclassChain c').flatMap p'.interfaces) := by
    have hchain := h.superclassChain hc
    generalize p.superclassChain c = l at hchain ⊢
    generalize p'.superclassChain c' = l' at hchain ⊢
    induction hchain with
    | nil => exact .nil
    | cons hd _ ih =>
        rw [List.flatMap_cons, List.flatMap_cons]
        exact List.rel_append (h.interfaces (h.level_of_twin hd)) ih
  rw [Program.interfaceOrder, Program.interfaceOrder]
  simp only [h.searchBound, ← hqueue.length_eq]
  exact h.interfaceOrderFrom _ (fun _ _ => Iff.rfl) hqueue

/-! ### Methods -/

/-- Methods are looked up with the same result. -/
theorem lookup? (accept : Method → Bool)
    (haccept : ∀ m, accept (p'.methodAt m) = accept (p.methodAt m)) {c c' : ClassId}
    (hc : Twin p p' c c') (s : Subsignature) : p'.lookup? accept c' s = p.lookup? accept c s := by
  have hfind {d d' : ClassId} (hd : Level n d d') :
      (p'.declared? d' s).filter (fun m => accept (p'.methodAt m)) =
        (p.declared? d s).filter fun m => accept (p.methodAt m) := by
    rw [h.declared? hd]
    simp only [haccept]
  have hnone {p : Program} (hp : p.Layered n) (d : ClassId) (hd : decide (d.idx < n) = false) :
      ((p.declared? d s).filter fun m => accept (p.methodAt m)) = none := by
    rw [Program.declared?, (hp.members d (by simpa using hd)).1]
    rfl
  rw [Program.lookup?, Program.lookup?]
  rw [findSome?_congr_forall₂ (fun d d' hd => hfind (h.level_of_twin hd)) (h.superclassChain hc),
    ← findSome?_filter_of (hnone h.right) (p'.interfaceOrder c'),
    ← findSome?_filter_of (hnone h.left) (p.interfaceOrder c), h.interfaceOrder hc,
    funext fun d => hfind (level_self n d)]

/-- The same method is found under a reference. -/
theorem findMethod? (r : MethodRef) : p'.findMethod? r = p.findMethod? r :=
  Twin.bind (h.findClass? r.className) fun _ _ hc => h.declared? (h.level_of_twin hc) r.subsignature

/-- The same method is found for a reference, inherited ones included. -/
theorem resolveMethod? (r : MethodRef) : p'.resolveMethod? r = p.resolveMethod? r :=
  Twin.bind (h.findClass? r.className) fun _ _ hc =>
    h.lookup? (fun _ => true) (fun _ => rfl) hc r.subsignature

/-- Dispatch from twins finds the same method. -/
theorem dispatch? {c c' : ClassId} (hc : Twin p p' c c') (s : Subsignature) :
    p'.dispatch? c' s = p.dispatch? c s := by
  refine h.lookup? isDispatchable (fun m => ?_) hc s
  rw [isDispatchable, isDispatchable, (h.header m).2.2.1, (h.header m).2.2.2.1]

/-- Calls reach the same methods. -/
theorem resolveCallee? (receiver : Option Ty) (call : Invoke) :
    p'.resolveCallee? receiver call = p.resolveCallee? receiver call := by
  have hstatic : p'.staticTarget? call.target = p.staticTarget? call.target := by
    rw [staticTarget?, staticTarget?, h.resolveMethod?]
    congr 1
    funext m
    rw [(h.header m).2.2.1, (h.header m).2.2.2.1]
  have hclass (t : Ty) : Option.Rel (Twin p p') (p.dispatchClass? t) (p'.dispatchClass? t) := by
    cases t with
    | void => exact .none
    | array => exact h.findClass? rootClassName
    | scalar e =>
        cases e with
        | object name => exact h.findClass? name
        | _ => exact .none
  rw [Program.resolveCallee?, Program.resolveCallee?]
  cases call.binding with
  | static => exact hstatic
  -- the type of the receiver matters only where the class to start from is that of the receiver
  | special => exact Twin.bind (h.findClass? _) fun _ _ hc => h.dispatch? hc _
  | virtual | interface =>
      cases receiver with
      | none => rfl
      | some t => exact Twin.bind (hclass t) fun _ _ hc => h.dispatch? hc _

theorem methodIds : p'.methodIds = p.methodIds := by
  rw [Program.methodIds, Program.methodIds, h.size_methods]

theorem mainMethods : Builder.mainMethods p' = Builder.mainMethods p := by
  rw [Builder.mainMethods, Builder.mainMethods, h.methodIds]
  refine List.filter_congr fun m _ => ?_
  rw [(h.header m).2.1, (h.header m).2.2.1]

end Alike

end Program

end PointsTo
