import Mathlib.Order.Defs.Unbundled
import PointsTo.Proofs.Program.Dispatch

/-! # Subtypes

The parents of a class and its subtypes are found by searches in opposite directions of the same links, so
all questions about subtypes ask for one relation: that a path of links leads from a class to another. In a
loaded program it is a partial order, because no class is its own proper ancestor, and the root is its
greatest element, because every other class has a parent.
-/

namespace PointsTo

open Relation (ReflTransGen)

/-- A class with an interface that it names twice, and that its superclass shares a parent with. -/
def ProgramDef.shared : ProgramDef :=
  ⟨none, [⟨"A", some "B", ["I", "I"], false, false, [], []⟩, ⟨"B", none, ["J"], false, false, [], []⟩,
    ⟨"I", none, ["J"], true, false, [], []⟩]⟩

namespace Program

variable {p : Program} {c d e : ClassId}

/-- The second class is the superclass of the first one, or one of its interfaces. -/
def HasParent (p : Program) (c d : ClassId) : Prop := p.superclass? c = some d ∨ d ∈ p.interfaces c

/-- Parents are superclasses and interfaces. -/
theorem mem_parents_iff_hasParent {x : ProgramDef} (hp : (build x).1 = .ok p) :
    d ∈ p.parents c ↔ p.HasParent c d := by
  rw [HasParent, superclass?_eq_some_iff hp, mem_interfaces_iff, mem_parents]
  constructor
  · rintro ⟨⟨c, d, kind⟩, hl, rfl, rfl⟩
    cases kind
    · exact Or.inl hl
    · exact Or.inr hl
  · rintro (hl | hl)
    · exact ⟨_, hl, rfl, rfl⟩
    · exact ⟨_, hl, rfl, rfl⟩

/-- Inheriting means going up along superclasses and interfaces. -/
theorem inherits_iff_hasParent {x : ProgramDef} (hp : (build x).1 = .ok p) :
    p.Inherits c d ↔ ReflTransGen p.HasParent c d := by
  have hstep : (fun c d => d ∈ p.parents c) = p.HasParent :=
    funext fun c => funext fun d => propext (mem_parents_iff_hasParent hp)
  rw [Inherits, hstep]

/-- Links lead down as they lead up. -/
theorem mem_children : c ∈ p.children d ↔ d ∈ p.parents c := by
  simp only [children, List.mem_map, List.mem_filter, Array.mem_toList_iff, decide_eq_true_eq, mem_parents]
  constructor
  · rintro ⟨l, ⟨hl, hparent⟩, hchild⟩
    exact ⟨l, hl, hchild, hparent⟩
  · rintro ⟨l, hl, hchild, hparent⟩
    exact ⟨l, ⟨hl, hparent⟩, hchild⟩

/-- Antisymmetry: two classes that inherit from each other would be on a cycle. -/
theorem Acyclic.eq_of_inherits (h : p.Acyclic) (hcd : p.Inherits c d) (hdc : p.Inherits d c) : c = d := by
  rcases Relation.reflTransGen_iff_eq_or_transGen.1 hcd with heq | hpath
  · exact heq.symm
  · exact absurd (hpath.trans_left hdc) (h c)

section Ranged

variable (hlinks : ∀ l ∈ p.links, l.child.idx < p.classes.size ∧ l.parent.idx < p.classes.size)

include hlinks

theorem children_mem_classIds (h : c ∈ p.children d) : c ∈ p.classIds := by
  obtain ⟨l, hl, rfl, -⟩ := mem_parents.1 (mem_children.1 h)
  exact mem_classIds.2 (hlinks l hl).1

/-- The search among the children of a class finds all that inherit from it. -/
theorem mem_allSubtypes_iff (hd : d ∈ p.classIds) : c ∈ p.allSubtypes d ↔ p.Inherits c d := by
  have hstep : (fun x y => y ∈ p.children x) = Function.swap fun x y => y ∈ p.parents x :=
    funext fun x => funext fun y => propext mem_children
  rw [allSubtypes, mem_classSet_reach_iff (fun _ _ => children_mem_classIds hlinks)
    (p.reachBound_links_le (·.parent) (·.child)) hd, hstep, Relation.reflTransGen_swap, Inherits]

/-- A direct subtype is a class with a link to the class. -/
theorem mem_directSubtypes_iff : c ∈ p.directSubtypes d ↔ d ∈ p.parents c := by
  rw [directSubtypes, classSet, List.mem_filter, decide_eq_true_eq, mem_children, and_iff_right_iff_imp]
  exact fun h => children_mem_classIds hlinks (mem_children.2 h)

/-- Also of what is no class: it is a subtype of itself alone. -/
theorem isSubtype_iff : p.isSubtype c d = true ↔ p.Inherits c d := by
  rw [isSubtype, Bool.or_eq_true, decide_eq_true_eq, decide_eq_true_eq]
  constructor
  · rintro (rfl | hd)
    · exact .refl
    · obtain ⟨r, hr, hpath⟩ := path_of_mem_reach (of_decide_eq_true (List.mem_filter.1 hd).2)
      rwa [List.mem_singleton.1 hr] at hpath
  · intro h
    rcases h.cases_head with rfl | ⟨e, he, -⟩
    · exact Or.inl rfl
    · obtain ⟨l, hl, rfl, -⟩ := mem_parents.1 he
      exact Or.inr ((mem_allParents_iff hlinks (hlinks l hl).1).2 h)

/-- An acyclic hierarchy is partially ordered by its subtypes. -/
theorem Acyclic.isPartialOrder (hacyclic : p.Acyclic) :
    IsPartialOrder ClassId fun c d => p.isSubtype c d = true where
  refl _ := (isSubtype_iff hlinks).2 .refl
  trans _ _ _ hcd hde := (isSubtype_iff hlinks).2
    (((isSubtype_iff hlinks).1 hcd).trans ((isSubtype_iff hlinks).1 hde))
  antisymm _ _ hcd hdc :=
    hacyclic.eq_of_inherits ((isSubtype_iff hlinks).1 hcd) ((isSubtype_iff hlinks).1 hdc)

end Ranged

/-- The root has no parent, because all classes inherit from it. -/
theorem not_hasParent_root {x : ProgramDef} (hp : (build x).1 = .ok p) {root : ClassId}
    (hroot : p.findClass? rootClassName = some root) : ¬p.HasParent root d := by
  have h := (build_underway hp).rooted
  obtain ⟨_, hfind, hbelow⟩ := h.root
  obtain rfl := Option.some.inj (hroot.symm.trans hfind)
  intro hparent
  have hmem := (mem_parents_iff_hasParent hp).2 hparent
  exact h.acyclic _ (.head' hmem (hbelow d (mem_classIds.1 (parents_mem_classIds h.link hmem))))

/-- Sets of classes are listed in the order of the table. -/
theorem classSet_sublist (p : Program) (cs : List ClassId) : (p.classSet cs).Sublist p.classIds :=
  List.filter_sublist

/-- In a loaded program, the ancestors of a class, the subtypes of a class and the test for subtypes agree
with each other and with paths of links to superclasses and interfaces, and the direct subtypes are the
classes at the other end of one link. All of them are sets of classes. Subtypes are a partial order, and
the root is its greatest element. -/
theorem subtypes_ordered {x : ProgramDef} (hp : (build x).1 = .ok p) :
    (∀ c ∈ p.classIds, ∀ d ∈ p.classIds,
      (d ∈ p.allParents c ↔ ReflTransGen p.HasParent c d) ∧
      (c ∈ p.allSubtypes d ↔ ReflTransGen p.HasParent c d) ∧
      (p.isSubtype c d = true ↔ ReflTransGen p.HasParent c d)) ∧
    (∀ c d, c ∈ p.directSubtypes d ↔ p.HasParent c d) ∧
    (∀ c, (p.allParents c).Sublist p.classIds ∧ (p.allSubtypes c).Sublist p.classIds ∧
      (p.directSubtypes c).Sublist p.classIds) ∧
    IsPartialOrder ClassId (fun c d => p.isSubtype c d = true) ∧
    ∃ root, p.findClass? rootClassName = some root ∧ ∀ c ∈ p.classIds, p.isSubtype c root = true := by
  have h := (build_underway hp).rooted
  obtain ⟨root, hroot, hbelow⟩ := h.root
  refine ⟨fun c hc d hd => ?_, fun c d => ?_, fun c => ?_, h.acyclic.isPartialOrder h.link, root, hroot,
    fun c hc => (isSubtype_iff h.link).2 (hbelow c (mem_classIds.1 hc))⟩
  · rw [← inherits_iff_hasParent hp]
    exact ⟨mem_allParents_iff h.link (mem_classIds.1 hc), mem_allSubtypes_iff h.link hd,
      isSubtype_iff h.link⟩
  · rw [mem_directSubtypes_iff h.link, mem_parents_iff_hasParent hp]
  · exact ⟨p.classSet_sublist _, p.classSet_sublist _, p.classSet_sublist _⟩

/-- A class that shares an interface with its superclass is a subtype of it once; the root is above all
classes. -/
theorem subtypes_ordered_shared : ∃ p, (build .shared).1 = .ok p ∧
    ReflTransGen p.HasParent ⟨0⟩ ⟨3⟩ ∧ ¬ReflTransGen p.HasParent ⟨1⟩ ⟨2⟩ ∧
    (∀ c, p.HasParent c ⟨3⟩ ↔ c = ⟨1⟩ ∨ c = ⟨2⟩) ∧
    ∀ c ∈ p.classIds, ReflTransGen p.HasParent c ⟨4⟩ := by
  have hrun : ∃ p, (build .shared).1 = .ok p ∧
      p.classes.size = 5 ∧ p.findClass? rootClassName = some ⟨4⟩ ∧
      ⟨3⟩ ∈ p.allParents ⟨0⟩ ∧ ⟨1⟩ ∉ p.allSubtypes ⟨2⟩ ∧ p.directSubtypes ⟨3⟩ = [⟨1⟩, ⟨2⟩] := by
    decide +kernel
  obtain ⟨p, hp, hsize, hfind, hparents, hsubtypes, hdirect⟩ := hrun
  obtain ⟨hpaths, hlinks, -, -, root, hroot, hgreatest⟩ := subtypes_ordered hp
  obtain rfl : root = ⟨4⟩ := Option.some.inj (hroot.symm.trans hfind)
  have hclass {n : Nat} (hn : n < 5) : (⟨n⟩ : ClassId) ∈ p.classIds := mem_classIds.2 (hsize ▸ hn)
  refine ⟨p, hp, ?_, ?_, fun c => ?_, fun c hc => ?_⟩
  · exact (hpaths ⟨0⟩ (hclass (by decide)) ⟨3⟩ (hclass (by decide))).1.1 hparents
  · exact fun hpath => hsubtypes ((hpaths ⟨1⟩ (hclass (by decide)) ⟨2⟩ (hclass (by decide))).2.1.2 hpath)
  · rw [← hlinks, hdirect]
    simp
  · exact (hpaths c hc ⟨4⟩ (hclass (by decide))).2.2.1 (hgreatest c hc)

end Program

end PointsTo
