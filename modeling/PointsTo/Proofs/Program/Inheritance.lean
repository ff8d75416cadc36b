import PointsTo.Proofs.Program.Ancestry
import PointsTo.Proofs.Program.Deciding
import PointsTo.Proofs.Program.Validity

/-! # The hierarchy of a definition

The first phases of the construction in terms of the definition: classes are defined, linked to their
parents, and linked to the root if they have none. `Depicts` says which classes and links a program under
construction has by then, by names. The closed hierarchy is acyclic exactly if the declared one is and the
root declares no parent.
-/

namespace PointsTo

open Relation (ReflTransGen TransGen)

namespace Program

/-- The program has classes of the given names, and links between them. The first `n` classes are
defined. -/
structure Connects (n : Nat) (known : String → Prop) (links : String → List (String × LinkKind))
    (p : Program) : Prop where
  layered : p.Layered n
  names : ∀ x, x ∈ p.classNames ↔ known x
  links : ∀ x, p.linksFrom x = links x

/-- The program has the given classes without their members, and further classes that are only referred
to, with links between them. -/
structure Depicts (cs : List ClassDef) (known : String → Prop)
    (links : String → List (String × LinkKind)) (p : Program) : Prop extends
    Connects cs.length known links p where
  hierarchy : p.IsHierarchy
  defined : ∀ (i : Nat) c, cs[i]? = some c → p.classAt ⟨i⟩ = c.header

namespace Depicts

variable {cs : List ClassDef} {known : String → Prop} {links : String → List (String × LinkKind)}
  {p q : Program}

/-- Names and links may be described in another way. -/
theorem congr (h : p.Depicts cs known links) {known' : String → Prop}
    {links' : String → List (String × LinkKind)} (hknown : ∀ x, known x ↔ known' x)
    (hlinks : ∀ x, links x = links' x) : p.Depicts cs known' links' :=
  ⟨⟨h.layered, fun x => (h.names x).trans (hknown x), fun x => (h.links x).trans (hlinks x)⟩,
    h.hierarchy, h.defined⟩

/-- A defined class is in the table, under its name. -/
theorem class_of_getElem? (h : p.Depicts cs known links) {c : ClassId} {x : ClassDef}
    (hc : cs[c.idx]? = some x) :
    c.idx < cs.length ∧ c.idx < p.classes.size ∧ (p.classAt c).name = x.name := by
  have hlt := (List.getElem?_eq_some_iff.1 hc).1
  exact ⟨hlt, Nat.lt_of_lt_of_le hlt h.layered.le, congrArg Class.name (h.defined c.idx x hc)⟩

/-- No class has the name unless it is known. -/
theorem isSome_findClass?_iff (h : p.Depicts cs known links) (x : String) :
    (p.findClass? x).isSome = true ↔ known x := by
  rw [← h.names, ← not_iff_not, ← h.layered.findClass?_eq_none_iff, Bool.not_eq_true,
    Option.isSome_eq_false_iff, Option.isNone_iff_eq_none]

/-- Classes that are mentioned are known afterwards. -/
theorem mentions (h : p.Depicts cs known links) {names : List String} (hq : Mentions names p q) :
    q.Depicts cs (fun x => known x ∨ x ∈ names) links := by
  refine ⟨⟨hq.layered h.layered, fun x => ?_, fun x => ?_⟩, ?_, fun i c hc => ?_⟩
  · obtain ⟨new, rfl, -, hnew⟩ := hq
    rw [classNames_pushPhantoms, List.mem_append, hnew, h.names]
    tauto
  · obtain ⟨new, rfl, -⟩ := hq
    rw [linksFrom_pushPhantoms h.layered, h.links]
  · obtain ⟨new, rfl, -⟩ := hq
    obtain ⟨classes, links, rfl⟩ := h.hierarchy
    exact ⟨_, _, rfl⟩
  · obtain ⟨new, rfl, -⟩ := hq
    rw [classAt_pushPhantoms (h.class_of_getElem? (c := ⟨i⟩) hc).2.1]
    exact h.defined i c hc

/-- A class without links has no superclass. -/
theorem superclass?_eq_none (h : p.Depicts cs known links) {c : ClassId} {x : ClassDef}
    (hc : cs[c.idx]? = some x) (hfree : links x.name = []) : p.superclass? c = none := by
  obtain ⟨-, hlt, hname⟩ := h.class_of_getElem? hc
  have hparents := h.layered.parents c hlt
  rw [h.links, hname, hfree, List.map_nil, List.map_eq_nil_iff] at hparents
  exact superclass?_eq_none_of_parents hparents

/-- A defined class gets a link to a parent. -/
theorem pushLink (h : p.Depicts cs known links) {c k : ClassId} {x : ClassDef} {name : String}
    (hc : cs[c.idx]? = some x) (hk : p.findClass? name = some k) (kind : LinkKind) :
    (p.pushLinks [⟨c, k, kind⟩]).Depicts cs known
      fun y => links y ++ if x.name = y then [(name, kind)] else [] := by
  obtain ⟨hlt, hsize, hname⟩ := h.class_of_getElem? hc
  obtain ⟨hparent, rfl⟩ := h.layered.findClass?_eq_some_iff.1 hk
  refine ⟨⟨h.layered.pushLinks (by simp [hsize, hparent, hlt]), h.names, fun y => ?_⟩,
    h.hierarchy.pushLinks _, h.defined⟩
  rw [linksFrom_pushLinks, h.links, linkNames, List.filter_singleton, hname]
  by_cases hy : x.name = y
  · simp [hy]
  · simp [hy]

end Depicts

end Program

namespace Builder

open Program (Depicts Mentions)

variable {cs : List ClassDef} {known : String → Prop} {links : String → List (String × LinkKind)}
  {d : Draft}

/-! ## Classes -/

/-- A program of nothing but defined classes with different names. -/
theorem depicts_defined {cs : List ClassDef} (h : (cs.map (·.name)).Nodup) :
    Depicts cs (· ∈ cs.map (·.name)) (fun _ => [])
      { Program.empty with classes := (cs.map (·.header)).toArray } := by
  have hnames : Program.classNames { Program.empty with classes := (cs.map (·.header)).toArray } =
      cs.map (·.name) := by
    rw [Program.classNames_eq, List.map_map]
    rfl
  refine ⟨⟨⟨by simp, hnames ▸ h, fun c hn hlt => ?_, by simp [Program.empty], by simp [Program.empty],
    by simp [Program.empty]⟩, fun x => by rw [hnames], fun x => rfl⟩, ⟨_, _, rfl⟩, fun i c hc => ?_⟩
  · simp only [List.size_toArray, List.length_map] at hlt
    omega
  · simp [Program.classAt, Array.getD_eq_getD_getElem?, hc]

/-- Classes with different names are defined one after the other. -/
theorem decides_defineClasses (cs : List ClassDef) (log : Log) :
    Decides (cs.mapM defineClass) ⟨.empty, log⟩ (cs.map (·.name)).Nodup fun ids d' =>
      ids = (List.range cs.length).map ClassId.mk ∧
        d'.program.Depicts cs (· ∈ cs.map (·.name)) fun _ => [] := by
  -- The invariant is that the table has just the classes that were defined, in order.
  have hloop : Decides (cs.mapM defineClass) ⟨.empty, log⟩
      (Each cs fun before c => c.name ∉ before.map (·.name)) fun ids d' =>
        (cs.map (·.name)).Nodup ∧ ids = (List.range cs.length).map ClassId.mk ∧
          d'.program = { Program.empty with classes := (cs.map (·.header)).toArray } := by
    refine Decides.mapM (I := fun (cs : List ClassDef) ids d' => (cs.map (·.name)).Nodup ∧
      ids = (List.range cs.length).map ClassId.mk ∧
      d'.program = { Program.empty with classes := (cs.map (·.header)).toArray }) ?_
        (d := ⟨.empty, log⟩) ⟨.nil, rfl, rfl⟩
    rintro before c after - ids ⟨p, log⟩ ⟨hnodup, rfl, rfl⟩
    have hknown := (depicts_defined hnodup).isSome_findClass?_iff c.name
    refine Decides.of_run (run_defineClass (by simp [Program.AllDefined, ClassDef.header])) ?_
    refine .program ?_
    refine (Decides.unless (P := True) (fun _ => Refuses.bind (.throw rfl)) fun h => ?_).congr ?_
    -- A class with a new name is added at the end.
    · have hadd : Yields (do
          report .trace ("pushing '" ++ c.name ++ "' in program")
          addClass c.header) ⟨{ Program.empty with classes := (before.map (·.header)).toArray }, log⟩
            fun id d' => id = ⟨before.length⟩ ∧
              d'.program = { Program.empty with classes := ((before ++ [c]).map (·.header)).toArray } := by
        simp [addClass_eq]
      refine (Yields.mono hadd ?_).decides
      rintro id d' ⟨rfl, hd'⟩
      refine ⟨?_, ?_, hd'⟩
      · rw [List.map_append]
        exact hnodup.append (by simp) (by simpa using mt hknown.2 h)
      · simp [List.range_succ]
    · rw [and_true, hknown]
  refine (hloop.congr each_notMem.symm).mono ?_
  rintro ids ⟨p, log⟩ ⟨hnodup, rfl, rfl⟩
  exact ⟨rfl, depicts_defined hnodup⟩

/-! ## Links -/

/-- A class is there and known, after it was mentioned. -/
theorem yields_mentioned (h : d.program.Depicts cs known links) (name : String) :
    Yields (classOrPhantom name) d fun k d' =>
      d'.program.Depicts cs (fun y => known y ∨ y ∈ [name]) links ∧
        d'.program.findClass? name = some k ∧ k.idx < d'.program.classes.size := by
  refine (yields_classOrPhantom h.layered name).mono ?_
  rintro k d' ⟨hmentions, hk⟩
  have h' := h.mentions hmentions
  exact ⟨h', hk, (h'.layered.findClass?_eq_some_iff.1 hk).1⟩

/-- Linking a defined class to an interface always succeeds. -/
theorem yields_linkInterface (h : d.program.Depicts cs known links) {c : ClassId} {x : ClassDef}
    (hc : cs[c.idx]? = some x) (name : String) :
    Yields (linkInterface c name) d fun _ d' =>
      d'.program.Depicts cs (fun y => known y ∨ y ∈ [name])
        fun y => links y ++ if x.name = y then [(name, .implements)] else [] := by
  rw [linkInterface, yields_bind]
  refine (yields_mentioned h name).mono ?_
  rintro k d' ⟨h', hk, hlt⟩
  refine (yields_addLink (h'.class_of_getElem? hc).2.1 hlt .implements).mono fun _ d'' hd'' => ?_
  rw [hd'']
  exact h'.pushLink hc hk .implements

/-- A defined class that has no links yet can be linked to its superclass. -/
theorem yields_linkSuperclass (h : d.program.Depicts cs known links) {c : ClassId} {x : ClassDef}
    (hc : cs[c.idx]? = some x) (hfree : links x.name = []) :
    Yields (linkSuperclass c x.superclass) d fun _ d' =>
      d'.program.Depicts cs (fun y => known y ∨ y ∈ x.superclass.toList)
        fun y => links y ++ if x.name = y then x.superclass.toList.map (·, .extends) else [] := by
  cases x.superclass with
  | none => exact yields_pure.2 (h.congr (by simp) (by simp))
  | some name =>
      rw [linkSuperclass, yields_bind]
      refine (yields_mentioned h name).mono ?_
      rintro k d' ⟨h', hk, hlt⟩
      have hnone := h'.superclass?_eq_none hc hfree
      refine (yields_addSuperclass hnone (h'.class_of_getElem? hc).2.1 hlt).mono fun _ d'' hd'' => ?_
      rw [hd'']
      exact h'.pushLink hc hk .extends

/-- A class is linked to the parents that it declares. -/
theorem yields_linkParents (h : d.program.Depicts cs known links) {c : ClassId} {x : ClassDef}
    (hc : cs[c.idx]? = some x) (hfree : links x.name = []) : Yields (do
      linkSuperclass c x.superclass
      x.interfaces.forM (linkInterface c)) d fun _ d' =>
        d'.program.Depicts cs (fun y => known y ∨ y ∈ x.links.map (·.1))
          fun y => links y ++ if x.name = y then x.links else [] := by
  rw [yields_bind]
  refine (yields_linkSuperclass h hc hfree).mono fun _ d' h' => ?_
  refine (Yields.forM (I := fun done d'' => d''.program.Depicts cs
    -- Behind the superclass, the interfaces are linked in order.
    (fun y => (known y ∨ y ∈ x.superclass.toList) ∨ y ∈ done) fun y =>
      (links y ++ if x.name = y then x.superclass.toList.map (·, .extends) else []) ++
        if x.name = y then done.map (·, .implements) else []) ?_ (h'.congr (by simp) (by simp))).mono ?_
  · intro name _ done d'' h''
    refine (yields_linkInterface h'' hc name).mono fun _ d₃ h₃ => h₃.congr (fun y => ?_) fun y => ?_
    · simp only [List.mem_append]
      tauto
    · split <;> simp
  · intro _ d'' h''
    refine h''.congr (fun y => ?_) fun y => ?_
    · simp [ClassDef.links, or_assoc]
    · split <;> simp [ClassDef.links]

/-- A statement is gone through if the type that it allocates can be read. -/
theorem decides_mentionAllocated {n : Nat} (s : StmtDef) (h : d.program.Layered n) :
    Decides (mentionAllocated s) d (Legible s) fun _ d' =>
      Mentions (mentioned? s).toList d.program d'.program := by
  by_cases hlegible : Legible s
  · exact (yields_mentionAllocated hlegible h).decides.congr (iff_true_intro hlegible)
  · refine (Refuses.decides ?_).congr (iff_false_intro hlegible)
    cases s with
    | new lhs type =>
        refine Refuses.bind ?_
        unfold readType
        split
        · rename_i t ht
          exact absurd ⟨t, ht⟩ hlegible
        · exact .throw rfl
    | _ => exact absurd trivial hlegible

/-- A class that has no links yet is linked if the types of the objects that its methods allocate can be
read. -/
theorem decides_linkClass (h : d.program.Depicts cs known links) {c : ClassId} {x : ClassDef}
    (hc : cs[c.idx]? = some x) (hfree : links x.name = []) :
    Decides (linkClass c x) d (∀ s ∈ x.stmts, Legible s) fun _ d' =>
      d'.program.Depicts cs (fun y => known y ∨ y ∈ x.mentions)
        fun y => links y ++ if x.name = y then x.links else [] := by
  have hshape : linkClass c x = (do
      linkSuperclass c x.superclass
      x.interfaces.forM (linkInterface c)) >>= fun _ => x.stmts.forM mentionAllocated := by
    rw [linkClass, bind_assoc]
    rfl
  rw [hshape]
  refine ((yields_linkParents h hc hfree).decides.bind fun _ _ d' h' => ?_).congr (by rw [true_and])
  refine ((Decides.forM (P := fun _ => Legible) (I := fun done d'' => d''.program.Depicts cs
    (fun y => (known y ∨ y ∈ x.links.map (·.1)) ∨ y ∈ done.filterMap mentioned?)
      fun y => links y ++ if x.name = y then x.links else []) ?_
        (h'.congr (by simp) fun _ => rfl)).congr each_const.symm).mono ?_
  -- each statement mentions one class more, or none
  · intro done s after _ d'' h''
    refine (decides_mentionAllocated s h''.layered).mono fun _ d₃ hmentions => ?_
    refine (h''.mentions hmentions).congr (fun y => ?_) fun _ => rfl
    rw [List.filterMap_append, List.mem_append, show [s].filterMap mentioned? = (mentioned? s).toList by
      cases hm : mentioned? s <;> simp [hm], or_assoc (c := y ∈ _)]
  · intro _ d'' h''
    refine h''.congr (fun y => ?_) fun _ => rfl
    rw [ClassDef.mentions, List.mem_append, or_assoc]

/-- Classes with their numbers. -/
def numberedClasses (cs : List ClassDef) : List (ClassId × ClassDef) :=
  ((List.range cs.length).map ClassId.mk).zip cs

theorem map_snd_numberedClasses (cs : List ClassDef) :
    (numberedClasses cs).map (·.2) = cs :=
  List.map_snd_zip (by simp)

/-- Classes are numbered differently. -/
theorem nodup_numberedClasses (cs : List ClassDef) : ((numberedClasses cs).map (·.1)).Nodup := by
  rw [numberedClasses, List.map_fst_zip (by simp)]
  exact List.Nodup.map (fun _ _ h => congrArg ClassId.idx h) List.nodup_range

/-- A class is at its number. -/
theorem getElem?_of_mem_numberedClasses {cs : List ClassDef} {c : ClassId × ClassDef}
    (h : c ∈ numberedClasses cs) : cs[c.1.idx]? = some c.2 := by
  obtain ⟨i, hi⟩ := List.mem_iff_getElem?.1 h
  obtain ⟨hid, hx⟩ := List.getElem?_zip_eq_some.1 hi
  rw [List.getElem?_map] at hid
  obtain ⟨j, hj, heq⟩ := Option.map_eq_some_iff.1 hid
  obtain ⟨hlt, rfl⟩ := List.getElem?_eq_some_iff.1 hj
  rw [← heq, List.getElem_range]
  exact hx

/-- All classes are linked if the types of all objects can be read. -/
theorem decides_linkClasses (hnames : (cs.map (·.name)).Nodup)
    (h : d.program.Depicts cs (· ∈ cs.map (·.name)) fun _ => []) :
    Decides ((numberedClasses cs).forM fun c => linkClass c.1 c.2) d
      (∀ c ∈ cs, ∀ s ∈ c.stmts, Legible s) fun _ d' =>
        d'.program.Depicts cs (fun y => y ∈ cs.map (·.name) ∨ y ∈ cs.flatMap (·.mentions))
          fun y => (cs.filter (·.name = y)).flatMap (·.links) := by
  refine ((Decides.forM (P := fun _ c => ∀ s ∈ c.2.stmts, Legible s)
    (I := fun done d' => d'.program.Depicts cs
      (fun y => y ∈ cs.map (·.name) ∨ y ∈ (done.map (·.2)).flatMap (·.mentions))
      fun y => ((done.map (·.2)).filter (·.name = y)).flatMap (·.links)) ?_
    (h.congr (by simp) fun _ => rfl)).congr ?_).mono ?_
  · intro done c after hsplit d' h'
    have hmem : c ∈ numberedClasses cs := by simp [hsplit]
    have hc := getElem?_of_mem_numberedClasses hmem
    -- no class of the name was linked before
    have hfree : ((done.map (·.2)).filter (·.name = c.2.name)).flatMap (·.links) = [] := by
      rw [← map_snd_numberedClasses cs, hsplit, List.map_append, List.map_append, List.map_cons,
        List.map_cons] at hnames
      have hnew := (List.nodup_append.1 hnames).2.2
      rw [List.filter_eq_nil_iff.2, List.flatMap_nil]
      intro x hx
      simpa using hnew x.name (List.mem_map_of_mem hx) c.2.name (List.mem_cons_self ..)
    refine (decides_linkClass h' hc hfree).mono fun _ d'' h'' => h''.congr (fun y => ?_) fun y => ?_
    · simp [or_assoc]
    · rw [List.map_append, List.filter_append, List.flatMap_append, List.map_singleton,
        List.filter_singleton]
      by_cases hy : c.2.name = y <;> simp [hy]
  · rw [each_const]
    conv_lhs => rw [← map_snd_numberedClasses cs]
    rw [List.forall_mem_map]
  · rw [map_snd_numberedClasses]
    exact fun _ _ h' => h'

/-! ## The closed hierarchy -/


end Builder

namespace Program

/-! ## Paths, by names -/

section Layered

variable {n : Nat} {p : Program} (h : p.Layered n)

include h

/-- The parents of a class, by names. -/
theorem Layered.mem_parents_iff {c e : ClassId} (hc : c.idx < p.classes.size)
    (he : e.idx < p.classes.size) : e ∈ p.parents c ↔
      (p.classAt e).name ∈ (p.linksFrom (p.classAt c).name).map (·.1) := by
  rw [← h.parents c hc]
  refine ⟨List.mem_map_of_mem, fun hmem => ?_⟩
  obtain ⟨k, hk, hname⟩ := List.mem_map.1 hmem
  rwa [← h.eq_of_name (h.parents_lt hk) he hname]

/-- Links lead from classes of the table to classes of the table. -/
theorem Layered.links_lt {l : Link} (hl : l ∈ p.links) :
    l.child.idx < p.classes.size ∧ l.parent.idx < p.classes.size :=
  ⟨h.child l hl, h.parent l hl⟩

/-- A link between two names is one between two classes. -/
theorem Layered.exists_parent {x y : String} (hxy : y ∈ (p.linksFrom x).map (·.1)) :
    ∃ c e, c.idx < p.classes.size ∧ (p.classAt c).name = x ∧ (p.classAt e).name = y ∧
      e ∈ p.parents c := by
  rw [linksFrom, linkNames, List.map_map] at hxy
  obtain ⟨l, hl, rfl⟩ := List.mem_map.1 hxy
  obtain ⟨hmem, hchild⟩ := List.mem_filter.1 hl
  have hlinks := Array.mem_toList_iff.1 hmem
  refine ⟨l.child, l.parent, h.child l hlinks, of_decide_eq_true hchild, rfl, ?_⟩
  exact mem_parents.2 ⟨l, hlinks, rfl, rfl⟩

end Layered

namespace Connects

variable {n : Nat} {d : ProgramDef} {p : Program} (h : p.Connects n (· ∈ d.names) d.links)

include h

/-- Parents are the ends of the links that the definition has. -/
theorem mem_parents_iff {c e : ClassId} (hc : c.idx < p.classes.size) (he : e.idx < p.classes.size) :
    e ∈ p.parents c ↔ d.IsParent (p.classAt c).name (p.classAt e).name := by
  rw [h.layered.mem_parents_iff hc he, h.links, ProgramDef.IsParent]

/-- Paths of links between classes are paths between their names. -/
theorem inherits_iff {c e : ClassId} (hc : c.idx < p.classes.size) (he : e.idx < p.classes.size) :
    p.Inherits c e ↔ d.Inherits (p.classAt c).name (p.classAt e).name := by
  constructor
  -- a path of links is followed from its start; names determine the classes on it
  · intro hpath
    induction hpath with
    | refl => exact .refl
    | tail hpath hparent ih =>
        have hlt := Inherits.lt (fun _ => h.layered.links_lt) hpath hc
        exact (ih hlt).tail ((h.mem_parents_iff hlt he).1 hparent)
  · intro hpath
    generalize hy : (p.classAt e).name = y at hpath
    induction hpath generalizing e with
    | refl =>
        rw [h.layered.eq_of_name he hc hy]
        exact .refl
    | tail _ hparent ih =>
        subst hy
        rw [ProgramDef.IsParent, ← h.links] at hparent
        obtain ⟨k, e', hk, rfl, he', hmem⟩ := h.layered.exists_parent hparent
        rw [h.layered.eq_of_name (h.layered.parents_lt hmem) he he'] at hmem
        exact (ih hk rfl).tail hmem

/-- The hierarchy is acyclic exactly if no name is above itself. -/
theorem acyclic_iff_names : p.Acyclic ↔ ∀ x, ¬TransGen d.IsParent x x := by
  constructor
  · intro hacyclic x hcycle
    obtain ⟨y, hxy, hyx⟩ := TransGen.head'_iff.1 hcycle
    rw [ProgramDef.IsParent, ← h.links] at hxy
    obtain ⟨c, e, hc, rfl, rfl, hmem⟩ := h.layered.exists_parent hxy
    exact hacyclic c (.head' hmem ((h.inherits_iff (h.layered.parents_lt hmem) hc).2 hyx))
  · intro hacyclic c hcycle
    obtain ⟨e, hmem, hpath⟩ := TransGen.head'_iff.1 hcycle
    have he := h.layered.parents_lt hmem
    have hc := Inherits.lt (fun _ => h.layered.links_lt) hpath he
    exact hacyclic _ (.head' ((h.mem_parents_iff hc he).1 hmem) ((h.inherits_iff he hc).1 hpath))

/-- Every class but the root has a parent. -/
theorem parents_ne_nil {root c : ClassId} (hroot : p.findClass? rootClassName = some root)
    (hc : c.idx < p.classes.size) (hne : c ≠ root) : p.parents c ≠ [] := by
  obtain ⟨hlt, hname⟩ := h.layered.findClass?_eq_some_iff.1 hroot
  have hcname : (p.classAt c).name ≠ rootClassName := fun heq =>
    hne (h.layered.eq_of_name hc hlt (heq.trans hname.symm))
  have hmem : (p.classAt c).name ∈ d.names :=
    (h.names _).1 (List.mem_map.2 ⟨c, mem_classIds.2 hc, rfl⟩)
  intro hnil
  have hnone := h.layered.parents c hc
  rw [hnil, List.map_nil, h.links, ProgramDef.links] at hnone
  split at hnone
  · cases hnone
  · rename_i hlinks
    exact hlinks ⟨List.map_eq_nil_iff.1 hnone.symm, hmem, hcname⟩

/-- Every class inherits from the root, if the hierarchy is acyclic. -/
theorem inherits_root (hacyclic : p.Acyclic) {root c : ClassId}
    (hroot : p.findClass? rootClassName = some root) (hc : c.idx < p.classes.size) :
    p.Inherits c root :=
  hacyclic.inherits_root (fun _ => h.layered.links_lt)
    (fun _ hk hne => h.parents_ne_nil hroot hk hne) hc

end Connects

end Program

/-! ## The closed hierarchy -/

namespace ProgramDef

variable {d : ProgramDef} {x y : String}

/-- A class declares the parents that its links name. -/
theorem declaresParent_iff : d.DeclaresParent x y ↔ y ∈ (d.declaredLinks x).map (·.1) := by
  simp only [DeclaresParent, declaredLinks, List.map_flatMap, List.mem_flatMap, List.mem_filter,
    decide_eq_true_eq, and_assoc]

/-- Links that are declared are kept. -/
theorem isParent_of_declaresParent (h : d.DeclaresParent x y) : d.IsParent x y := by
  rw [declaresParent_iff] at h
  rw [IsParent, links, if_neg]
  · exact h
  · rintro ⟨hnil, -⟩
    rw [hnil] at h
    cases h

/-- Links that are added lead from other classes to the root. -/
theorem IsParent.cases (h : d.IsParent x y) :
    d.DeclaresParent x y ∨ x ≠ rootClassName ∧ y = rootClassName := by
  rw [IsParent, links] at h
  split at h
  · rename_i hadded
    exact Or.inr ⟨hadded.2.2, List.mem_singleton.1 h⟩
  · exact Or.inl (declaresParent_iff.2 h)

/-- Without parents of the root, only declared links are on paths to other classes. -/
theorem path_declared (hroot : ∀ x, ¬d.DeclaresParent rootClassName x)
    (h : TransGen d.IsParent x y) (hy : y ≠ rootClassName) : TransGen d.DeclaresParent x y := by
  induction h with
  | single h => exact .single (h.cases.resolve_right fun hadded => hy hadded.2)
  | tail _ hstep ih =>
      have hdeclared := hstep.cases.resolve_right fun hadded => hy hadded.2
      refine (ih ?_).tail hdeclared
      rintro rfl
      exact hroot _ hdeclared

end ProgramDef

/-- The closed hierarchy is acyclic exactly if the declared one is and the root declares no parent. -/
theorem Program.Connects.acyclic_iff {n : Nat} {d : ProgramDef} {p : Program}
    (h : p.Connects n (· ∈ d.names) d.links) : p.Acyclic ↔
      (∀ x, ¬TransGen d.DeclaresParent x x) ∧ ∀ x, ¬d.DeclaresParent rootClassName x := by
  constructor
  · intro hacyclic
    have hnames := h.acyclic_iff_names.1 hacyclic
    refine ⟨fun x hcycle => hnames x ?_, fun x hx => ?_⟩
    · exact hcycle.lift id fun _ _ => ProgramDef.isParent_of_declaresParent
    -- a parent of the root inherits from the root
    have hparent := ProgramDef.isParent_of_declaresParent hx
    rw [ProgramDef.IsParent, ← h.links] at hparent
    obtain ⟨root, e, hlt, hroot, -, hmem⟩ := h.layered.exists_parent hparent
    have hfind := h.layered.findClass?_eq_some_iff.2 ⟨hlt, hroot⟩
    exact hacyclic root (.head' hmem (h.inherits_root hacyclic hfind (h.layered.parents_lt hmem)))
  · rintro ⟨hacyclic, hroot⟩
    rw [h.acyclic_iff_names]
    intro x hcycle
    refine hacyclic x (ProgramDef.path_declared hroot hcycle ?_)
    rintro rfl
    -- no path starts at the root
    obtain ⟨y, hy, -⟩ := TransGen.head'_iff.1 hcycle
    rcases hy.cases with hdeclared | hadded
    · exact hroot y hdeclared
    · exact hadded.1 rfl

/-- A list without duplicates has a member once, or not at all. -/
theorem length_filter_eq_of_nodup {α : Type} [DecidableEq α] {l : List α} (h : l.Nodup) (a : α) :
    (l.filter (· = a)).length = if a ∈ l then 1 else 0 := by
  have hcount : (l.filter (· = a)).length = l.count a := by
    rw [← List.countP_eq_length_filter, List.count_eq_countP]
    exact List.countP_congr fun x _ => by simp
  rw [hcount]
  split
  · rename_i hmem
    exact List.count_eq_one_of_mem h hmem
  · rename_i hmem
    exact List.count_eq_zero_of_not_mem hmem

/-- When classes without a parent inherit from the root, the links are those of the definition. -/
theorem Program.Depicts.adopt {d : ProgramDef} {p : Program}
    (h : p.Depicts d.classes (· ∈ d.names) d.declaredLinks) {root : ClassId}
    (hroot : p.findClass? rootClassName = some root) :
    (p.pushLinks (p.orphanLinks root)).Depicts d.classes (· ∈ d.names) d.links := by
  obtain ⟨hlt, hname⟩ := h.layered.findClass?_eq_some_iff.1 hroot
  refine ⟨⟨h.layered.pushLinks fun l hl => ?_, h.names, fun x => ?_⟩, h.hierarchy.pushLinks _,
    h.defined⟩
  · obtain ⟨c, hc, rfl⟩ := List.mem_map.1 hl
    exact ⟨mem_classIds.1 (List.mem_filter.1 hc).1, hlt, fun hkind => by cases hkind⟩
  · rw [linksFrom_pushLinks, h.links, h.layered.linkNames_orphanLinks hlt, hname,
      length_filter_eq_of_nodup (h.layered.nodup.filter _), ProgramDef.links]
    -- Those that get a link are the classes without one, but for the root.
    have hadded : x ∈ p.classNames.filter (fun y => y ≠ rootClassName ∧ p.linksFrom y = []) ↔
        d.declaredLinks x = [] ∧ x ∈ d.names ∧ x ≠ rootClassName := by
      rw [List.mem_filter, h.names, h.links, decide_eq_true_eq]
      tauto
    by_cases hx : d.declaredLinks x = [] ∧ x ∈ d.names ∧ x ≠ rootClassName
    · rw [if_pos (hadded.2 hx), if_pos hx, hx.1]
      rfl
    · rw [if_neg fun hmem => hx (hadded.1 hmem), if_neg hx, List.replicate_zero, List.append_nil]

/-- The hierarchy is closed if it is acyclic with all classes below the root. -/
theorem Builder.decides_closeHierarchy {x : ProgramDef} {d : Draft}
    (h : d.program.Depicts x.classes
      (fun y => y ∈ x.classes.map (·.name) ∨ y ∈ x.classes.flatMap (·.mentions)) x.declaredLinks) :
    Decides closeHierarchy d
      ((∀ y, ¬TransGen x.DeclaresParent y y) ∧ ∀ y, ¬x.DeclaresParent rootClassName y) fun _ d' =>
        d'.program.Depicts x.classes (· ∈ x.names) x.links ∧ d'.program.Acyclic := by
  -- The root is there or becomes a phantom class.
  have hroot : Yields (classOrPhantom rootClassName) d fun root d' =>
      d'.program.Depicts x.classes (· ∈ x.names) x.declaredLinks ∧
        d'.program.findClass? rootClassName = some root ∧ root.idx < d'.program.classes.size := by
    refine (yields_mentioned h rootClassName).mono fun root d' ⟨h', hfind⟩ => ?_
    refine ⟨h'.congr (fun y => ?_) fun _ => rfl, hfind⟩
    simp only [ProgramDef.names, List.mem_append]
  refine (hroot.decides.bind fun _ root d' ⟨h', hfind, hlt⟩ => .program ?_).congr (by rw [true_and])
  refine ((yields_adoptOrphans hlt).decides.bind fun _ _ d'' hd'' => .program ?_).congr
    (by rw [true_and])
  -- What has no links then gets one to the root.
  have h'' : d''.program.Depicts x.classes (· ∈ x.names) x.links := by
    rw [hd'']
    exact h'.adopt hfind
  have hcyclic := Program.isCyclic_eq_false_iff (p := d''.program) fun _ => h''.layered.links_lt
  refine (Decides.unless (P := True) (fun _ => .throw rfl)
    fun hnot => .pure ⟨h'', hcyclic.1 (Bool.not_eq_true _ ▸ hnot)⟩).congr ?_
  rw [and_true, Bool.not_eq_true, hcyclic, h''.toConnects.acyclic_iff]

end PointsTo
