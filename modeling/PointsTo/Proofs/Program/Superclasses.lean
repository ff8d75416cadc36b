import PointsTo.Proofs.Program.Dispatch

/-! # Chains of superclasses

A class inherits from the root if it declares no parent. A class that declares interfaces and no superclass
has a parent, so it gets no superclass either: its chain ends with itself, and the methods of the root are
not found for it. Every other chain ends at the root.
-/

namespace PointsTo

/-- A root with a method, a class that only has an interface, a class below it, and one without parents. -/
def ProgramDef.implementer : ProgramDef :=
  ⟨none, [⟨rootClassName, none, [], false, false, [],
      [⟨"notify", [], "V", false, false, true, [], []⟩]⟩,
    ⟨"A", none, ["I"], false, false, [], []⟩, ⟨"I", none, [], true, false, [], []⟩,
    ⟨"B", some "A", [], false, false, [], []⟩, ⟨"C", none, [], false, false, [], []⟩]⟩

/-- The link to a superclass among the links of a definition is the one that it names. -/
theorem ClassDef.extends_mem_links {c : ClassDef} {y : String} :
    (y, .extends) ∈ c.links ↔ c.superclass = some y := by
  simp [links]

namespace ProgramDef

variable {d : ProgramDef} {x : String}

/-- The class of the name is declared with interfaces and without a superclass. -/
def OnlyImplements (d : ProgramDef) (x : String) : Prop :=
  ∃ c ∈ d.classes, c.name = x ∧ c.superclass = none ∧ c.interfaces ≠ []

/-- The links of a defined class are those of its one definition. -/
theorem declaredLinks_name (hnames : (d.classes.map (·.name)).Nodup) {c : ClassDef}
    (hc : c ∈ d.classes) : d.declaredLinks c.name = c.links := by
  have hsame : d.classes.filter (·.name = c.name) = d.classes.filter (· = c) := by
    refine List.filter_congr fun k hk => decide_eq_decide.2 ⟨?_, congrArg ClassDef.name⟩
    exact List.inj_on_of_nodup_map hnames hk hc
  rw [declaredLinks, hsame, List.filter_eq, List.count_eq_one_of_mem hnames.of_map hc]
  exact List.append_nil _

/-- The root declares no parent. -/
theorem declaredLinks_root (hvalid : d.Valid) : d.declaredLinks rootClassName = [] :=
  List.eq_nil_iff_forall_not_mem.2 fun l hl =>
    hvalid.root l.1 (declaresParent_iff.2 (List.mem_map_of_mem hl))

/-- The root has no interfaces in a valid definition. -/
theorem not_onlyImplements_root (hvalid : d.Valid) : ¬d.OnlyImplements rootClassName := by
  rintro ⟨c, hc, hname, -, hinterfaces⟩
  have hnil := declaredLinks_root hvalid
  rw [← hname, declaredLinks_name hvalid.classNames hc] at hnil
  simp [ClassDef.links, hinterfaces] at hnil

/-- A class has no superclass if it is the root, or if all that it declares is interfaces. -/
theorem superclass?_eq_none_iff (hvalid : d.Valid) (hx : x ∈ d.names) :
    d.superclass? x = none ↔ x = rootClassName ∨ d.OnlyImplements x := by
  rw [superclass?, Option.map_eq_none_iff, List.find?_eq_none]
  by_cases hroot : x = rootClassName
  · simp [hroot, links, declaredLinks_root hvalid]
  rw [or_iff_right hroot, links]
  split
  · -- a link to the root is added
    rename_i hadded
    refine iff_of_false (by simp) ?_
    rintro ⟨c, hc, rfl, -, hinterfaces⟩
    rw [declaredLinks_name hvalid.classNames hc] at hadded
    simp [ClassDef.links, hinterfaces] at hadded
  · rename_i hadded
    have hdeclared : d.declaredLinks x ≠ [] := fun hnil => hadded ⟨hnil, hx, hroot⟩
    obtain ⟨l, hl⟩ := List.exists_mem_of_ne_nil _ hdeclared
    obtain ⟨c, hfilter, -⟩ := List.mem_flatMap.1 hl
    obtain ⟨hc, hname⟩ := List.mem_filter.1 hfilter
    obtain rfl := of_decide_eq_true hname
    rw [declaredLinks_name hvalid.classNames hc] at hdeclared ⊢
    -- A name has one definition, so what one of them says holds of all links of the name.
    constructor
    · intro hnone
      have hsuper : c.superclass = none := Option.eq_none_iff_forall_ne_some.2 fun y hy =>
        hnone _ (ClassDef.extends_mem_links.2 hy) (decide_eq_true rfl)
      refine ⟨c, hc, rfl, hsuper, fun hnil => hdeclared ?_⟩
      simp [ClassDef.links, hsuper, hnil]
    · rintro ⟨c', hc', hname', hsuper, -⟩ ⟨y, kind⟩ hl hkind
      obtain rfl := List.inj_on_of_nodup_map hvalid.classNames hc' hc hname'
      obtain rfl := of_decide_eq_true hkind
      rw [ClassDef.extends_mem_links.1 hl] at hsuper
      cases hsuper

end ProgramDef

namespace Program

variable {d : ProgramDef} {p : Program} {c : ClassId} {l : List ClassId}

/-- Exactly the last class of a chain has no superclass. -/
theorem HasChain.exists_last (h : p.HasChain c l) :
    ∃ e, l.getLast? = some e ∧ ∀ k ∈ l, p.superclass? k = none ↔ k = e := by
  induction h with
  | @top c h => exact ⟨c, rfl, fun k hk => by simp [List.mem_singleton.1 hk, h]⟩
  | @up c d l h _ ih =>
      obtain ⟨e, hlast, hiff⟩ := ih
      have he := List.mem_of_getLast? hlast
      refine ⟨e, by rw [List.getLast?_cons, hlast]; rfl, fun k hk => ?_⟩
      rcases List.mem_cons.1 hk with rfl | hk
      · rw [h]
        refine iff_of_false nofun ?_
        rintro rfl
        rw [(hiff k he).2 rfl] at h
        cases h
      · exact hiff k hk

/-- A class of a loaded program has no superclass if it is the root, or if all that it declares is
interfaces. -/
theorem superclass?_eq_none_iff (hp : (build d).1 = .ok p) {root : ClassId}
    (hroot : p.findClass? rootClassName = some root) (hc : c ∈ p.classIds) :
    p.superclass? c = none ↔ c = root ∨ d.OnlyImplements (p.classAt c).name := by
  have hunderway := build_underway hp
  have hconnects := hunderway.realizes.toConnects
  have hname : (p.classAt c).name ∈ d.names := (hconnects.names _).1 (List.mem_map.2 ⟨c, hc, rfl⟩)
  have heq : c = root ↔ (p.classAt c).name = rootClassName := by
    have hfind := hunderway.rooted.find rootClassName c
    rw [hroot, Option.some.injEq, and_iff_right (mem_classIds.1 hc), eq_comm] at hfind
    exact hfind
  rw [heq, ← ProgramDef.superclass?_eq_none_iff (build_valid hp) hname,
    ← hconnects.superclass? (mem_classIds.1 hc), Option.map_eq_none_iff]

/-- If a class of the chain offers a method, then dispatch finds that of a class of the chain. -/
theorem exists_dispatch?_of_mem_superclassChain (h : p.Declared) {k : ClassId} {s : Subsignature}
    {m : MethodId} (hk : k ∈ p.superclassChain c) (hm : p.Offers k s m) :
    ∃ e ∈ p.superclassChain c, ∃ m', p.Offers e s m' ∧ p.dispatch? c s = some m' := by
  rw [dispatch?_eq]
  cases hfound : (p.superclassChain c).findSome? (p.offered? s) with
  | none => exact absurd hm ((findSome?_offered?_eq_none_iff h).1 hfound k hk m)
  | some m' =>
      obtain ⟨before, e, after, hsplit, hoffers, -⟩ := (findSome?_offered?_eq_some_iff h).1 hfound
      exact ⟨e, by simp [hsplit], m', hoffers, Option.some_or⟩

/-- In a loaded program, exactly the root and the classes that are declared with nothing but interfaces
have no superclass. So the chain of superclasses of a class ends at the root exactly if none of its classes
is declared in this way. Then dispatch finds the methods that the root offers, or those of other classes of
the chain for the same calls. -/
theorem superclassChain_ends_at_root (hp : (build d).1 = .ok p) :
    ∃ root, p.findClass? rootClassName = some root ∧ ∀ c ∈ p.classIds,
      (p.superclass? c = none ↔ c = root ∨ d.OnlyImplements (p.classAt c).name) ∧
      ((p.superclassChain c).getLast? = some root ↔
        ∀ k ∈ p.superclassChain c, ¬d.OnlyImplements (p.classAt k).name) ∧
      ((p.superclassChain c).getLast? = some root →
        ∀ s m, p.Offers root s m → ∃ e ∈ p.superclassChain c, ∃ m', p.Offers e s m' ∧
          p.dispatch? c s = some m') := by
  have hunderway := build_underway hp
  have h := hunderway.rooted
  obtain ⟨root, hroot, -⟩ := h.root
  refine ⟨root, hroot, fun c hc => ⟨superclass?_eq_none_iff hp hroot hc, ?_, fun hlast s m hm =>
    exists_dispatch?_of_mem_superclassChain hunderway.declared (List.mem_of_getLast? hlast) hm⟩⟩
  have hmem {k : ClassId} (hk : k ∈ p.superclassChain c) : k ∈ p.classIds :=
    mem_classIds.2 ((inherits_of_mem_superclassChain hk).lt h.link (mem_classIds.1 hc))
  obtain ⟨e, hlast, htop⟩ :=
    ((hasChain_iff h.link h.acyclic (mem_classIds.1 hc)).2 rfl).exists_last
  have he := List.mem_of_getLast? hlast
  rw [hlast, Option.some.injEq]
  constructor
  · -- such a class would be the last one, which is the root
    rintro rfl k hk honly
    obtain rfl := (htop k hk).1 ((superclass?_eq_none_iff hp hroot (hmem hk)).2 (Or.inr honly))
    rw [((h.find _ _).1 hroot).2] at honly
    exact ProgramDef.not_onlyImplements_root (build_valid hp) honly
  -- The last class has no superclass, and it is not one that only implements.
  · intro hnone
    exact ((superclass?_eq_none_iff hp hroot (hmem he)).1 ((htop e he).2 rfl)).resolve_right (hnone e he)

/-- The chain of the class below goes on to the class with the interface and ends there. -/
theorem superclassChain_ends_at_root_implementer : ∃ p, (build .implementer).1 = .ok p ∧
    (p.superclassChain ⟨3⟩).getLast? ≠ some ⟨0⟩ ∧ (p.superclassChain ⟨4⟩).getLast? = some ⟨0⟩ ∧
    ∃ e ∈ p.superclassChain ⟨4⟩, ∃ m, p.Offers e ⟨"notify", [], .void⟩ m ∧
      p.dispatch? ⟨4⟩ ⟨"notify", [], .void⟩ = some m := by
  have hrun : ∃ p, (build .implementer).1 = .ok p ∧
      p.classes.size = 5 ∧ p.findClass? rootClassName = some ⟨0⟩ ∧
      p.superclassChain ⟨3⟩ = [⟨3⟩, ⟨1⟩] ∧ (p.classAt ⟨1⟩).name = "A" ∧
      (p.superclassChain ⟨4⟩).getLast? = some ⟨0⟩ ∧
      p.offered? ⟨"notify", [], .void⟩ ⟨0⟩ = some ⟨0⟩ := by
    decide +kernel
  obtain ⟨p, hp, hsize, hfind, hchain, hname, hlast, hoffered⟩ := hrun
  obtain ⟨root, hroot, hends⟩ := superclassChain_ends_at_root hp
  obtain rfl : root = ⟨0⟩ := Option.some.inj (hroot.symm.trans hfind)
  have hclass {n : Nat} (hn : n < 5) : (⟨n⟩ : ClassId) ∈ p.classIds := mem_classIds.2 (hsize ▸ hn)
  obtain ⟨-, hiff, -⟩ := hends ⟨3⟩ (hclass (by decide))
  obtain ⟨-, -, hfound⟩ := hends ⟨4⟩ (hclass (by decide))
  have honly : ProgramDef.OnlyImplements .implementer (p.classAt ⟨1⟩).name := by
    rw [hname]
    exact ⟨⟨"A", none, ["I"], false, false, [], []⟩, by decide, rfl, rfl, by decide⟩
  refine ⟨p, hp, fun hroot => hiff.1 hroot ⟨1⟩ (by simp [hchain]) honly, hlast, hfound hlast _ ⟨0⟩ ?_⟩
  exact (offered?_eq_some_iff (build_underway hp).declared).1 hoffered

/-- A class with an interface and no declared superclass has none at all, and the method of the root is not
found for it. -/
theorem implementer_without_superclass : ∃ p, (build .implementer).1 = .ok p ∧
    p.findClass? rootClassName = some ⟨0⟩ ∧ ⟨1⟩ ∈ p.classIds ∧ p.superclass? ⟨1⟩ = none ∧
    p.Offers ⟨0⟩ ⟨"notify", [], .void⟩ ⟨0⟩ ∧ p.dispatch? ⟨1⟩ ⟨"notify", [], .void⟩ = none := by
  have hrun : ∃ p, (build .implementer).1 = .ok p ∧
      p.findClass? rootClassName = some ⟨0⟩ ∧ ⟨1⟩ ∈ p.classIds ∧
      p.superclass? ⟨1⟩ = none ∧ p.offered? ⟨"notify", [], .void⟩ ⟨0⟩ = some ⟨0⟩ ∧
      p.dispatch? ⟨1⟩ ⟨"notify", [], .void⟩ = none := by
    decide +kernel
  obtain ⟨p, hp, hfind, hclass, hsuper, hoffered, hnone⟩ := hrun
  exact ⟨p, hp, hfind, hclass, hsuper,
    (offered?_eq_some_iff (build_underway hp).declared).1 hoffered, hnone⟩

end Program

end PointsTo
