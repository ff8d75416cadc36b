import PointsTo.Proofs.Program.Members

/-! # References to fields

Fields are looked up in the program as the definition says: in a class and its superclasses, then in the
interfaces above the class. Statements care for whether a field is static, so lookups are compared by that.
The chain of superclasses is compared from parents to children, and interfaces are compared by their
numbers, which are those of their definitions.
-/

namespace PointsTo

/-- A search of an initial segment finds what is found at the first place. -/
theorem findSome?_range_eq_some_iff {α : Type} {n : Nat} {f : Nat → Option α} {a : α} :
    (List.range n).findSome? f = some a ↔ ∃ i < n, f i = some a ∧ ∀ j < i, f j = none := by
  induction n with
  | zero => simp
  | succ n ih =>
      rw [List.range_succ, List.findSome?_append, Option.or_eq_some_iff, ih]
      rw [List.findSome?_eq_none_iff, List.findSome?_singleton]
      constructor
      · rintro (⟨i, hi, hfound⟩ | ⟨hnone, hfound⟩)
        · exact ⟨i, by omega, hfound⟩
        · exact ⟨n, by omega, hfound, fun j hj => hnone j (List.mem_range.2 hj)⟩
      · rintro ⟨i, hi, hfound, hbefore⟩
        by_cases hn : i = n
        · subst hn
          exact Or.inr ⟨fun j hj => hbefore j (List.mem_range.1 hj), hfound⟩
        · exact Or.inl ⟨i, by omega, hfound, hbefore⟩

/-- A search of some members is a search that finds nothing at the others. -/
theorem findSome?_filter {α β : Type} (q : α → Bool) (f : α → Option β) (l : List α) :
    (l.filter q).findSome? f = l.findSome? fun a => if q a then f a else none := by
  induction l with
  | nil => rfl
  | cons a l ih =>
      rw [List.filter_cons, List.findSome?_cons]
      by_cases hq : q a = true
      · rw [if_pos hq, if_pos hq, List.findSome?_cons, ih]
      · rw [if_neg hq, if_neg hq, ih]

/-- A field that is found above is that of the class, or the class has none and it is found above the
superclass. -/
theorem ProgramDef.findsAbove_iff {d : ProgramDef} {field x : String} {f : FieldDef} :
    d.FindsAbove field x f ↔ d.declaredField? x field = some f ∨
      d.declaredField? x field = none ∧ ∃ y, d.superclass? x = some y ∧ d.FindsAbove field y f := by
  constructor
  · intro h
    cases h with
    | here found => exact Or.inl found
    | above missing parent found => exact Or.inr ⟨missing, _, parent, found⟩
  · rintro (hfound | ⟨hmissing, y, hparent, hfound⟩)
    · exact .here hfound
    · exact .above hmissing hparent hfound

namespace Program

/-- The superclass of a class is the one that its definition names. -/
theorem Connects.superclass? {n : Nat} {d : ProgramDef} {p : Program}
    (h : p.Connects n (· ∈ d.names) d.links) {c : ClassId} (hc : c.idx < p.classes.size) :
    (p.superclass? c).map (fun e => (p.classAt e).name) = d.superclass? (p.classAt c).name := by
  have hsuper : p.superclass? c = ((p.linksOf c).find? (·.kind = .extends)).map (·.parent) := by
    rw [Program.superclass?, linksOf, List.find?_filter]
    simp only [decide_eq_true_eq]
  rw [hsuper, ProgramDef.superclass?, ← h.links, ← h.layered.linksOf c hc, List.find?_map]
  rw [Option.map_map, Option.map_map]
  rfl

/-- Ancestors are listed in the order of all classes. -/
theorem allParents_eq (p : Program) (c : ClassId) :
    p.allParents c = p.classIds.filter (· ∈ p.allParents c) := by
  refine List.filter_congr fun k hk => ?_
  rw [allParents, classSet, Bool.eq_iff_iff, decide_eq_true_eq, decide_eq_true_eq, List.mem_filter,
    decide_eq_true_eq, and_iff_right hk]

/-- The field of the class of a number, if the class is an interface above the given one. -/
def interfaceField? (p : Program) (c : ClassId) (name : String) (i : Nat) : Option FieldId :=
  if (p.classAt ⟨i⟩).isInterface && decide ((⟨i⟩ : ClassId) ∈ p.allParents c) then
    p.declaredField? ⟨i⟩ name
  else none

/-- A search of the interfaces above a class is one of the numbers of all classes. -/
theorem findSome?_interfaces (p : Program) (c : ClassId) (name : String) :
    ((p.allParents c).filter fun k => (p.classAt k).isInterface).findSome?
      (fun k => p.declaredField? k name) =
        (List.range p.classes.size).findSome? (p.interfaceField? c name) := by
  rw [allParents_eq, List.filter_filter, findSome?_filter, classIds, List.findSome?_map]
  rfl

namespace Realizes

variable {d : ProgramDef} {M : ClassId → List MethodDef} {p : Program}
  (h : p.Realizes d (d.membersAt (·.fields)) M)

include h

/-- The definition of a class is found by the name of the class, or not at all. -/
theorem find?_class {c : ClassId} (hc : c.idx < p.classes.size) :
    d.classes.find? (·.name = (p.classAt c).name) = d.classes[c.idx]? := by
  -- definitions of the name have the number of the class
  have hidx {i : Nat} (hi : i < d.classes.length) (hname : d.classes[i].name = (p.classAt c).name) :
      i = c.idx := by
    have hdefined := (h.defined i _ (List.getElem?_eq_getElem hi)).1
    have hlt : i < p.classes.size := Nat.lt_of_lt_of_le hi h.layered.le
    exact congrArg ClassId.idx (h.layered.eq_of_name (c := ⟨i⟩) hlt hc (hdefined.trans hname))
  by_cases hlt : c.idx < d.classes.length
  · rw [List.getElem?_eq_getElem hlt, List.find?_eq_some_iff_getElem]
    refine ⟨by simpa using (h.defined c.idx _ (List.getElem?_eq_getElem hlt)).1.symm, c.idx, hlt, rfl,
      fun j hj => ?_⟩
    simp only [Bool.not_eq_true', decide_eq_false_iff_not]
    intro hname
    have := hidx (by omega) hname
    omega
  · rw [List.getElem?_eq_none (by omega), List.find?_eq_none]
    intro x hx hname
    obtain ⟨i, hi, rfl⟩ := List.mem_iff_getElem.1 hx
    exact hlt (hidx hi (of_decide_eq_true hname) ▸ hi)

/-- A class declares the fields that its definition has. -/
theorem declaredField? {c : ClassId} (hc : c.idx < p.classes.size) (name : String) :
    (p.declaredField? c name).map (fun f => (p.fieldAt f).isStatic) =
      (d.declaredField? (p.classAt c).name name).map (·.isStatic) := by
  rw [h.field, ProgramDef.declaredField?, h.find?_class hc, ProgramDef.membersAt]
  cases d.classes[c.idx]? <;> rfl

/-- A field is found along the chain of superclasses exactly if the definition finds one above. -/
theorem chain_iff {c : ClassId} (hc : c.idx < p.classes.size) (name : String) (b : Bool) :
    ((p.superclassChain c).findSome? fun k => p.declaredField? k name).map
      (fun f => (p.fieldAt f).isStatic) = some b ↔
        ∃ f, d.FindsAbove name (p.classAt c).name f ∧ f.isStatic = b := by
  -- By induction over what is above a class, which is well-founded as there are no cycles.
  have hlinks := fun l (hl : l ∈ p.links) => h.layered.links_lt hl
  refine Acyclic.induction hlinks h.acyclic (P := fun c =>
    ((p.superclassChain c).findSome? fun k => p.declaredField? k name).map
      (fun f => (p.fieldAt f).isStatic) = some b ↔
        ∃ f, d.FindsAbove name (p.classAt c).name f ∧ f.isStatic = b) (fun c hc ih => ?_) hc
  have hdeclared := h.declaredField? hc name
  have hsuper := h.toConnects.superclass? hc
  rw [superclassChain_eq hlinks h.acyclic hc, List.findSome?_cons]
  cases hf : p.declaredField? c name with
  | some f =>
      rw [hf, Option.map_some] at hdeclared
      obtain ⟨g, hg, hstatic⟩ := Option.map_eq_some_iff.1 hdeclared.symm
      rw [Option.map_some, Option.some.injEq, ← hstatic]
      constructor
      · exact fun hb => ⟨g, .here hg, hb⟩
      · rintro ⟨g', hg', hb⟩
        rw [ProgramDef.findsAbove_iff, hg] at hg'
        rcases hg' with heq | hmissing
        · rw [Option.some.inj heq]
          exact hb
        · cases hmissing.1
  | none =>
      rw [hf, Option.map_none] at hdeclared
      have hmissing := Option.map_eq_none_iff.1 hdeclared.symm
      simp only [ProgramDef.findsAbove_iff (x := (p.classAt c).name), hmissing, ← hsuper, true_and]
      cases hk : p.superclass? c with
      | none => simp
      | some k =>
          rw [Option.elim_some, ih k (superclass?_mem_parents hk)]
          simp

/-- A class of a number has a field and is an interface above another class exactly if that is so for its
definition. -/
theorem interfaceField?_iff {c : ClassId} (hc : c.idx < p.classes.size) (name : String) (b : Bool)
    (i : Nat) : (p.interfaceField? c name i).map (fun f => (p.fieldAt f).isStatic) = some b ↔
      ∃ e, d.classes[i]? = some e ∧
        ∃ f, d.Inherited name (p.classAt c).name e f ∧ f.isStatic = b := by
  have hfield : (p.interfaceField? c name i).map (fun f => (p.fieldAt f).isStatic) =
      if (p.classAt ⟨i⟩).isInterface = true ∧ (⟨i⟩ : ClassId) ∈ p.allParents c then
        ((d.membersAt (·.fields) ⟨i⟩).find? (·.name = name)).map (·.isStatic)
      else none := by
    rw [← h.field, interfaceField?]
    simp only [Bool.and_eq_true, decide_eq_true_eq]
    split <;> rfl
  -- Numbers past the definitions belong to classes that are only referred to. These declare nothing.
  rw [hfield, ProgramDef.membersAt]
  cases he : d.classes[i]? with
  | none => simp
  | some e =>
      obtain ⟨hname, hinterface⟩ := h.defined i e he
      have hlt : i < p.classes.size :=
        Nat.lt_of_lt_of_le (List.getElem?_eq_some_iff.1 he).1 h.layered.le
      have habove : (⟨i⟩ : ClassId) ∈ p.allParents c ↔ d.Inherits (p.classAt c).name e.name := by
        rw [mem_allParents_iff (fun _ => h.layered.links_lt) hc, h.toConnects.inherits_iff hc hlt,
          hname]
      rw [hinterface]
      simp [ProgramDef.Inherited, habove, and_assoc]

/-- No field is found at a number exactly if its definition does not pass one down to the class. -/
theorem interfaceField?_eq_none_iff {c : ClassId} (hc : c.idx < p.classes.size) (name : String)
    (i : Nat) : p.interfaceField? c name i = none ↔
      ∀ e, d.classes[i]? = some e → ∀ f, ¬d.Inherited name (p.classAt c).name e f := by
  have hfound := h.interfaceField?_iff hc name (i := i)
  constructor
  · intro hi e he f hf
    have hsome := (hfound f.isStatic).2 ⟨e, he, f, hf, rfl⟩
    rw [hi] at hsome
    cases hsome
  · intro hi
    rw [Option.eq_none_iff_forall_ne_some]
    intro f hf
    obtain ⟨e, he, g, hg, -⟩ := (hfound (p.fieldAt f).isStatic).1 (by rw [hf]; rfl)
    exact hi e he g hg

/-- A field is found among the interfaces above a class exactly if the definition finds one there. -/
theorem interfaces_iff {c : ClassId} (hc : c.idx < p.classes.size) (name : String) (b : Bool) :
    (((p.allParents c).filter fun k => (p.classAt k).isInterface).findSome?
      fun k => p.declaredField? k name).map (fun f => (p.fieldAt f).isStatic) = some b ↔
        ∃ f, d.FindsInterface name (p.classAt c).name f ∧ f.isStatic = b := by
  have hfound := h.interfaceField?_iff hc name b
  have hnone := h.interfaceField?_eq_none_iff hc name
  rw [findSome?_interfaces, Option.map_eq_some_iff]
  simp only [findSome?_range_eq_some_iff]
  constructor
  · rintro ⟨f, ⟨i, -, hf, hbefore⟩, hb⟩
    obtain ⟨e, he, g, hg, hstatic⟩ := (hfound i).1 (by rw [hf, Option.map_some, hb])
    exact ⟨g, ⟨i, e, he, hg, fun j e' hj => (hnone j).1 (hbefore j hj) e'⟩, hstatic⟩
  · rintro ⟨g, ⟨i, e, he, hg, hbefore⟩, hstatic⟩
    obtain ⟨f, hf, hb⟩ := Option.map_eq_some_iff.1 ((hfound i).2 ⟨e, he, g, hg, hstatic⟩)
    have hlt : i < p.classes.size :=
      Nat.lt_of_lt_of_le (List.getElem?_eq_some_iff.1 he).1 h.layered.le
    exact ⟨f, ⟨i, hlt, hf, fun j hj => (hnone j).2 fun e' => hbefore j e' hj⟩, hb⟩

/-- A reference is resolved to a field as the definition says. -/
theorem resolveField?_iff (r : FieldRef) (b : Bool) :
    (∃ f, p.resolveField? r = some f ∧ (p.fieldAt f).isStatic = b) ↔
      ∃ f, d.ResolvesField r f ∧ f.isStatic = b := by
  cases hc : p.findClass? r.className with
  | none =>
      have hname : r.className ∉ d.names := by
        rw [← h.names]
        exact h.layered.findClass?_eq_none_iff.1 hc
      simp [resolveField?, hc, ProgramDef.ResolvesField, hname]
  | some c =>
      obtain ⟨hlt, hname⟩ := h.layered.findClass?_eq_some_iff.1 hc
      have hmem : r.className ∈ d.names := by
        rw [← h.names, ← hname]
        exact List.mem_map.2 ⟨c, mem_classIds.2 hlt, rfl⟩
      have hchain := h.chain_iff hlt r.name
      have hinterfaces := h.interfaces_iff hlt r.name b
      have hresolve : p.resolveField? r =
          ((p.superclassChain c).findSome? fun k => p.declaredField? k r.name).or
            (((p.allParents c).filter fun k => (p.classAt k).isInterface).findSome?
              fun k => p.declaredField? k r.name) := by
        rw [resolveField?, hc, ← List.findSome?_append]
        rfl
      rw [hname] at hchain hinterfaces
      simp only [ProgramDef.ResolvesField, hmem, true_and]
      rw [hresolve, ← Option.map_eq_some_iff]
      cases hf : (p.superclassChain c).findSome? fun k => p.declaredField? k r.name with
      -- Nothing on the chain, so the interfaces decide.
      | none =>
          have habove (g : FieldDef) : ¬d.FindsAbove r.name r.className g := by
            intro hg
            have := (hchain g.isStatic).2 ⟨g, hg, rfl⟩
            rw [hf] at this
            cases this
          rw [Option.none_or, hinterfaces]
          simp [habove]
      | some f =>
          -- The field of the chain hides those of the interfaces.
          have habove := hchain b
          obtain ⟨g, hg, -⟩ := (hchain (p.fieldAt f).isStatic).1 (by rw [hf]; rfl)
          rw [hf] at habove
          rw [Option.some_or, habove]
          refine exists_congr fun g' => and_congr_left fun _ => ⟨Or.inl, fun h' => ?_⟩
          exact h'.resolve_right fun hother => hother.1 g hg

end Realizes

end Program

end PointsTo
