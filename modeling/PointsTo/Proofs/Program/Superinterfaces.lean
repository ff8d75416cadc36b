import PointsTo.Proofs.Program.Subtyping

/-! # Routes of a lookup

A lookup follows links to superclasses first and links to interfaces from there on. So it looks at a class
exactly if a route of this kind leads to it, and it finds a method exactly if there is one on a route. A
link to the superclass of an interface is on no route. If classes that are named as interfaces have no
superclass but the root, then there is a route to every ancestor, except perhaps to the root.
-/

namespace PointsTo

open Relation (ReflTransGen)

/-- A class below one whose interface extends an interface with a method. -/
def ProgramDef.extended : ProgramDef :=
  ⟨none, [⟨"A", some "B", [], false, false, [], []⟩, ⟨"B", none, ["J"], false, false, [], []⟩,
    ⟨"J", none, ["K"], true, false, [], []⟩,
    ⟨"K", none, [], true, false, [], [⟨"get", [], "V", false, false, false, [], []⟩]⟩]⟩

/-- A class whose interface has an interface with a method as its superclass. -/
def ProgramDef.nested : ProgramDef :=
  ⟨none, [⟨"A", none, ["K"], false, false, [], []⟩, ⟨"K", some "J", [], true, false, [], []⟩,
    ⟨"J", none, [], true, false, [], [⟨"get", [], "V", false, false, false, [], []⟩]⟩]⟩

namespace Program

variable {p : Program} {c d e b : ClassId} {path before after l q : List ClassId} {n : Nat}

/-- Links to interfaces lead from a class to another. The list has the classes that are left on the
way. -/
inductive Climbs (p : Program) : ClassId → List ClassId → ClassId → Prop where
  | here {c : ClassId} : Climbs p c [] c
  | up {c d e : ClassId} {path : List ClassId} (h : d ∈ p.interfaces c) (rest : Climbs p d path e) :
      Climbs p c (c :: path) e

/-- A lookup comes from a class to another: by links to superclasses, and then by links to interfaces. The
list has the classes that are left on the way. -/
inductive Route (p : Program) : ClassId → List ClassId → ClassId → Prop where
  | climb {c e : ClassId} {path : List ClassId} (h : p.Climbs c path e) : Route p c path e
  | superclass {c d e : ClassId} {path : List ClassId} (h : p.superclass? c = some d)
      (rest : Route p d path e) : Route p c (c :: path) e

/-- A route that leads elsewhere starts with a link. -/
theorem Route.eq_or_hasParent (h : p.Route c path e) : e = c ∨ ∃ d, p.HasParent c d := by
  cases h with
  | climb h =>
      cases h with
      | here => exact Or.inl rfl
      | up h _ => exact Or.inr ⟨_, Or.inr h⟩
  | superclass h _ => exact Or.inr ⟨_, Or.inl h⟩

/-! ## Routes and levels -/

/-- On each level are the classes that as many links to interfaces lead to. -/
theorem Climbs.mem_level (h : p.Climbs b path e) (hb : b ∈ q) :
    e ∈ level p.interfaces q path.length := by
  induction h generalizing q with
  | here => exact hb
  | up h _ ih =>
      rw [List.length_cons, ← level_flatMap]
      exact ih (List.mem_flatMap.2 ⟨_, hb, h⟩)

/-- A class on a level is reached from a member, by way of the lower levels. -/
theorem exists_climbs_of_mem_level {P : ClassId → Prop} (he : e ∈ level p.interfaces q n)
    (hlower : ∀ k, k < n → ∀ j ∈ level p.interfaces q k, P j) :
    ∃ b ∈ q, ∃ path, p.Climbs b path e ∧ ∀ j ∈ path, P j := by
  induction n generalizing q with
  | zero => exact ⟨e, he, [], .here, fun j hj => absurd hj List.not_mem_nil⟩
  | succ n ih =>
      -- the level above the interfaces of the list, so that the way is built from its start
      rw [← level_flatMap] at he
      obtain ⟨d, hd, path, hpath, hall⟩ := ih he fun k hk j hj =>
        hlower (k + 1) (Nat.succ_lt_succ hk) j (by rwa [← level_flatMap])
      obtain ⟨b, hb, hd⟩ := List.mem_flatMap.1 hd
      exact ⟨b, hb, b :: path, .up hd hpath,
        List.forall_mem_cons.2 ⟨hlower 0 (Nat.succ_pos n) b hb, hall⟩⟩

/-- A route goes along a chain of superclasses and climbs from one of its classes. -/
theorem HasChain.route (h : p.HasChain c l) (hl : l = before ++ b :: after)
    (hclimbs : p.Climbs b path e) : p.Route c (before ++ path) e := by
  induction before generalizing c l with
  | nil =>
      subst hl
      cases h <;> exact .climb hclimbs
  | cons k before ih =>
      cases h with
      | top => simp at hl
      | up h rest =>
          obtain ⟨rfl, rfl⟩ := List.cons.inj hl
          exact .superclass h (ih rest rfl)

/-- The class that a route ends at is on one of the levels above the chain. -/
theorem Route.exists_mem_level (h : p.Route c path e) (hchain : p.HasChain c l) :
    ∃ n, e ∈ level p.interfaces l n := by
  induction h generalizing l with
  | climb h => exact ⟨_, h.mem_level (by cases hchain <;> exact List.mem_cons_self ..)⟩
  | superclass h _ ih =>
      cases hchain with
      | top hnone =>
          rw [h] at hnone
          cases hnone
      | up hsuper rest =>
          obtain rfl := Option.some.inj (h.symm.trans hsuper)
          obtain ⟨n, hn⟩ := ih rest
          refine ⟨n, ?_⟩
          rw [← List.singleton_append, level_append]
          exact List.mem_append_right _ hn

/-- Routes lead to the levels above the chain of superclasses. -/
theorem exists_route_iff (hchain : p.HasChain c l) :
    (∃ path, p.Route c path e) ↔ ∃ n, e ∈ level p.interfaces l n := by
  constructor
  · rintro ⟨path, hroute⟩
    exact hroute.exists_mem_level hchain
  · rintro ⟨n, hn⟩
    obtain ⟨b, hb, path, hclimbs, -⟩ := exists_climbs_of_mem_level (P := fun _ => True) hn (by simp)
    obtain ⟨before, after, rfl⟩ := List.append_of_mem hb
    exact ⟨_, hchain.route rfl hclimbs⟩

/-! ## Lookups -/

section Ranged

variable (hlinks : ∀ l ∈ p.links, l.child.idx < p.classes.size ∧ l.parent.idx < p.classes.size)
  (hacyclic : p.Acyclic)

include hlinks hacyclic

/-- A lookup finds an acceptable method exactly if a route leads to a class that declares one. -/
theorem lookup?_ne_none_iff {accept : Method → Bool} {s : Subsignature} (hc : c.idx < p.classes.size) :
    p.lookup? accept c s ≠ none ↔ ∃ path e m, p.Route c path e ∧ p.declared? e s = some m ∧
      accept (p.methodAt m) = true := by
  have hchain := (hasChain_iff hlinks hacyclic hc).2 rfl
  -- The classes of the chain are level zero, and the interfaces the levels above it.
  have hlevel : p.lookup? accept c s = none ↔
      ∀ n, ∀ e ∈ level p.interfaces (p.superclassChain c) n,
        ((p.declared? e s).filter fun m => accept (p.methodAt m)) = none := by
    rw [lookup?, Option.orElse_eq_orElse, Option.orElse_eq_or, Option.or_eq_none_iff,
      List.findSome?_eq_none_iff, findSome?_interfaceOrder_eq_none_iff hlinks hacyclic]
    simp only [interfaceLevel_eq]
    constructor
    · rintro ⟨hclasses, hinterfaces⟩ n
      cases n with
      | zero => exact hclasses
      | succ n => exact hinterfaces n
    · exact fun h => ⟨h 0, fun n => h (n + 1)⟩
  rw [Ne, hlevel]
  constructor
  · intro h
    simp only [not_forall] at h
    obtain ⟨n, e, he, hfound⟩ := h
    obtain ⟨m, hm⟩ := Option.ne_none_iff_exists'.1 hfound
    obtain ⟨path, hroute⟩ := (exists_route_iff hchain).2 ⟨n, he⟩
    exact ⟨path, e, m, hroute, Option.filter_eq_some_iff.1 hm⟩
  · rintro ⟨path, e, m, hroute, hdeclared, haccept⟩ hnone
    obtain ⟨n, he⟩ := (exists_route_iff hchain).1 ⟨path, hroute⟩
    have hrefused := hnone n e he
    rw [hdeclared, Option.filter_some, if_pos haccept] at hrefused
    cases hrefused

end Ranged

/-- Classes that are named as interfaces have no superclass but the root. -/
def PlainInterfaces (p : Program) : Prop :=
  ∀ c, ∀ i ∈ p.interfaces c, p.superclass? i = none ∨ p.superclass? i = p.findClass? rootClassName

/-- A route leads to every ancestor but the root if interfaces have no other superclass. -/
theorem PlainInterfaces.exists_route (hplain : p.PlainInterfaces) {x : ProgramDef}
    (hp : (build x).1 = .ok p) (hinherits : p.Inherits c e) (hne : p.findClass? rootClassName ≠ some e) :
    ∃ path, p.Route c path e := by
  -- By induction along the links from the class to its ancestor.
  rw [inherits_iff_hasParent hp] at hinherits
  induction hinherits using ReflTransGen.head_induction_on with
  | refl => exact ⟨[], .climb .here⟩
  | @head c d hparent _ ih =>
      obtain ⟨path, hroute⟩ := ih
      rcases hparent with hsuper | hinterface
      · exact ⟨c :: path, .superclass hsuper hroute⟩
      · cases hroute with
        | climb hclimbs => exact ⟨c :: path, .climb (.up hinterface hclimbs)⟩
        | @superclass _ k _ _ hsuper hrest =>
            -- the superclass of the interface is the root, which no route leaves
            have hroot : p.findClass? rootClassName = some k := by
              rcases hplain c d hinterface with hnone | hroot
              · rw [hnone] at hsuper
                cases hsuper
              · rw [← hroot, hsuper]
            rcases hrest.eq_or_hasParent with rfl | ⟨d, hd⟩
            · exact absurd hroot hne
            · exact absurd hd (not_hasParent_root hp hroot)

/-- In a loaded program, dispatch and the resolution of a reference find a method exactly if a route leads
to a class that has one. If classes that are named as interfaces have no superclass but the root, they find
one whenever an ancestor other than the root has one. -/
theorem lookup_succeeds_along_routes {x : ProgramDef} (hp : (build x).1 = .ok p) :
    (∀ c ∈ p.classIds, ∀ s,
      p.dispatch? c s ≠ none ↔ ∃ path e m, p.Route c path e ∧ p.Offers e s m) ∧
    (∀ r c, p.findClass? r.className = some c →
      (p.resolveMethod? r ≠ none ↔
        ∃ path e m, p.Route c path e ∧ p.declared? e r.subsignature = some m)) ∧
    (p.PlainInterfaces → ∀ c ∈ p.classIds, ∀ j ∈ p.allParents c,
      p.findClass? rootClassName ≠ some j →
        (∀ s m, p.Offers j s m → p.dispatch? c s ≠ none) ∧
        ∀ r m, p.findClass? r.className = some c → p.declared? j r.subsignature = some m →
          p.resolveMethod? r ≠ none) := by
  have hunderway := build_underway hp
  have h := hunderway.rooted
  have hdispatch (c : ClassId) (hc : c ∈ p.classIds) (s : Subsignature) :
      p.dispatch? c s ≠ none ↔ ∃ path e m, p.Route c path e ∧ p.Offers e s m := by
    rw [dispatch?, lookup?_ne_none_iff h.link h.acyclic (mem_classIds.1 hc)]
    simp only [← offered?_eq_some_iff hunderway.declared, offered?, Option.filter_eq_some_iff]
  have hresolve (r : MethodRef) (c : ClassId) (hc : p.findClass? r.className = some c) :
      p.resolveMethod? r ≠ none ↔
        ∃ path e m, p.Route c path e ∧ p.declared? e r.subsignature = some m := by
    have heq : p.resolveMethod? r = p.lookup? (fun _ => true) c r.subsignature := by
      rw [resolveMethod?, hc]
      rfl
    rw [heq, lookup?_ne_none_iff h.link h.acyclic ((h.find _ _).1 hc).1]
    simp only [and_true]
  refine ⟨hdispatch, hresolve, fun hplain c hc j hj hne => ?_⟩
  obtain ⟨path, hroute⟩ :=
    hplain.exists_route hp ((mem_allParents_iff h.link (mem_classIds.1 hc)).1 hj) hne
  exact ⟨fun s m hm => (hdispatch c hc s).2 ⟨path, j, m, hroute, hm⟩,
    fun r m hr hm => (hresolve r c hr).2 ⟨path, j, m, hroute, hm⟩⟩

/-- In the program with the interface that extends another one, the lookup goes through both. -/
theorem lookup_succeeds_along_routes_extended : ∃ p, (build .extended).1 = .ok p ∧ p.PlainInterfaces ∧
    p.dispatch? ⟨0⟩ ⟨"get", [], .void⟩ ≠ none ∧
    p.resolveMethod? ⟨"A", ⟨"get", [], .void⟩⟩ ≠ none ∧
    ∃ path e m, p.Route ⟨0⟩ path e ∧ p.Offers e ⟨"get", [], .void⟩ m := by
  have hrun : ∃ p, (build .extended).1 = .ok p ∧
      p.classes.size = 5 ∧ p.findClass? rootClassName = some ⟨4⟩ ∧
      p.findClass? "A" = some ⟨0⟩ ∧ ⟨3⟩ ∈ p.allParents ⟨0⟩ ∧
      (∀ l ∈ p.links.toList, l.kind = .implements →
        p.superclass? l.parent = none ∨ p.superclass? l.parent = some ⟨4⟩) ∧
      p.offered? ⟨"get", [], .void⟩ ⟨3⟩ = some ⟨0⟩ := by
    decide +kernel
  obtain ⟨p, hp, hsize, hfind, hA, hparent, hlinks, hoffered⟩ := hrun
  have hplain : p.PlainInterfaces := fun c i hi =>
    hfind ▸ hlinks _ (Array.mem_toList_iff.2 (mem_interfaces_iff.1 hi)) rfl
  have hclass : (⟨0⟩ : ClassId) ∈ p.classIds := mem_classIds.2 (hsize ▸ by decide)
  have hdeclared := (build_underway hp).declared
  obtain ⟨hdispatch, -, hancestors⟩ := lookup_succeeds_along_routes hp
  obtain ⟨hoffers, hdeclares⟩ := hancestors hplain ⟨0⟩ hclass ⟨3⟩ hparent (by rw [hfind]; decide)
  have hfound := hoffers _ _ ((offered?_eq_some_iff hdeclared).1 hoffered)
  refine ⟨p, hp, hplain, hfound, ?_, (hdispatch ⟨0⟩ hclass _).1 hfound⟩
  exact hdeclares ⟨"A", ⟨"get", [], .void⟩⟩ ⟨0⟩ hA (Option.filter_eq_some_iff.1 hoffered).1

/-- An interface above a class has a method that is found for the class by neither lookup. -/
theorem nested_not_found : ∃ p, (build .nested).1 = .ok p ∧
    ⟨0⟩ ∈ p.classIds ∧ p.findClass? "A" = some ⟨0⟩ ∧ ⟨2⟩ ∈ p.allParents ⟨0⟩ ∧
    (p.classAt ⟨2⟩).isInterface = true ∧ p.Offers ⟨2⟩ ⟨"get", [], .void⟩ ⟨0⟩ ∧
    p.dispatch? ⟨0⟩ ⟨"get", [], .void⟩ = none ∧
    p.resolveMethod? ⟨"A", ⟨"get", [], .void⟩⟩ = none := by
  have hrun : ∃ p, (build .nested).1 = .ok p ∧
      ⟨0⟩ ∈ p.classIds ∧ p.findClass? "A" = some ⟨0⟩ ∧ ⟨2⟩ ∈ p.allParents ⟨0⟩ ∧
      (p.classAt ⟨2⟩).isInterface = true ∧ p.offered? ⟨"get", [], .void⟩ ⟨2⟩ = some ⟨0⟩ ∧
      p.dispatch? ⟨0⟩ ⟨"get", [], .void⟩ = none ∧
      p.resolveMethod? ⟨"A", ⟨"get", [], .void⟩⟩ = none := by
    decide +kernel
  obtain ⟨p, hp, hclass, hA, hparent, hinterface, hoffered, hdispatch, hresolve⟩ := hrun
  exact ⟨p, hp, hclass, hA, hparent, hinterface,
    (offered?_eq_some_iff (build_underway hp).declared).1 hoffered, hdispatch, hresolve⟩

end Program

end PointsTo
