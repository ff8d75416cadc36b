import PointsTo.Proofs.Program.Ancestry
import PointsTo.Proofs.Program.Loading
import PointsTo.Proofs.Program.Simulation

/-! # Classes and members, built side by side

Two constructions that mention the same classes, maybe in different orders, stay alike: the tables grow
by the same defined classes, links and members, and by phantom classes of the same names. So both
constructions make the same choices, up to the numbers of phantom classes.
-/

namespace PointsTo

namespace Program

theorem classNames_eq (p : Program) : p.classNames = p.classes.toList.map (·.name) := by
  refine List.ext_getElem (by simp [classNames, classIds]) fun i hi hi' => ?_
  have hlt : i < p.classes.size := by simpa [classNames, classIds] using hi
  simp [classNames, classIds, classAt, Array.getD_eq_getD_getElem?, hlt]

/-! ## Growing tables -/

def pushPhantoms (p : Program) (names : List String) : Program :=
  { p with classes := p.classes ++ (names.map Class.phantom).toArray }

def pushLinks (p : Program) (links : List Link) : Program :=
  { p with links := p.links ++ links.toArray }

def modifyClass (p : Program) (c : ClassId) (f : Class → Class) : Program :=
  { p with classes := p.classes.modify c.idx f }

section Tables

variable {n : Nat} {p : Program} (h : p.Layered n)

/-- Phantom classes come after all classes that were there before. -/
theorem classAt_pushPhantoms {names : List String} {c : ClassId} (hc : c.idx < p.classes.size) :
    (p.pushPhantoms names).classAt c = p.classAt c := by
  simp [classAt, pushPhantoms, Array.getD_eq_getD_getElem?, Array.getElem?_append_left hc]

/-- Phantom classes bring their names. -/
theorem classNames_pushPhantoms (names : List String) :
    (p.pushPhantoms names).classNames = p.classNames ++ names := by
  have hnames : (names.map Class.phantom).map (·.name) = names := by
    rw [List.map_map]
    exact List.map_id names
  rw [classNames_eq, classNames_eq, pushPhantoms, Array.toList_append, List.map_append, hnames]

/-- Only the class that is changed changes. -/
theorem classAt_modifyClass (c k : ClassId) (f : Class → Class) :
    (p.modifyClass c f).classAt k =
      if c.idx = k.idx ∧ k.idx < p.classes.size then f (p.classAt k) else p.classAt k :=
  getD_modify _ _ _ _ _

/-- A change that keeps names keeps the names of all classes. -/
theorem name_modifyClass {c : ClassId} {f : Class → Class} (hf : ∀ k, (f k).name = k.name)
    (k : ClassId) : ((p.modifyClass c f).classAt k).name = (p.classAt k).name := by
  rw [classAt_modifyClass]
  split
  · exact hf _
  · rfl

theorem size_modifyClass (c : ClassId) (f : Class → Class) :
    (p.modifyClass c f).classes.size = p.classes.size :=
  Array.size_modify

/-- A change that keeps names keeps the list of names. -/
theorem classNames_modifyClass {c : ClassId} {f : Class → Class} (hf : ∀ k, (f k).name = k.name) :
    (p.modifyClass c f).classNames = p.classNames := by
  rw [classNames, classNames, classIds, classIds, size_modifyClass]
  exact List.map_congr_left fun k _ => name_modifyClass hf k

/-- A change that keeps names keeps the links from a name. -/
theorem linksFrom_modifyClass {c : ClassId} {f : Class → Class} (hf : ∀ k, (f k).name = k.name)
    (name : String) : (p.modifyClass c f).linksFrom name = p.linksFrom name := by
  simp only [linksFrom, linkNames, name_modifyClass hf]
  rfl

/-- New links come after those that were there before. -/
theorem linksFrom_pushLinks (links : List Link) (name : String) :
    (p.pushLinks links).linksFrom name = p.linksFrom name ++ p.linkNames links name := by
  rw [linksFrom, linksFrom, linkNames, linkNames, linkNames, ← List.map_append, ← List.filter_append,
    pushLinks, Array.toList_append]
  rfl

/-- Links of other classes do not change the superclass. -/
theorem superclass?_pushLinks {links : List Link} {c : ClassId} (hne : ∀ l ∈ links, l.child ≠ c) :
    (p.pushLinks links).superclass? c = p.superclass? c := by
  have hnone : links.find? (fun l => l.child = c ∧ l.kind = .extends) = none := by
    rw [List.find?_eq_none]
    intro l hl
    simp [hne l hl]
  rw [superclass?, superclass?, pushLinks, Array.toList_append, List.find?_append,
    List.toList_toArray, hnone, Option.or_none]

include h

/-- Phantom classes have no links. -/
theorem linksFrom_pushPhantoms (names : List String) (name : String) :
    (p.pushPhantoms names).linksFrom name = p.linksFrom name := by
  have hlink {l : Link} (hl : l ∈ p.links.toList) :
      (p.pushPhantoms names).classAt l.child = p.classAt l.child ∧
        (p.pushPhantoms names).classAt l.parent = p.classAt l.parent :=
    ⟨classAt_pushPhantoms (h.child l (Array.mem_toList_iff.1 hl)),
      classAt_pushPhantoms (h.parent l (Array.mem_toList_iff.1 hl))⟩
  have hfilter : p.links.toList.filter
      (fun l => ((p.pushPhantoms names).classAt l.child).name = name) =
        p.links.toList.filter fun l => (p.classAt l.child).name = name :=
    List.filter_congr fun l hl => by rw [(hlink hl).1]
  rw [linksFrom, linksFrom, linkNames, linkNames]
  refine (congrArg _ hfilter).trans (List.map_congr_left fun l hl => ?_)
  rw [(hlink (List.mem_filter.1 hl).1).2]

/-- Layers are a matter of classes and links only. -/
theorem Layered.congr {q : Program} (hclasses : q.classes = p.classes) (hlinks : q.links = p.links) :
    q.Layered n := by
  cases q
  cases hclasses
  cases hlinks
  exact ⟨h.le, h.nodup, h.phantom, h.child, h.parent, h.implements⟩

/-- Phantom classes of new names form part of the upper layer. -/
theorem Layered.pushPhantoms {names : List String} (hnodup : names.Nodup)
    (hnew : ∀ x ∈ names, x ∉ p.classNames) : (p.pushPhantoms names).Layered n := by
  have hsize : (p.pushPhantoms names).classes.size = p.classes.size + names.length := by
    simp [Program.pushPhantoms]
  refine ⟨?_, ?_, fun c hn hlt => ?_, fun l hl => ?_, fun l hl => ?_, h.implements⟩
  · have hle := h.le
    omega
  · rw [classNames_pushPhantoms]
    exact h.nodup.append hnodup fun x hx hx' => hnew x hx' hx
  -- a class behind the old ones is the phantom of the name at its place among the new ones
  · by_cases hc : c.idx < p.classes.size
    · rw [classAt_pushPhantoms hc]
      exact h.phantom c hn hc
    · rw [hsize] at hlt
      refine ⟨names.get ⟨c.idx - p.classes.size, by omega⟩, ?_⟩
      rw [classAt, Program.pushPhantoms, Array.getD_eq_getD_getElem?,
        Array.getElem?_append_right (by omega)]
      simp [show c.idx - p.classes.size < names.length by omega]
  · have hlt := h.child l hl
    omega
  · have hlt := h.parent l hl
    omega

/-- Links between classes keep the layers, if only defined classes implement interfaces. -/
theorem Layered.pushLinks {links : List Link}
    (hlinks : ∀ l ∈ links, l.child.idx < p.classes.size ∧ l.parent.idx < p.classes.size ∧
      (l.kind = .implements → l.child.idx < n)) : (p.pushLinks links).Layered n := by
  have hmem {l : Link} (hl : l ∈ (p.pushLinks links).links) : l ∈ p.links ∨ l ∈ links := by
    simpa [Program.pushLinks] using hl
  exact ⟨h.le, h.nodup, h.phantom, fun l hl => (hmem hl).elim (h.child l) fun hl => (hlinks l hl).1,
    fun l hl => (hmem hl).elim (h.parent l) fun hl => (hlinks l hl).2.1,
    fun l hl => (hmem hl).elim (h.implements l) fun hl => (hlinks l hl).2.2⟩

/-- Changing a defined class keeps the layers, if it keeps its name. -/
theorem Layered.modifyClass {c : ClassId} (hc : c.idx < n) {f : Class → Class}
    (hf : ∀ k, (f k).name = k.name) : (p.modifyClass c f).Layered n := by
  have hsize := size_modifyClass (p := p) c f
  refine ⟨?_, ?_, fun k hn hlt => ?_, fun l hl => ?_, fun l hl => ?_, h.implements⟩
  · rw [hsize]
    exact h.le
  · rw [classNames_modifyClass hf]
    exact h.nodup
  · rw [classAt_modifyClass, if_neg (by omega)]
    exact h.phantom k hn (hsize ▸ hlt)
  · rw [hsize]
    exact h.child l hl
  · rw [hsize]
    exact h.parent l hl

end Tables

/-! ## What keeps programs alike -/

namespace Alike

variable {n : Nat} {p p' : Program} (h : Alike n p p')

include h

/-- Members may change if they do so in the same way. -/
theorem withMembers {q q' : Program} (hclasses : q.classes = p.classes) (hlinks : q.links = p.links)
    (hclasses' : q'.classes = p'.classes) (hlinks' : q'.links = p'.links)
    (hfields : q'.fields = q.fields) (hsize : q'.methods.size = q.methods.size)
    (hmethod : ∀ m, { q'.methodAt m with body? := none } = { q.methodAt m with body? := none })
    (howner : ∀ m, m.idx < q.methods.size → (q.methodAt m).owner.idx < n) : Alike n q q' := by
  have hleft := h.left.congr hclasses hlinks
  have hright := h.right.congr hclasses' hlinks'
  cases q
  cases q'
  cases hclasses
  cases hlinks
  cases hclasses'
  cases hlinks'
  exact ⟨hleft, hright, h.defined, h.names, h.links, h.size_links, hfields, hsize, hmethod, howner⟩

/-- Phantom classes of the same names may be added in any order. -/
theorem pushPhantoms {names names' : List String} (hnames : names'.Perm names) (hnodup : names.Nodup)
    (hnew : ∀ x ∈ names, x ∉ p.classNames) :
    Alike n (p.pushPhantoms names) (p'.pushPhantoms names') where
  left := h.left.pushPhantoms hnodup hnew
  right := h.right.pushPhantoms (hnames.nodup_iff.2 hnodup) fun x hx hmem =>
    hnew x (hnames.subset hx) (h.names.subset hmem)
  defined c hc := by
    rw [classAt_pushPhantoms (h.twin_of_lt hc).left, classAt_pushPhantoms (h.twin_of_lt hc).right,
      h.defined c hc]
  names := by
    rw [classNames_pushPhantoms, classNames_pushPhantoms]
    exact h.names.append hnames
  links name := by
    rw [linksFrom_pushPhantoms h.right, linksFrom_pushPhantoms h.left, h.links]
  size_links := h.size_links
  fields := h.fields
  size_methods := h.size_methods
  method := h.method
  owner := h.owner

/-- Links may be added if they are the same by names. -/
theorem pushLinks {links links' : List Link}
    (hlinks : ∀ l ∈ links, l.child.idx < p.classes.size ∧ l.parent.idx < p.classes.size ∧
      (l.kind = .implements → l.child.idx < n))
    (hlinks' : ∀ l ∈ links', l.child.idx < p'.classes.size ∧ l.parent.idx < p'.classes.size ∧
      (l.kind = .implements → l.child.idx < n))
    (hnames : ∀ name, p'.linkNames links' name = p.linkNames links name)
    (hlength : links'.length = links.length) :
    Alike n (p.pushLinks links) (p'.pushLinks links') where
  left := h.left.pushLinks hlinks
  right := h.right.pushLinks hlinks'
  defined := h.defined
  names := h.names
  links name := by rw [linksFrom_pushLinks, linksFrom_pushLinks, h.links, hnames]
  size_links := by simp [Program.pushLinks, h.size_links, hlength]
  fields := h.fields
  size_methods := h.size_methods
  method := h.method
  owner := h.owner

/-- A defined class may change if it keeps its name. -/
theorem modifyClass {c : ClassId} (hc : c.idx < n) {f : Class → Class}
    (hf : ∀ k, (f k).name = k.name) : Alike n (p.modifyClass c f) (p'.modifyClass c f) where
  left := h.left.modifyClass hc hf
  right := h.right.modifyClass hc hf
  defined k hk := by rw [classAt_modifyClass, classAt_modifyClass, h.defined k hk, h.size_classes]
  names := by
    rw [classNames_modifyClass hf, classNames_modifyClass hf]
    exact h.names
  links name := by rw [linksFrom_modifyClass hf, linksFrom_modifyClass hf, h.links]
  size_links := h.size_links
  fields := h.fields
  size_methods := h.size_methods
  method := h.method
  owner := h.owner

/-- Pushing the same field onto the same class keeps programs alike. -/
theorem pushField {c : ClassId} (hc : c.idx < n) (x : Field) :
    Alike n (p.pushField c x) (p'.pushField c x) := by
  have hmodify := h.modifyClass hc (f := fun k =>
    { k with fields := Builder.insertEntry x.name ⟨p.fields.size⟩ k.fields }) fun _ => rfl
  refine hmodify.withMembers rfl rfl ?_ rfl ?_ h.size_methods h.method h.owner
  · rw [Program.pushField, Program.modifyClass, h.fields]
  · rw [Program.pushField, Program.pushField, h.fields]

/-- Pushing the same method onto the same class keeps programs alike. -/
theorem pushMethod {x : Method} (hx : x.owner.idx < n) :
    Alike n (p.pushMethod x) (p'.pushMethod x) := by
  have hmodify := h.modifyClass hx (f := fun k =>
    { k with methods := Builder.insertEntry x.ref.subsignature ⟨p.methods.size⟩ k.methods })
    fun _ => rfl
  refine hmodify.withMembers rfl rfl ?_ rfl h.fields ?_ (fun m => ?_) fun m hm => ?_
  · rw [Program.pushMethod, Program.modifyClass, h.size_methods]
  · simp [Program.pushMethod, h.size_methods]
  · rw [methodAt_pushMethod, methodAt_pushMethod, h.size_methods]
    split
    · rfl
    · exact h.method m
  · rw [methodAt_pushMethod]
    split
    · exact hx
    · refine h.owner m ?_
      simp only [Program.pushMethod, Array.size_push] at hm
      omega

end Alike

/-! ## Classes that are mentioned -/

/-- From `p` to `q`, phantom classes were added for those of the names that had no class. -/
def Mentions (names : List String) (p q : Program) : Prop :=
  ∃ new : List String, q = p.pushPhantoms new ∧ new.Nodup ∧
    ∀ x, x ∈ new ↔ x ∈ names ∧ x ∉ p.classNames

section Mentions

variable {n : Nat} {p p' q q' r : Program} {names names' : List String}

theorem Mentions.refl (p : Program) : Mentions [] p p :=
  ⟨[], by simp [pushPhantoms], .nil, by simp⟩

/-- What is mentioned by two steps is mentioned by both together. -/
theorem Mentions.append (h : Mentions names p q) (h' : Mentions names' q r) :
    Mentions (names ++ names') p r := by
  obtain ⟨new, rfl, hnodup, hnew⟩ := h
  obtain ⟨new', rfl, hnodup', hnew'⟩ := h'
  rw [classNames_pushPhantoms] at hnew'
  refine ⟨new ++ new', ?_, ?_, fun x => ?_⟩
  · simp [pushPhantoms]
  · refine hnodup.append hnodup' fun x hx hx' => ?_
    exact ((hnew' x).1 hx').2 (List.mem_append_right _ hx)
  · rw [List.mem_append, List.mem_append, hnew', List.mem_append, hnew]
    tauto

/-- Mentioning classes keeps the layers. -/
theorem Mentions.layered (h : Mentions names p q) (hp : p.Layered n) : q.Layered n := by
  obtain ⟨new, rfl, hnodup, hnew⟩ := h
  exact hp.pushPhantoms hnodup fun x hx => ((hnew x).1 hx).2

/-- Programs stay alike if the same classes are mentioned. -/
theorem Alike.mentions (h : Alike n p p') (hp : Mentions names p q) (hp' : Mentions names' p' q')
    (hnames : ∀ x, x ∈ names' ↔ x ∈ names) : Alike n q q' := by
  obtain ⟨new, rfl, hnodup, hnew⟩ := hp
  obtain ⟨new', rfl, hnodup', hnew'⟩ := hp'
  refine h.pushPhantoms ((List.perm_ext_iff_of_nodup hnodup' hnodup).2 fun x => ?_) hnodup
    fun x hx => ((hnew x).1 hx).2
  rw [hnew, hnew', hnames, h.names.mem_iff]

end Mentions

/-! ## Hierarchies -/

/-- The program has nothing but classes and links. -/
def IsHierarchy (p : Program) : Prop :=
  ∃ classes links, p = { empty with classes := classes, links := links }

/-- Two programs without members that are alike. -/
structure Linked (n : Nat) (p p' : Program) : Prop where
  alike : Alike n p p'
  left : p.IsHierarchy
  right : p'.IsHierarchy

section Hierarchies

variable {n : Nat} {p p' q q' : Program}

/-- A hierarchy with layers is linked with itself. -/
theorem Layered.linked (h : p.Layered n) (hp : p.IsHierarchy) : Linked n p p := by
  refine ⟨⟨h, h, fun _ _ => rfl, .refl _, fun _ => rfl, rfl, rfl, rfl, fun _ => rfl, fun m hm => ?_⟩,
    hp, hp⟩
  obtain ⟨classes, links, rfl⟩ := hp
  exact absurd hm (Nat.not_lt_zero _)

/-- Mentioning the same names, in any order, keeps hierarchies linked. -/
theorem Linked.mentions {names names' : List String} (h : Linked n p p') (hp : Mentions names p q)
    (hp' : Mentions names' p' q') (hnames : ∀ x, x ∈ names' ↔ x ∈ names) : Linked n q q' := by
  refine ⟨h.alike.mentions hp hp' hnames, ?_, ?_⟩
  · obtain ⟨new, rfl, -⟩ := hp
    obtain ⟨classes, links, rfl⟩ := h.left
    exact ⟨_, _, rfl⟩
  · obtain ⟨new, rfl, -⟩ := hp'
    obtain ⟨classes, links, rfl⟩ := h.right
    exact ⟨_, _, rfl⟩

theorem IsHierarchy.pushLinks (h : p.IsHierarchy) (links : List Link) :
    (p.pushLinks links).IsHierarchy := by
  obtain ⟨classes, links, rfl⟩ := h
  exact ⟨_, _, rfl⟩

/-- The links that make classes without a parent inherit from the root. -/
def orphanLinks (p : Program) (root : ClassId) : List Link :=
  (Builder.orphans p root).map fun c => ⟨c, root, .extends⟩

/-- The names of the classes without a parent depend on nothing but names. -/
theorem Layered.orphans (h : p.Layered n) {root : ClassId} (hroot : root.idx < p.classes.size) :
    (Builder.orphans p root).map (fun c => (p.classAt c).name) =
      p.classNames.filter fun name => name ≠ (p.classAt root).name ∧ p.linksFrom name = [] := by
  rw [classNames, List.filter_map, Builder.orphans]
  refine congrArg _ (List.filter_congr fun c hc => ?_)
  have hlt := mem_classIds.1 hc
  have hname : (p.classAt c).name = (p.classAt root).name ↔ c = root :=
    ⟨h.eq_of_name hlt hroot, fun heq => by rw [heq]⟩
  have hparents : p.linksFrom (p.classAt c).name = [] ↔ p.parents c = [] := by
    have hmap := h.parents c hlt
    rw [← List.map_eq_nil_iff (f := Prod.fst), ← hmap, List.map_eq_nil_iff]
  simp only [Function.comp_apply, ne_eq, hname, hparents]

/-- Among the links of orphans there is one for each orphan of the name. -/
theorem Layered.linkNames_orphanLinks (h : p.Layered n) {root : ClassId}
    (hroot : root.idx < p.classes.size) (name : String) :
    p.linkNames (p.orphanLinks root) name =
      List.replicate ((p.classNames.filter fun x => x ≠ (p.classAt root).name ∧
        p.linksFrom x = []).filter (· = name)).length ((p.classAt root).name, .extends) := by
  rw [← h.orphans hroot, linkNames, orphanLinks, List.filter_map, List.filter_map, List.map_map,
    List.length_map, ← List.map_const']
  rfl

/-- Classes without a parent may be adopted by the root in any order. -/
theorem Alike.orphanLinks (h : Alike n p p') {root root' : ClassId} (hroot : Twin p p' root root') :
    Alike n (p.pushLinks (p.orphanLinks root)) (p'.pushLinks (p'.orphanLinks root')) := by
  have hmem {p : Program} {root : ClassId} (hroot : root.idx < p.classes.size) :
      ∀ l ∈ p.orphanLinks root, l.child.idx < p.classes.size ∧ l.parent.idx < p.classes.size ∧
        (l.kind = .implements → l.child.idx < n) := by
    intro l hl
    obtain ⟨c, hc, rfl⟩ := List.mem_map.1 hl
    exact ⟨mem_classIds.1 (List.mem_filter.1 hc).1, hroot, fun hkind => by cases hkind⟩
  have hnames : (p'.classNames.filter fun x => x ≠ (p'.classAt root').name ∧ p'.linksFrom x = []).Perm
      (p.classNames.filter fun x => x ≠ (p.classAt root).name ∧ p.linksFrom x = []) := by
    simp only [hroot.name, h.links]
    exact h.names.filter _
  -- how many orphans have a name does not depend on the order of the classes
  refine h.pushLinks (hmem hroot.left) (hmem hroot.right) (fun name => ?_) ?_
  · rw [h.right.linkNames_orphanLinks hroot.right, h.left.linkNames_orphanLinks hroot.left,
      (hnames.filter _).length_eq, hroot.name]
  · have hlength := hnames.length_eq
    rw [← h.right.orphans hroot.right, ← h.left.orphans hroot.left, List.length_map,
      List.length_map] at hlength
    rw [Program.orphanLinks, Program.orphanLinks, List.length_map, List.length_map, hlength]

end Hierarchies

end Program

namespace Builder

open Program (Alike Twin Mentions Linked)

variable {n : Nat}

/-- A class is found under its name, after it was mentioned. -/
theorem yields_classOrPhantom {d : Draft} (h : d.program.Layered n) (name : String) :
    Yields (classOrPhantom name) d fun c d' =>
      Mentions [name] d.program d'.program ∧ d'.program.findClass? name = some c := by
  simp only [classOrPhantom, yields_bind, yields_program]
  -- Nothing is added for a name that has a class. For any other a phantom class is.
  cases hfind : d.program.findClass? name with
  | some c =>
      obtain ⟨hlt, rfl⟩ := h.findClass?_eq_some_iff.1 hfind
      have hmem : (d.program.classAt c).name ∈ d.program.classNames :=
        List.mem_map.2 ⟨c, Program.mem_classIds.2 hlt, rfl⟩
      refine yields_pure.2 ⟨⟨[], by simp [Program.pushPhantoms], .nil, ?_⟩, hfind⟩
      simpa using hmem
  | none =>
      have hnew := h.findClass?_eq_none_iff.1 hfind
      have hmentions : Mentions [name] d.program (d.program.pushPhantoms [name]) := by
        refine ⟨[name], rfl, by simp, fun x => ?_⟩
        rw [List.mem_singleton]
        refine ⟨?_, And.left⟩
        rintro rfl
        exact ⟨rfl, hnew⟩
      simp only [addClass_eq, yields_bind, yields_report, yields_program, yields_update, yields_pure]
      refine ⟨hmentions, (hmentions.layered h).findClass?_eq_some_iff.2 ⟨?_, ?_⟩⟩
      · simp [Program.pushPhantoms]
      · simp [Program.classAt, Program.pushPhantoms, Class.phantom]

/-- Both constructions find the class of a name. -/
theorem follows_classOrPhantom {d e : Draft} (h : Linked n d.program e.program) (name : String) :
    Follows (classOrPhantom name) (classOrPhantom name) d e fun c d' c' e' =>
      Twin d'.program e'.program c c' ∧ Linked n d'.program e'.program := by
  refine .of_yields (yields_classOrPhantom h.alike.left name)
    (yields_classOrPhantom h.alike.right name) ?_
  rintro c d' c' e' ⟨hd, hc⟩ ⟨he, hc'⟩
  obtain ⟨hlt, hname⟩ := (hd.layered h.alike.left).findClass?_eq_some_iff.1 hc
  obtain ⟨hlt', hname'⟩ := (he.layered h.alike.right).findClass?_eq_some_iff.1 hc'
  exact ⟨⟨hlt, hlt', hname'.trans hname.symm⟩, h.mentions hd he fun _ => Iff.rfl⟩

/-! ## Links -/

/-- The classes of the table are the nodes of the hierarchy. -/
theorem yields_checkNode {d : Draft} {c : ClassId} (hc : c.idx < d.program.classes.size) :
    Yields (checkNode c) d fun _ d' => d' = d := by
  simp [checkNode, Program.isNode, Nat.not_le.2 hc]

/-- Classes of the table can be linked. -/
theorem yields_addLink {d : Draft} {c k : ClassId} (hc : c.idx < d.program.classes.size)
    (hk : k.idx < d.program.classes.size) (kind : LinkKind) :
    Yields (addLink c k kind) d fun _ d' => d'.program = d.program.pushLinks [⟨c, k, kind⟩] := by
  simp only [addLink, yields_bind]
  refine (yields_checkNode hc).mono ?_
  rintro - d' rfl
  refine (yields_checkNode hk).mono ?_
  rintro - d' rfl
  simp [Program.pushLinks]

/-- A class of the table that has no superclass gets one. -/
theorem yields_addSuperclass {d : Draft} {c k : ClassId} (hnone : d.program.superclass? c = none)
    (hc : c.idx < d.program.classes.size) (hk : k.idx < d.program.classes.size) :
    Yields (addSuperclass c k) d fun _ d' =>
      d'.program = d.program.pushLinks [⟨c, k, .extends⟩] := by
  simpa [addSuperclass, hnone] using yields_addLink hc hk .extends

/-- Adding links between twins keeps hierarchies linked. -/
theorem follows_addLink {d e : Draft} (h : Linked n d.program e.program) {c k k' : ClassId}
    (hc : c.idx < n) (hk : Twin d.program e.program k k') (kind : LinkKind) :
    Follows (addLink c k kind) (addLink c k' kind) d e fun _ d' _ e' =>
      Linked n d'.program e'.program := by
  have htwin := h.alike.twin_of_lt hc
  have hlink : Alike n (d.program.pushLinks [⟨c, k, kind⟩]) (e.program.pushLinks [⟨c, k', kind⟩]) := by
    refine h.alike.pushLinks ?_ ?_ (fun name => ?_) rfl
    · simpa using ⟨htwin.left, hk.left, fun _ => hc⟩
    · simpa using ⟨htwin.right, hk.right, fun _ => hc⟩
    · simp only [Program.linkNames, List.filter_cons, List.filter_nil, htwin.name]
      split <;> simp [hk.name]
  refine .of_yields (yields_addLink htwin.left hk.left kind)
    (yields_addLink htwin.right hk.right kind) fun _ d' _ e' hd' he' => ?_
  rw [hd', he']
  exact ⟨hlink, h.left.pushLinks _, h.right.pushLinks _⟩

/-- Both constructions find the same superclass in the way, or none. -/
theorem follows_addSuperclass {d e : Draft} (h : Linked n d.program e.program) {c k k' : ClassId}
    (hc : c.idx < n) (hk : Twin d.program e.program k k') :
    Follows (addSuperclass c k) (addSuperclass c k') d e fun _ d' _ e' =>
      Linked n d'.program e'.program := by
  have hsuper : (e.program.superclass? c).isSome = (d.program.superclass? c).isSome := by
    have hrel := h.alike.superclass? (h.alike.twin_of_lt hc)
    generalize d.program.superclass? c = x, e.program.superclass? c = y at hrel ⊢
    cases hrel with
    | none => rfl
    | some _ => rfl
  refine .program (.ite (by rw [hsuper]) (fun _ => by simp [Follows]) fun _ => ?_)
  exact follows_addLink h hc hk .extends

/-- Linking a class with its superclass keeps hierarchies linked. -/
theorem follows_linkSuperclass {d e : Draft} (h : Linked n d.program e.program) {c : ClassId}
    (hc : c.idx < n) (name : Option String) :
    Follows (linkSuperclass c name) (linkSuperclass c name) d e fun _ d' _ e' =>
      Linked n d'.program e'.program := by
  cases name with
  | none => exact .pure h
  | some name =>
      refine (follows_classOrPhantom h name).bind ?_
      rintro k d' k' e' ⟨hk, h'⟩
      exact follows_addSuperclass h' hc hk

/-- Linking a class with an interface keeps hierarchies linked. -/
theorem follows_linkInterface {d e : Draft} (h : Linked n d.program e.program) {c : ClassId}
    (hc : c.idx < n) (name : String) :
    Follows (linkInterface c name) (linkInterface c name) d e fun _ d' _ e' =>
      Linked n d'.program e'.program := by
  refine (follows_classOrPhantom h name).bind ?_
  rintro k d' k' e' ⟨hk, h'⟩
  exact follows_addLink h' hc hk .implements

/-- The type of the objects that the statement allocates, if any, can be read. -/
def Legible : StmtDef → Prop
  | .new _ type => ∃ t, Ty.parse type = .ok t
  | _ => True

/-- The class of the objects that the statement allocates. -/
def mentioned? : StmtDef → Option String
  | .new _ type => (Ty.parse type).toOption.bind (·.className?)
  | _ => none

/-- If a statement was gone through, then the type that it allocates can be read. -/
theorem ensures_legible (s : StmtDef) (d : Draft) :
    Ensures (mentionAllocated s) d fun _ _ => Legible s := by
  cases s with
  | new lhs type =>
      simp only [mentionAllocated, readType, ensures_bind]
      split
      · rename_i t ht
        rw [ensures_pure]
        intro _ _ _
        exact ⟨t, ht⟩
      · exact ensures_throw
  | _ => exact ensures_pure.2 trivial

/-- Going through a statement that can be read mentions the class that it allocates. -/
theorem yields_mentionAllocated {s : StmtDef} (hs : Legible s) {d : Draft} (h : d.program.Layered n) :
    Yields (mentionAllocated s) d fun _ d' =>
      Mentions (mentioned? s).toList d.program d'.program := by
  cases s with
  | new lhs type =>
      obtain ⟨t, ht⟩ := hs
      simp only [mentionAllocated, readType, ht, yields_bind, yields_pure, mentioned?]
      change Yields _ d fun _ d' => Mentions t.className?.toList d.program d'.program
      cases t.className? with
      | none => exact yields_pure.2 (.refl _)
      | some name =>
          exact yields_map.2 ((yields_classOrPhantom h name).mono fun _ _ hd => hd.1)
  | _ => exact yields_pure.2 (.refl _)

/-- The classes of the objects that are allocated may be mentioned in any order. -/
theorem follows_mentionAll {l l' : List StmtDef} (hl : l'.Perm l) {d e : Draft}
    (h : Linked n d.program e.program) :
    Follows (l.forM mentionAllocated) (l'.forM mentionAllocated) d e fun _ d' _ e' =>
      Linked n d'.program e'.program := by
  have hyields {l : List StmtDef} (hlegible : ∀ s ∈ l, Legible s) {d : Draft}
      (hd : d.program.Layered n) : Yields (l.forM mentionAllocated) d fun _ d' =>
        Mentions (l.filterMap mentioned?) d.program d'.program := by
    refine Yields.forM (I := fun l d' => Mentions (l.filterMap mentioned?) d.program d'.program)
      (fun s hs l d' hd' => ?_) (.refl _)
    refine (yields_mentionAllocated (hlegible s hs) (hd'.layered hd)).mono fun _ d'' hd'' => ?_
    have happend := hd'.append hd''
    rwa [List.filterMap_append, show [s].filterMap mentioned? = (mentioned? s).toList by
      cases hm : mentioned? s <;> simp [hm]]
  refine .assume (.forall_forM ensures_legible d) ?_
  rintro ⟨-, -, hlegible⟩
  refine .of_yields (hyields hlegible h.alike.left)
    (hyields (fun s hs => hlegible s (hl.subset hs)) h.alike.right) fun _ _ _ _ hd he => ?_
  exact h.mentions hd he fun x => (hl.filterMap mentioned?).mem_iff

/-- Classes with the same parents are linked alike, whatever the order of their statements is. -/
theorem follows_linkClass {x x' : ClassDef} (hsuper : x'.superclass = x.superclass)
    (hinterfaces : x'.interfaces = x.interfaces)
    (hstmts : (x'.methods.flatMap (·.body)).Perm (x.methods.flatMap (·.body))) {c : ClassId}
    (hc : c.idx < n) {d e : Draft} (h : Linked n d.program e.program) :
    Follows (linkClass c x) (linkClass c x') d e fun _ d' _ e' =>
      Linked n d'.program e'.program := by
  rw [linkClass, linkClass, hsuper, hinterfaces]
  refine (follows_linkSuperclass h hc x.superclass).bind fun _ d' _ e' h' => ?_
  refine (Follows.forM (List.forall₂_same.2 fun _ _ => rfl)
    (I := fun d e => Linked n d.program e.program) ?_ h').bind fun _ d'' _ e'' h'' => ?_
  · rintro name _ d e rfl h
    exact follows_linkInterface h hc name
  · exact follows_mentionAll hstmts h''

/-- A class without a parent gets the root as its superclass. -/
theorem yields_adopt {d : Draft} {root c : ClassId} (hroot : root.idx < d.program.classes.size)
    (hc : c.idx < d.program.classes.size) (hnone : d.program.superclass? c = none) :
    Yields (adopt root c) d fun _ d' => d'.program = d.program.pushLinks [⟨c, root, .extends⟩] := by
  simp only [adopt, yields_bind, yields_program, yields_report]
  exact yields_addSuperclass hnone hc hroot

/-- Different classes without a superclass can all be adopted. -/
theorem yields_adoptAll {root : ClassId} {l : List ClassId} (hl : l.Nodup) {d : Draft}
    (hroot : root.idx < d.program.classes.size) (hlt : ∀ c ∈ l, c.idx < d.program.classes.size)
    (hnone : ∀ c ∈ l, d.program.superclass? c = none) :
    Yields (l.forM (adopt root)) d fun _ d' =>
      d'.program = d.program.pushLinks (l.map fun c => ⟨c, root, .extends⟩) := by
  -- by induction on the classes; what the earlier ones inherit from leaves the later ones without a
  -- superclass
  induction l generalizing d with
  | nil => simp [Program.pushLinks]
  | cons c l ih =>
      obtain ⟨hc, hl⟩ := List.nodup_cons.1 hl
      rw [List.forM_eq_forM, List.forM_cons, yields_bind]
      refine (yields_adopt hroot (hlt c (by simp)) (hnone c (by simp))).mono fun _ d' hd' => ?_
      have hsize : d'.program.classes.size = d.program.classes.size := by rw [hd']; rfl
      refine (ih hl (hsize ▸ hroot) (fun k hk => ?_) fun k hk => ?_).mono fun _ d'' hd'' => ?_
      · rw [hsize]
        exact hlt k (List.mem_cons_of_mem c hk)
      -- the link of the class that was adopted is none of another class
      · have hne : c ≠ k := fun heq => hc (heq ▸ hk)
        rw [hd', Program.superclass?_pushLinks (by simpa using hne)]
        exact hnone k (List.mem_cons_of_mem c hk)
      · rw [hd'', hd']
        simp [Program.pushLinks]

/-- The root adopts all classes without a parent. -/
theorem yields_adoptOrphans {d : Draft} {root : ClassId}
    (hroot : root.idx < d.program.classes.size) :
    Yields ((orphans d.program root).forM (adopt root)) d fun _ d' =>
      d'.program = d.program.pushLinks (d.program.orphanLinks root) := by
  have horphan : ∀ c ∈ orphans d.program root, c ∈ d.program.classIds ∧ d.program.parents c = [] := by
    intro c hc
    obtain ⟨hmem, hfree⟩ := List.mem_filter.1 hc
    exact ⟨hmem, (of_decide_eq_true hfree).2⟩
  refine yields_adoptAll (d.program.nodup_classIds.filter _) hroot (fun c hc => ?_) fun c hc => ?_
  · exact Program.mem_classIds.1 (horphan c hc).1
  · exact Program.superclass?_eq_none_of_parents (horphan c hc).2

/-- Closing linked hierarchies keeps them linked. -/
theorem follows_closeHierarchy {d e : Draft} (h : Linked n d.program e.program) :
    Follows closeHierarchy closeHierarchy d e fun _ d' _ e' => Linked n d'.program e'.program := by
  refine (follows_classOrPhantom h rootClassName).bind ?_
  rintro root d' root' e' ⟨hroot, h'⟩
  refine .program (.bind (Q := fun _ d' _ e' => Linked n d'.program e'.program) ?_ ?_)
  · refine .of_yields (yields_adoptOrphans hroot.left) (yields_adoptOrphans hroot.right) ?_
    intro _ d'' _ e'' hd'' he''
    rw [hd'', he'']
    exact ⟨h'.alike.orphanLinks hroot, h'.left.pushLinks _, h'.right.pushLinks _⟩
  · intro _ d'' _ e'' h''
    refine .program (.ite (by rw [h''.alike.isCyclic]) (fun _ => .throw) fun _ => .pure h'')

end Builder

end PointsTo
