import PointsTo.Proofs.Program.Acceptance
import PointsTo.Proofs.Solver.Exactness

/-! # The tables of a program agree

Every identifier that a loaded program stores is one of a table and leads to a part that leads back, every
method with an implementation has a body of the right shape, and the variables list the statements that use
them. The analysis reads nothing but these tables.
-/

namespace PointsTo

namespace Program

/-- Classes and names correspond to each other, and the hierarchy has all classes: they inherit from the
root. -/
structure Rooted (p : Program) : Prop where
  find : ∀ x c, p.findClass? x = some c ↔ c.idx < p.classes.size ∧ (p.classAt c).name = x
  link : ∀ l ∈ p.links, l.child.idx < p.classes.size ∧ l.parent.idx < p.classes.size
  acyclic : p.Acyclic
  root : ∃ root, p.findClass? rootClassName = some root ∧
    ∀ c, c.idx < p.classes.size → p.Inherits c root

/-- A class lists the members that it declares, by subsignature and by name, and nothing else. -/
structure Declared (p : Program) : Prop where
  method : ∀ c s m, p.declared? c s = some m ↔
    m.idx < p.methods.size ∧ (p.methodAt m).owner = c ∧ (p.methodAt m).ref.subsignature = s
  field : ∀ c x f, p.declaredField? c x = some f ↔
    f.idx < p.fields.size ∧ (p.fieldAt f).owner = c ∧ (p.fieldAt f).name = x
  methodEntry : ∀ c, ∀ e ∈ (p.classAt c).methods, p.declared? c e.1 = some e.2
  fieldEntry : ∀ c, ∀ e ∈ (p.classAt c).fields, p.declaredField? c e.1 = some e.2
  methodOwner : ∀ m, m.idx < p.methods.size → (p.methodAt m).owner.idx < p.classes.size ∧
    (p.methodAt m).ref.className = (p.classAt (p.methodAt m).owner).name
  fieldOwner : ∀ f, f.idx < p.fields.size → (p.fieldAt f).owner.idx < p.classes.size ∧
    (p.fieldAt f).className = (p.classAt (p.fieldAt f).owner).name

/-- A method has a body unless it is abstract or native, of the shape of its definition. The variables and
statements of the table are those of the bodies, and statements are in their places. -/
structure Embodied (d : ProgramDef) (p : Program) : Prop where
  bodied : ∀ m, m.idx < p.methods.size → (((p.methodAt m).body?).isSome = true ↔
    (p.methodAt m).isAbstract = false ∧ (p.methodAt m).isNative = false)
  fits : ∀ m b, (p.methodAt m).body? = some b →
    ∃ x, d.methods[m.idx]? = some x ∧ p.Fits m x b
  var : ∀ v, v.idx < p.vars.size → (p.varAt v).method.idx < p.methods.size ∧
    ∃ b, (p.methodAt (p.varAt v).method).body? = some b ∧ v ∈ b.vars
  stmt : ∀ s, s.idx < p.stmts.size → (p.stmtAt s).method.idx < p.methods.size ∧
    ∃ b, (p.methodAt (p.stmtAt s).method).body? = some b ∧ b.stmts[(p.stmtAt s).index]? = some s

/-- The tables agree with each other. A variable lists the statements of each kind of access whose base it
is, each once and in increasing order. -/
structure Consistent (d : ProgramDef) (p : Program) : Prop extends Rooted p, Declared p, Embodied d p where
  use : ∀ k v s, s ∈ (p.varAt v).uses k ↔
    s.idx < p.stmts.size ∧ (p.stmtAt s).kind.access? = some (k, v)
  sorted : ∀ k v, ((p.varAt v).uses k).Pairwise (·.idx < ·.idx)
  accessed : ∀ s f, (p.stmtAt s).kind.field? = some f → f.idx < p.fields.size
  entry : ∀ m, p.entry? = some m → m.idx < p.methods.size

namespace Underway

variable {d : ProgramDef} {k : Nat} {p : Program} (h : p.Underway d k)

include h

/-- While bodies are built, all classes inherit from the root. -/
theorem rooted : p.Rooted := by
  have hconnects := h.realizes.toConnects
  have hroot : rootClassName ∈ p.classNames := by
    rw [hconnects.names]
    simp [ProgramDef.names]
  obtain ⟨root, hlt, hname⟩ := List.mem_map.1 hroot
  have hfind := hconnects.layered.findClass?_eq_some_iff.2 ⟨mem_classIds.1 hlt, hname⟩
  exact ⟨fun x c => hconnects.layered.findClass?_eq_some_iff, fun _ => hconnects.layered.links_lt,
    h.realizes.acyclic, root, hfind, fun c hc => hconnects.inherits_root h.realizes.acyclic hfind hc⟩

/-- While bodies are built, classes list what they declare. -/
theorem declared : p.Declared where
  method _ _ _ := h.registered.declared?_eq_some_iff
  field _ _ _ := h.registered.declaredField?_eq_some_iff
  methodEntry c _ he := (lookup_eq_some_iff_mem (h.registered.methods.nodup c)).2 he
  fieldEntry c _ he := (lookup_eq_some_iff_mem (h.registered.fields.nodup c)).2 he
  methodOwner := h.registered.methodOwner
  fieldOwner := h.registered.fieldOwner

end Underway

/-- When all methods were implemented, those with an implementation have their bodies. -/
theorem Underway.embodied {d : ProgramDef} {p : Program} (h : p.Underway d d.methods.length)
    (wf : p.WellFormed) : p.Embodied d where
  bodied m hm := by
    have hlt : m.idx < d.methods.length := h.size ▸ hm
    rw [h.bodied m hm, Bool.or_eq_false_iff, and_iff_right hlt]
  fits := h.fits
  var v hv := by
    obtain ⟨b, hb⟩ := Option.isSome_iff_exists.1 (h.var v hv)
    obtain ⟨x, -, hfits⟩ := h.fits _ b hb
    exact ⟨lt_size_of_body hb, b, hb, (hfits.mem_vars v).2 ⟨hv, rfl⟩⟩
  stmt s hs := by
    obtain ⟨b, hb⟩ := Option.isSome_iff_exists.1 (wf.bodied s hs)
    have hmem := ((wf.body _ b hb).stmt s).2 ⟨hs, rfl⟩
    obtain ⟨i, hi⟩ := List.mem_iff_getElem?.1 hmem
    obtain ⟨x, -, hfits⟩ := h.fits _ b hb
    obtain ⟨-, -, hindex⟩ := hfits.stmt i s hi
    exact ⟨lt_size_of_body hb, b, hb, hindex ▸ hi⟩

/-- A statement that is indexed is one of the table. -/
theorem Indexed.mem_uses_iff {p : Program} (h : p.Indexed) (k : AccessKind) (v : VarId) (s : StmtId) :
    s ∈ (p.varAt v).uses k ↔ s.idx < p.stmts.size ∧ (p.stmtAt s).kind.access? = some (k, v) := by
  rw [h.use]
  refine ⟨fun haccess => ⟨lt_size_of_kind fun hkind => ?_, haccess⟩, And.right⟩
  rw [hkind] at haccess
  cases haccess

/-- The tables agree once all members have their bodies. -/
theorem Underway.consistent {d : ProgramDef} {p : Program} (h : p.Underway d d.methods.length)
    (wf : p.WellFormed) : p.Consistent d :=
  { h.rooted, h.declared, h.embodied wf with
    use := wf.indexed.mem_uses_iff
    sorted := wf.indexed.sorted
    accessed := wf.indexed.field
    entry := wf.entry }

/-- The tables of every loaded program agree. -/
theorem build_consistent {d : ProgramDef} {p : Program} (h : (build d).1 = .ok p) :
    p.Consistent d :=
  (build_underway h).consistent (build_wellFormed h)

/-- The sample is built, with all its statements. -/
theorem build_consistent_sample :
    ∃ p, (build .sample).1 = .ok p ∧ p.stmts.size = 7 ∧ p.Consistent .sample := by
  have hsize : ((build .sample).1.toOption.map fun p => p.stmts.size) = some 7 := by decide +kernel
  obtain ⟨p, hp⟩ : ∃ p, (build .sample).1 = .ok p := exists_ok_of_toBool (by decide +kernel)
  rw [hp] at hsize
  exact ⟨p, hp, Option.some.inj hsize, build_consistent hp⟩

end Program

end PointsTo
