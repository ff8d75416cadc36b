import PointsTo.Proofs.Program.Bodies

/-! # Definitions that are accepted

The phases of the construction are put together: a definition is accepted exactly if it is valid.
`Underway` says what the program has while bodies are built, up to the method that comes next.
-/

namespace PointsTo

/-! ## Methods that are implemented -/

/-- A method gets its body after the variables and the statements of the body were added. -/
theorem Builder.Builds.methodAt_setBody {p q : Program} {m : MethodId} (h : Builder.Builds m p q)
    (hm : m.idx < p.methods.size) (b : Body) (n : MethodId) : (q.setBody m b).methodAt n =
      { p.methodAt n with body? := if n = m then some b else (p.methodAt n).body? } := by
  have hmethods : q.methods = p.methods := by rw [h.rest]
  by_cases hn : n = m
  · subst hn
    rw [Program.methodAt_setBody_self q b (by rw [hmethods]; exact hm), if_pos rfl, Program.methodAt,
      hmethods, Program.methodAt]
  · rw [Program.methodAt_setBody_of_ne q b hn, if_neg hn, Program.methodAt, hmethods, Program.methodAt]

namespace Program

/-- The program has the members of the definition, and the bodies of the first `k` methods. -/
structure Underway (d : ProgramDef) (k : Nat) (p : Program) : Prop where
  realizes : p.Realizes d (d.membersAt (·.fields)) (d.membersAt (·.methods))
  registered : p.Registered
  size : p.methods.size = d.methods.length
  header : ∀ (i : Nat) x, d.methods[i]? = some x → x.Heads (p.methodAt ⟨i⟩)
  fits : ∀ m b, (p.methodAt m).body? = some b →
    ∃ x, d.methods[m.idx]? = some x ∧ p.Fits m x b
  bodied : ∀ m, m.idx < p.methods.size → (((p.methodAt m).body?).isSome = true ↔
    m.idx < k ∧ ((p.methodAt m).isAbstract || (p.methodAt m).isNative) = false)
  var : ∀ v, v.idx < p.vars.size → ((p.methodAt (p.varAt v).method).body?).isSome = true

/-- Before any body is built, the first methods are none. -/
theorem Stocked.underway {d : ProgramDef} {p : Program} (h : p.Stocked d.methods)
    (hp : p.Realizes d (d.membersAt (·.fields)) (d.membersAt (·.methods))) : p.Underway d 0 := by
  refine ⟨hp, h.registered, h.size, h.header, fun m b hb => ?_, fun m _ => ?_, fun v hv => ?_⟩
  · rw [h.bare] at hb
    cases hb
  · rw [h.bare]
    simp
  · rw [h.vars] at hv
    exact absurd hv (Nat.not_lt_zero _)

namespace Underway

variable {d : ProgramDef} {k : Nat} {p q : Program} {x : MethodDef} (h : p.Underway d k)

include h

theorem lt_size (hx : d.methods[k]? = some x) : k < p.methods.size := by
  rw [h.size]
  exact (List.getElem?_eq_some_iff.1 hx).1

/-- The next method has no variables yet. -/
theorem fresh (hx : d.methods[k]? = some x) {v : VarId} (hv : v.idx < p.vars.size) :
    (p.varAt v).method ≠ ⟨k⟩ := by
  intro hm
  have hbody := h.var v hv
  rw [hm, h.bodied ⟨k⟩ (h.lt_size hx)] at hbody
  exact Nat.lt_irrefl k hbody.1

/-- A method without an implementation is left as it is. -/
theorem skip (hx : d.methods[k]? = some x) (hbodiless : x.isBodiless = true) :
    p.Underway d (k + 1) := by
  refine ⟨h.realizes, h.registered, h.size, h.header, h.fits, fun m hm => ?_, h.var⟩
  rw [h.bodied m hm]
  refine ⟨fun hb => ⟨by omega, hb.2⟩, fun hb => ⟨?_, hb.2⟩⟩
  by_cases hk : m.idx = k
  · have hheads := h.header k x hx
    obtain rfl : m = ⟨k⟩ := congrArg MethodId.mk hk
    rw [MethodDef.isBodiless, ← hheads.isAbstract, ← hheads.isNative, hb.2] at hbodiless
    cases hbodiless
  · omega

/-- The next method gets its body. -/
theorem setBody (hx : d.methods[k]? = some x) (hbodiless : x.isBodiless = false)
    (hq : Builder.Builds ⟨k⟩ p q) {b : Body} (hb : q.Fits ⟨k⟩ x b) :
    (q.setBody ⟨k⟩ b).Underway d (k + 1) := by
  have hmethod := hq.methodAt_setBody (h.lt_size hx) b
  have hclasses : q.classes = p.classes := by rw [hq.rest]
  have hlinks : q.links = p.links := by rw [hq.rest]
  have hfields : q.fields = p.fields := by rw [hq.rest]
  have hmethods : q.methods = p.methods := by rw [hq.rest]
  have hsize : (q.setBody ⟨k⟩ b).methods.size = p.methods.size := by
    rw [← hmethods]
    exact Array.size_modify
  refine ⟨h.realizes.congr hclasses hlinks hfields,
    h.registered.congr hclasses hfields hsize fun m => by rw [hmethod]; exact ⟨rfl, rfl⟩,
    hsize.trans h.size, fun i y hy => ?_, fun m c hc => ?_, fun m hm => ?_, fun v hv => ?_⟩
  · rw [hmethod]
    exact { h.header i y hy with }
  · rw [hmethod] at hc
    -- the method is the one that gets its body, or one whose body was built before
    by_cases hm : m = ⟨k⟩
    · subst hm
      obtain rfl : b = c := Option.some.inj ((if_pos rfl).symm.trans hc)
      refine ⟨x, hx, hb.congr rfl rfl ?_ ?_⟩
      · rw [hmethod, methodAt, methodAt, hmethods]
      · rw [hmethod, methodAt, methodAt, hmethods]
    · obtain ⟨y, hy, hfits⟩ := h.fits m c ((if_neg hm).symm.trans hc)
      have hgrown : (q.setBody ⟨k⟩ b).Fits m y c := by
        refine hfits.mono (q := q.setBody ⟨k⟩ b) { hq.contains with } ?_ ?_ fun v hle hlt hv => ?_
        · rw [hmethod]
        · rw [hmethod]
        · exact hm (hv.symm.trans (hq.fresh v hle hlt))
      exact ⟨y, hy, hgrown⟩
  · rw [hsize] at hm
    rw [hmethod]
    show ((if m = ⟨k⟩ then some b else (p.methodAt m).body?).isSome = true ↔ m.idx < k + 1 ∧
      ((p.methodAt m).isAbstract || (p.methodAt m).isNative) = false)
    by_cases hk : m = ⟨k⟩
    · have hheads := h.header k x hx
      rw [MethodDef.isBodiless, ← hheads.isAbstract, ← hheads.isNative] at hbodiless
      rw [if_pos hk, hk]
      exact ⟨fun _ => ⟨Nat.lt_succ_self k, hbodiless⟩, fun _ => rfl⟩
    · have hidx : m.idx ≠ k := fun heq => hk (congrArg MethodId.mk heq)
      rw [if_neg hk, h.bodied m hm]
      exact and_congr_left fun _ => by omega
  · show ((((q.setBody ⟨k⟩ b).methodAt (q.varAt v).method).body?).isSome) = true
    rw [hmethod]
    show (if (q.varAt v).method = ⟨k⟩ then some b else _).isSome = true
    by_cases hm : (q.varAt v).method = ⟨k⟩
    · rw [if_pos hm]
      rfl
    · have hlt : v.idx < p.vars.size := by
        apply Nat.lt_of_not_le
        intro hle
        exact hm (hq.fresh v hle hv)
      rw [if_neg hm, (hq.contains.declared hlt).1]
      exact h.var v hlt

omit h in
/-- The choice of an entry method changes nothing else. -/
theorem setEntry (h : p.Underway d k) (entry : Option MethodId) :
    { p with entry? := entry }.Underway d k where
  realizes := h.realizes.congr rfl rfl rfl
  registered := h.registered.congr rfl rfl rfl fun _ => ⟨rfl, rfl⟩
  size := h.size
  header := h.header
  fits m b hb := by
    obtain ⟨x, hx, hfits⟩ := h.fits m b hb
    exact ⟨x, hx, hfits.congr rfl rfl rfl rfl⟩
  bodied := h.bodied
  var := h.var

end Underway

end Program

namespace Builder

variable {d : ProgramDef} {e : Draft}

/-- A method is implemented if its body is right or ignored. -/
theorem decides_implement {k : Nat} {x : MethodDef} (h : e.program.Underway d k)
    (hx : d.methods[k]? = some x) :
    Decides (implement (⟨k⟩, x)) e (x.isBodiless = false → d.RightBody x) fun _ e' =>
      e'.program.Underway d (k + 1) := by
  unfold implement
  by_cases hbodiless : x.isBodiless = true
  · rw [if_pos (show (x.isAbstract || x.isNative) = true from hbodiless)]
    -- at most, the ignored body is reported
    have hignored : Yields (do
        unless x.body.isEmpty do
          report .warn ("ignoring the body of " ++ (if x.isAbstract then "abstract" else "native")
            ++ " method " ++ (← program).methodText ⟨k⟩) : Builder Unit) e
          fun _ e' => e'.program = e.program := by
      split
      · exact yields_pure.2 rfl
      · simp
    refine ((hignored.mono fun _ e' he' => ?_).decides).congr (by simp [hbodiless])
    rw [he']
    exact h.skip hx hbodiless
  · rw [if_neg (show ¬(x.isAbstract || x.isNative) = true from hbodiless)]
    rw [Bool.not_eq_true] at hbodiless
    have hbuild := decides_buildBody h.realizes h.registered (h.header k x hx) fun v hv => h.fresh hx hv
    refine (hbuild.bind (S := True) fun _ b e' hb => ?_).congr (by simp [hbodiless])
    exact (yields_update.2 (h.setBody hx hbodiless hb.1 hb.2)).decides

theorem map_snd_numbered (n : Nat) (ms : List MethodDef) : (numbered n ms).map (·.2) = ms := by
  rw [numbered, List.map_map]
  exact List.zipIdx_map_fst n ms

/-- A method is at its number. -/
theorem getElem?_numbered {ms : List MethodDef} {i : Nat} {m : MethodId × MethodDef}
    (h : (numbered 0 ms)[i]? = some m) : m.1 = ⟨i⟩ ∧ ms[i]? = some m.2 := by
  rw [numbered, List.getElem?_map, List.getElem?_zipIdx, Option.map_map] at h
  obtain ⟨x, hx, rfl⟩ := Option.map_eq_some_iff.1 h
  exact ⟨congrArg MethodId.mk (Nat.zero_add i), hx⟩

/-- All methods are implemented if their bodies are right or ignored. -/
theorem decides_implementAll (h : e.program.Underway d 0) :
    Decides ((numbered 0 d.methods).forM implement) e
      (∀ c ∈ d.classes, ∀ m ∈ c.methods, m.isBodiless = false → d.RightBody m) fun _ e' =>
        e'.program.Underway d d.methods.length := by
  -- The invariant of the loop is that the first methods have their bodies, as many as were looked at.
  refine ((Decides.forM (P := fun _ m => m.2.isBodiless = false → d.RightBody m.2)
    (I := fun done e' => e'.program.Underway d done.length) ?_ h).congr ?_).mono ?_
  · intro before m after hsplit e' h'
    have hm : (numbered 0 d.methods)[before.length]? = some m := by
      rw [hsplit, List.getElem?_append_right (Nat.le_refl _), Nat.sub_self]
      rfl
    obtain ⟨hid, hx⟩ := getElem?_numbered hm
    have himplement := decides_implement h' hx
    rw [← hid] at himplement
    rw [List.length_append, List.length_singleton]
    exact himplement
  · have hmethods : (∀ m ∈ d.methods, m.isBodiless = false → d.RightBody m) ↔
        ∀ c ∈ d.classes, ∀ m ∈ c.methods, m.isBodiless = false → d.RightBody m := by
      rw [ProgramDef.methods, List.forall_mem_flatMap]
    rw [each_const, ← hmethods]
    conv_lhs => rw [← map_snd_numbered 0 d.methods]
    rw [List.forall_mem_map]
  · intro _ e' h'
    have hlength : (numbered 0 d.methods).length = d.methods.length := by
      rw [← List.length_map (·.2), map_snd_numbered]
    rw [← hlength]
    exact h'

/-! ## The entry method -/

/-- A method is found exactly if its class declares it. -/
theorem isSome_findMethod?_iff {k : Nat} {p : Program} (h : p.Underway d k) (r : MethodRef) :
    (p.findMethod? r).isSome = true ↔ d.DeclaresMethod r := by
  have hp := h.realizes
  constructor
  -- The reference is found in a class of the table, whose number is that of a definition.
  · intro hsome
    obtain ⟨m, hm⟩ := Option.isSome_iff_exists.1 hsome
    obtain ⟨c, hc, hdeclared⟩ := Option.bind_eq_some_iff.1 hm
    obtain ⟨hlt, hname⟩ := hp.layered.findClass?_eq_some_iff.1 hc
    have hmem := (hp.method c r.subsignature).1 (by rw [hdeclared]; rfl)
    rw [ProgramDef.membersAt] at hmem
    cases hx : d.classes[c.idx]? with
    | none =>
        rw [hx] at hmem
        cases hmem
    | some x =>
        rw [hx] at hmem
        refine ⟨x, List.mem_of_getElem? hx, ?_, hmem⟩
        rw [← hname]
        exact (hp.defined c.idx x hx).1.symm
  · rintro ⟨x, hx, hname, hmem⟩
    obtain ⟨i, hi⟩ := List.mem_iff_getElem?.1 hx
    have hlt : i < p.classes.size :=
      Nat.lt_of_lt_of_le (List.getElem?_eq_some_iff.1 hi).1 hp.layered.le
    have hfind : p.findClass? r.className = some ⟨i⟩ :=
      hp.layered.findClass?_eq_some_iff.2 ⟨hlt, (hp.defined i x hi).1.trans hname⟩
    rw [Program.findMethod?, hfind]
    refine (hp.method ⟨i⟩ r.subsignature).2 ?_
    rw [ProgramDef.membersAt, hi]
    exact hmem

/-- The declared entry method has to be a method of the class that it names. -/
theorem decides_selectEntry {k : Nat} (h : e.program.Underway d k) (entry : Option String) :
    Decides (selectEntry entry) e
      (∀ t, entry = some t → ∃ r, MethodRef.parse t = .ok r ∧ d.DeclaresMethod r) fun _ e' =>
        e'.program = e.program := by
  cases entry with
  | some t =>
      refine ((decides_readMethodRef t e).bind (S := ∀ r, MethodRef.parse t = .ok r →
        d.DeclaresMethod r) fun _ r e' he => ?_).congr ?_
      -- The text can be read. Whether the method is found decides what is left.
      · rw [he.2]
        have hfound := isSome_findMethod?_iff h r
        refine .program ?_
        cases hm : e.program.findMethod? r with
        | none =>
            rw [hm] at hfound
            refine (Decides.throw rfl).congr (iff_false_intro fun hall => ?_)
            exact Bool.false_ne_true (hfound.2 (hall r he.1))
        | some m =>
            rw [hm] at hfound
            refine (Decides.done (some m) e).mono (fun _ _ => congrArg Draft.program) |>.congr
              (iff_true_intro fun r' hr' => ?_)
            cases he.1.symm.trans hr'
            exact hfound.1 rfl
      · constructor
        · intro hall
          obtain ⟨r, hr, hdeclares⟩ := hall t rfl
          refine ⟨⟨r, hr⟩, fun r' hr' => ?_⟩
          cases hr.symm.trans hr'
          exact hdeclares
        · rintro ⟨⟨r, hr⟩, hall⟩ t' ht'
          cases ht'
          exact ⟨r, hr, hall r hr⟩
  | none =>
      have hmain : Yields (selectEntry none) e fun _ e' => e'.program = e.program := by
        rw [selectEntry, yields_bind, yields_program]
        split
        · exact yields_pure.2 rfl
        · simp
        · simp
      exact hmain.decides.congr (by simp)

/-! ## Programs -/

/-- The types of all objects can be read if all statements are legible. -/
theorem legible_iff (l : List StmtDef) :
    (∀ s ∈ l, Legible s) ↔ ∀ lhs type, StmtDef.new lhs type ∈ l → IsType type := by
  constructor
  · intro h lhs type hs
    exact h _ hs
  · intro h s hs
    cases s with
    | new lhs type => exact h lhs type hs
    | _ => trivial

/-- A definition is built if it is valid. -/
theorem decides_build (d : ProgramDef) (log : Log) :
    Decides (build d) ⟨.empty, log⟩ d.Valid fun _ e' =>
      e'.program.Underway d d.methods.length := by
  refine Decides.congr (P := (d.classes.map (·.name)).Nodup ∧
    (∀ c ∈ d.classes, ∀ s ∈ c.stmts, Legible s) ∧
      ((∀ x, ¬Relation.TransGen d.DeclaresParent x x) ∧ ∀ x, ¬d.DeclaresParent rootClassName x) ∧
        (∀ c ∈ d.classes, c.RightMembers) ∧
          (∀ c ∈ d.classes, ∀ m ∈ c.methods, m.isBodiless = false → d.RightBody m) ∧
            (∀ t, d.entry = some t → ∃ r, MethodRef.parse t = .ok r ∧ d.DeclaresMethod r) ∧ True)
    ?_ ?_
  · unfold build
    -- the phases are decided one after the other; each starts from what the one before it has ensured
    refine (decides_defineClasses d.classes log).bind fun hnames ids e₁ ⟨hids, h₁⟩ => ?_
    rw [hids]
    refine (decides_linkClasses hnames h₁).bind fun _ _ e₂ h₂ => ?_
    refine (decides_closeHierarchy h₂).bind fun _ _ e₃ ⟨h₃, hacyclic⟩ => ?_
    refine (decides_declareAll h₃ hacyclic).bind fun _ mss e₄ ⟨hmss, h₄, hstocked⟩ => ?_
    rw [hmss]
    refine (decides_implementAll (hstocked.underway h₄)).bind fun _ _ e₅ h₅ => ?_
    refine (decides_selectEntry h₅ d.entry).bind fun _ entry e₆ he₆ => ?_
    have hfinal : Yields (do
        update fun p => { p with entry? := entry }
        let p ← program
        report .debug ("program loaded: " ++ toString p.classes.size ++ " classes, "
          ++ toString p.methods.size ++ " methods, " ++ toString p.stmts.size ++ " statements")) e₆
        fun _ e' => e'.program = { e₅.program with entry? := entry } := by
      simp [he₆]
    refine (hfinal.mono fun _ e' he' => ?_).decides
    rw [he']
    exact h₅.setEntry entry
  · constructor
    · intro h
      exact ⟨h.classNames, fun c hc => (legible_iff c.stmts).2 (h.allocated c hc),
        ⟨h.acyclic, h.root⟩, h.members, h.bodies, h.entry, trivial⟩
    · rintro ⟨hnames, hlegible, ⟨hacyclic, hroot⟩, hmembers, hbodies, hentry, -⟩
      exact ⟨hnames, hacyclic, hroot, fun c hc => (legible_iff c.stmts).1 (hlegible c hc), hmembers,
        hbodies, hentry⟩

end Builder

namespace Program

/-- A program is a draft that the builder ends with. -/
theorem build_eq_ok_iff {d : ProgramDef} {p : Program} : (build d).1 = .ok p ↔
    ∃ e, (Builder.build d).run.run ⟨empty, #[]⟩ = (.ok (), e) ∧ e.program = p := by
  unfold build
  rcases (Builder.build d).run.run ⟨empty, #[]⟩ with ⟨err | u, e⟩
  · constructor
    · intro h
      cases h
    · rintro ⟨e', he', -⟩
      cases he'
  · constructor
    · intro h
      exact ⟨e, rfl, Except.ok.inj h⟩
    · rintro ⟨e', he', rfl⟩
      cases he'
      rfl

/-- The checks of the hierarchy refuse no definition: every class is a new node, is linked to nodes, and
gets a superclass once. -/
theorem build_ne_hierarchy (d : ProgramDef) (err : HierarchyError) :
    (build d).1 ≠ .error (.hierarchy err) := by
  have hfault := (Builder.decides_build d #[]).fault
  unfold build
  rcases hrun : (Builder.build d).run.run ⟨empty, #[]⟩ with ⟨err' | u, e⟩
  · rintro ⟨⟩
    cases hfault _ e hrun
  · rintro ⟨⟩

/-- Nor do they refuse a document. -/
theorem load_ne_hierarchy (document : String) (err : HierarchyError) :
    (load document).1 ≠ .error (.hierarchy err) := by
  rw [load]
  cases ProgramDef.parse? document with
  | none => rintro ⟨⟩
  | some d => exact build_ne_hierarchy d err

/-- The program of a definition has its members and their bodies. -/
theorem build_underway {d : ProgramDef} {p : Program} (h : (build d).1 = .ok p) :
    p.Underway d d.methods.length := by
  obtain ⟨e, hrun, rfl⟩ := build_eq_ok_iff.1 h
  exact ((Builder.decides_build d #[]).ensures () e hrun).2

/-- The definition of a program is valid. -/
theorem build_valid {d : ProgramDef} {p : Program} (h : (build d).1 = .ok p) : d.Valid := by
  obtain ⟨e, hrun, -⟩ := build_eq_ok_iff.1 h
  exact ((Builder.decides_build d #[]).ensures () e hrun).1

/-- Exactly the valid definitions are accepted. -/
theorem build_ok_iff_valid (d : ProgramDef) : (∃ p, (build d).1 = .ok p) ↔ d.Valid := by
  constructor
  · rintro ⟨p, hp⟩
    exact build_valid hp
  · intro hvalid
    obtain ⟨_, e, hrun, -⟩ := (Builder.decides_build d #[]).yields hvalid
    exact ⟨e.program, build_eq_ok_iff.2 ⟨e, hrun, rfl⟩⟩

end Program

end PointsTo
