import PointsTo.Proofs.Program.Linking
import PointsTo.Proofs.Program.Resolution
import Mathlib.Data.List.Sigma
import Mathlib.Logic.Equiv.Basic

/-! # Rearranged programs

If the statements of a definition are rearranged within their bodies, then the definition is accepted
as it was before, and the program is the same up to the numbers of phantom classes and the positions of
the statements. The two definitions are built side by side: classes are mentioned in another order, so
the hierarchies are alike; members and variables are the same; and the statements of a body are resolved
to the same kinds, in their new order.
-/

namespace PointsTo

/-! ## Definitions -/

/-- A list whose members are moved by a permutation of the indices. -/
theorem perm_of_getElem? {α : Type} {τ : Equiv.Perm Nat} {l l' : List α}
    (h : ∀ i, l'[τ i]? = l[i]?) : l'.Perm l := by
  have hnodup (l : List α) : l.zipIdx.Nodup := .of_map _ (List.nodup_zipIdx_map_snd l)
  -- members with their indices are different, and they are the same on both sides
  have hperm : l'.zipIdx.Perm (l.zipIdx.map fun x => (x.1, τ x.2)) := by
    refine (List.perm_ext_iff_of_nodup (hnodup l') ((hnodup l).map fun x y hxy => ?_)).2 fun x => ?_
    · obtain ⟨hfst, hsnd⟩ := Prod.mk.inj hxy
      exact Prod.ext hfst (τ.injective hsnd)
    · rw [List.mem_zipIdx_iff_getElem?, List.mem_map, ← τ.apply_symm_apply x.2, h]
      constructor
      · intro hx
        exact ⟨(x.1, τ.symm x.2), List.mem_zipIdx_iff_getElem?.2 hx, by simp⟩
      · rintro ⟨y, hy, rfl⟩
        simpa using List.mem_zipIdx_iff_getElem?.1 hy
  have hfst := hperm.map Prod.fst
  rw [List.zipIdx_map_fst, List.map_map] at hfst
  exact hfst.trans (.of_eq (List.zipIdx_map_fst 0 l))

/-- The permutation that moves indices as the given one does, behind a first index that stays. -/
def permBehind (τ : Equiv.Perm Nat) : Equiv.Perm Nat where
  toFun
    | 0 => 0
    | i + 1 => τ i + 1
  invFun
    | 0 => 0
    | i + 1 => τ.symm i + 1
  left_inv i := by cases i <;> simp
  right_inv i := by cases i <;> simp

/-- A list that is permuted is moved by some permutation of all indices. -/
theorem exists_perm_getElem? {α : Type} {l l' : List α} (h : l.Perm l') :
    ∃ τ : Equiv.Perm Nat, ∀ i, l'[τ i]? = l[i]? := by
  -- by induction on the permutation; indices behind the end of the list may be moved anywhere, so they
  -- stay
  induction h with
  | nil => exact ⟨.refl _, fun _ => rfl⟩
  | cons a _ ih =>
      obtain ⟨τ, hτ⟩ := ih
      refine ⟨permBehind τ, fun i => ?_⟩
      cases i with
      | zero => rfl
      | succ i => exact hτ i
  | swap a b l =>
      refine ⟨.swap 0 1, fun i => ?_⟩
      match i with
      | 0 => rfl
      | 1 => rfl
      | i + 2 => rw [Equiv.swap_apply_of_ne_of_ne (by omega) (by omega)]; rfl
  | trans _ _ ih ih' =>
      obtain ⟨τ, hτ⟩ := ih
      obtain ⟨τ', hτ'⟩ := ih'
      exact ⟨τ.trans τ', fun i => (hτ' _).trans (hτ i)⟩

def MethodDef.bare (m : MethodDef) : MethodDef := { m with body := [] }

def ClassDef.bare (c : ClassDef) : ClassDef := { c with methods := c.methods.map (·.bare) }

def ProgramDef.bare (d : ProgramDef) : ProgramDef := { d with classes := d.classes.map (·.bare) }

def ProgramDef.methods (d : ProgramDef) : List MethodDef := d.classes.flatMap (·.methods)

/-- The second method is the first one with its statements rearranged: the one at the index `i` is moved
to the index `τ i`. -/
structure MethodDef.Rearranges (τ : Equiv.Perm Nat) (m m' : MethodDef) : Prop where
  bare : m'.bare = m.bare
  stmt : ∀ i : Nat, m'.body[τ i]? = m.body[i]?

/-- The second definition is the first one with the statements of each body rearranged: the statement at
the index `i` of the method of the number `m` is moved to the index `σ m i`. -/
structure ProgramDef.Rearranges (σ : Nat → Equiv.Perm Nat) (d d' : ProgramDef) : Prop where
  bare : d'.bare = d.bare
  method : ∀ (i : Nat) (m m' : MethodDef), d.methods[i]? = some m → d'.methods[i]? = some m' →
    m.Rearranges (σ i) m'

/-- Rearranging back is a rearrangement. -/
theorem ProgramDef.Rearranges.symm {σ : Nat → Equiv.Perm Nat} {d d' : ProgramDef}
    (h : d.Rearranges σ d') : d'.Rearranges (fun i => (σ i).symm) d where
  bare := h.bare.symm
  method i m m' hm hm' := by
    have hmethod := h.method i m' m hm' hm
    refine ⟨hmethod.bare.symm, fun j => ?_⟩
    rw [← hmethod.stmt, Equiv.apply_symm_apply]

/-- Lists that are related when put together are related one by one, if they are as long. -/
theorem forall₂_of_flatMap {α β γ δ : Type} {S : α → β → Prop} {R : γ → δ → Prop} {f : α → List γ}
    {g : β → List δ} (hlength : ∀ a b, S a b → (g b).length = (f a).length) {l : List α} {l' : List β}
    (hl : List.Forall₂ S l l') (h : List.Forall₂ R (l.flatMap f) (l'.flatMap g)) :
    List.Forall₂ (fun a b => S a b ∧ List.Forall₂ R (f a) (g b)) l l' := by
  induction hl with
  | nil => exact .nil
  | @cons a b l l' hab _ ih =>
      rw [List.flatMap_cons, List.flatMap_cons] at h
      have hfirst := List.forall₂_take_append _ _ _ h
      have hrest := List.forall₂_drop_append _ _ _ h
      rw [hlength a b hab, List.take_left] at hfirst
      rw [hlength a b hab, List.drop_left] at hrest
      exact .cons ⟨hab, hfirst⟩ (ih hrest)

/-- Related lists stay related when their elements are numbered. -/
theorem forall₂_zip_of {α β γ : Type} {R : α → β → Prop} {l : List α} {l' : List β}
    (h : List.Forall₂ R l l') (ids : List γ) :
    List.Forall₂ (fun a b => b.1 = a.1 ∧ a.1 ∈ ids ∧ R a.2 b.2) (ids.zip l) (ids.zip l') := by
  induction h generalizing ids with
  | nil => simp
  | cons hab _ ih =>
      cases ids with
      | nil => exact .nil
      | cons i ids =>
          refine .cons ⟨rfl, by simp, hab⟩ ((ih ids).imp fun a b hab => ?_)
          exact ⟨hab.1, List.mem_cons_of_mem i hab.2.1, hab.2.2⟩

/-- The methods of a definition without statements are its methods without statements. -/
theorem ProgramDef.methods_bare (d : ProgramDef) : d.bare.methods = d.methods.map (·.bare) := by
  simp [methods, ProgramDef.bare, ClassDef.bare, List.flatMap_map, List.map_flatMap]

section Definitions

variable {σ : Nat → Equiv.Perm Nat} {d d' : ProgramDef}

/-- The methods are the same except for their bodies. -/
theorem ProgramDef.forall₂_bare (h : d'.bare = d.bare) :
    List.Forall₂ (fun m m' => m'.bare = m.bare) d.methods d'.methods := by
  refine forall₂_of_map_eq (f := MethodDef.bare) (g := MethodDef.bare) ?_ fun _ _ _ _ heq => heq
  rw [← methods_bare, ← methods_bare, h]

/-- The bodies are the same up to the order of their statements. -/
theorem ProgramDef.Rearranges.bodies (h : d.Rearranges σ d') :
    List.Forall₂ (fun m m' => m'.body.Perm m.body) d.methods d'.methods := by
  refine List.forall₂_iff_get.2 ⟨(forall₂_bare h.bare).length_eq, fun i hi hi' => ?_⟩
  exact perm_of_getElem? (h.method i _ _ (List.getElem?_eq_getElem hi)
    (List.getElem?_eq_getElem hi')).stmt

/-- A definition is rearranged if the statements of its bodies are permuted, and nothing else is
changed. -/
theorem ProgramDef.exists_rearranges_iff : (∃ σ, d.Rearranges σ d') ↔ d'.bare = d.bare ∧
    List.Forall₂ (fun m m' => m'.body.Perm m.body) d.methods d'.methods := by
  refine ⟨fun ⟨σ, h⟩ => ⟨h.bare, h.bodies⟩, fun ⟨hbare, hbodies⟩ => ?_⟩
  have hperm (i : Nat) : ∃ τ : Equiv.Perm Nat, ∀ m m', d.methods[i]? = some m →
      -- the permutations are given method by method, and are chosen for all methods at once
      d'.methods[i]? = some m' → m.Rearranges τ m' := by
    by_cases hi : i < d.methods.length
    · have hi' : i < d'.methods.length := hbodies.length_eq ▸ hi
      obtain ⟨τ, hτ⟩ := exists_perm_getElem? (hbodies.get hi hi').symm
      refine ⟨τ, fun m m' hm hm' => ?_⟩
      rw [List.getElem?_eq_getElem hi] at hm
      rw [List.getElem?_eq_getElem hi'] at hm'
      cases hm
      cases hm'
      exact ⟨(forall₂_bare hbare).get hi hi', hτ⟩
    · refine ⟨.refl _, fun m m' hm => ?_⟩
      rw [List.getElem?_eq_none (Nat.le_of_not_lt hi)] at hm
      cases hm
  choose σ hσ using hperm
  exact ⟨σ, hbare, hσ⟩

/-- The statements of each class are the same, up to their order. -/
theorem ProgramDef.Rearranges.classes (h : d.Rearranges σ d') :
    List.Forall₂ (fun c c' => c'.bare = c.bare ∧
      (c'.methods.flatMap (·.body)).Perm (c.methods.flatMap (·.body))) d.classes d'.classes := by
  have hclasses : List.Forall₂ (fun c c' => c'.bare = c.bare) d.classes d'.classes :=
    forall₂_of_map_eq (congrArg (·.classes) h.bare) fun _ _ _ _ heq => heq
  refine (forall₂_of_flatMap (fun c c' hc => ?_) hclasses h.bodies).imp fun c c' hc => ⟨hc.1, ?_⟩
  · have hlength := congrArg (fun c : ClassDef => c.methods.length) hc
    simpa [ClassDef.bare] using hlength
  · have hbodies := hc.2
    generalize c.methods = ms at hbodies ⊢
    generalize c'.methods = ms' at hbodies ⊢
    induction hbodies with
    | nil => exact .nil
    | cons hm _ ih => exact hm.append ih

end Definitions

/-! ## Programs -/

/-- The statements of the second body are those of the first one, moved within the body. -/
structure Body.Matches (τ : Nat → Nat) (m : MethodId) (p p' : Program) (b b' : Body) : Prop where
  this : b'.this? = b.this?
  params : b'.params = b.params
  stmts : b'.stmts = b.stmts
  stmt : ∀ i s, b.stmts[i]? = some s → ∃ kind s', p.stmts[s.idx]? = some ⟨m, i, kind⟩ ∧
    b.stmts[τ i]? = some s' ∧ p'.stmts[s'.idx]? = some ⟨m, τ i, kind⟩

/-- Bodies still match when statements are added to the tables. -/
theorem Body.matches_mono {τ : Nat → Nat} {m : MethodId} {p p' q q' : Program} {b b' : Option Body}
    (h : Option.Rel (Matches τ m p p') b b')
    (hp : ∀ (i : Nat) x, p.stmts[i]? = some x → q.stmts[i]? = some x)
    (hp' : ∀ (i : Nat) x, p'.stmts[i]? = some x → q'.stmts[i]? = some x) :
    Option.Rel (Matches τ m q q') b b' := by
  cases h with
  | none => exact .none
  | some h =>
      refine .some ⟨h.this, h.params, h.stmts, fun i s hs => ?_⟩
      obtain ⟨kind, s', hkind, hs', hkind'⟩ := h.stmt i s hs
      exact ⟨kind, s', hp _ _ hkind, hs', hp' _ _ hkind'⟩

/-- The two programs are alike, and so are the variables and bodies of their methods. The statement at
the index `i` of the method of the number `m` is moved to the index `σ m i`. -/
structure Program.Rearranged (σ : Nat → Equiv.Perm Nat) (n : Nat) (p p' : Program) : Prop where
  alike : Alike n p p'
  size_vars : p'.vars.size = p.vars.size
  var : ∀ v, (p'.varAt v).bare = (p.varAt v).bare
  size_stmts : p'.stmts.size = p.stmts.size
  body : ∀ m, Option.Rel (Body.Matches (σ m.idx) m p p') (p.methodAt m).body? (p'.methodAt m).body?

namespace Program

variable {σ : Nat → Equiv.Perm Nat} {n : Nat} {p p' : Program}

/-- Hierarchies that are linked are rearranged, as they have no statements. -/
theorem Linked.rearranged (h : Linked n p p') : Rearranged σ n p p' := by
  obtain ⟨halike, ⟨classes, links, rfl⟩, ⟨classes', links', rfl⟩⟩ := h
  exact ⟨halike, rfl, fun _ => rfl, rfl, fun _ => .none⟩

namespace Rearranged

variable (h : Rearranged σ n p p')

include h

/-- Pushing the same field keeps programs rearranged. -/
theorem pushField {c : ClassId} (hc : c.idx < n) (x : Field) :
    Rearranged σ n (p.pushField c x) (p'.pushField c x) :=
  ⟨h.alike.pushField hc x, h.size_vars, h.var, h.size_stmts, fun m =>
    Body.matches_mono (h.body m) (fun _ _ => id) fun _ _ => id⟩

/-- Pushing the same method keeps programs rearranged, as it has no body yet. -/
theorem pushMethod {x : Method} (hx : x.owner.idx < n) (hbody : x.body? = none) :
    Rearranged σ n (p.pushMethod x) (p'.pushMethod x) := by
  refine ⟨h.alike.pushMethod hx, h.size_vars, h.var, h.size_stmts, fun m => ?_⟩
  rw [methodAt_pushMethod, methodAt_pushMethod, h.alike.size_methods]
  split
  · rw [hbody]
    exact .none
  · exact Body.matches_mono (h.body m) (fun _ _ => id) fun _ _ => id

/-- Pushing the same variable keeps programs rearranged. -/
theorem pushVar (x : Var) : Rearranged σ n (p.pushVar x) (p'.pushVar x) where
  alike := h.alike.withMembers rfl rfl rfl rfl h.alike.fields h.alike.size_methods h.alike.method
    h.alike.owner
  size_vars := by simp [Program.pushVar, h.size_vars]
  var v := by
    rw [varAt_pushVar, varAt_pushVar, h.size_vars]
    split
    · rfl
    · exact h.var v
  size_stmts := h.size_stmts
  body m := Body.matches_mono (h.body m) (fun _ _ => id) fun _ _ => id

/-- Statements may be listed in any order, if there are as many of them. -/
theorem lists {q q' : Program} {scope scope' : Builder.Scope} {xs xs' : List (StmtDef × Nat)}
    {rs rs' : List (StmtId × StmtKind)} (hq : Builder.Lists scope p xs rs q)
    (hq' : Builder.Lists scope' p' xs' rs' q') (hlength : xs'.length = xs.length) :
    Rearranged σ n q q' := by
  have hmethod (m : MethodId) : q.methodAt m = p.methodAt m := by rw [hq.rest, methodAt, methodAt]
  have hmethod' (m : MethodId) : q'.methodAt m = p'.methodAt m := by rw [hq'.rest, methodAt, methodAt]
  have hsize : q.methods.size = p.methods.size := by rw [hq.rest]
  have hsize' : q'.methods.size = p'.methods.size := by rw [hq'.rest]
  refine ⟨?_, ?_, fun v => ?_, ?_, fun m => ?_⟩
  -- Lists of statements change nothing but variables and statements.
  · refine h.alike.withMembers (congrArg (·.classes) hq.rest) (congrArg (·.links) hq.rest)
      (congrArg (·.classes) hq'.rest) (congrArg (·.links) hq'.rest) ?_ ?_ (fun m => ?_) fun m hm => ?_
    · rw [hq.rest, hq'.rest]
      exact h.alike.fields
    · rw [hsize, hsize', h.alike.size_methods]
    · rw [hmethod, hmethod', h.alike.method]
    · rw [hmethod]
      exact h.alike.owner m (hsize ▸ hm)
  · rw [hq.vars.1, hq'.vars.1, h.size_vars]
  · rw [hq.vars.2, hq'.vars.2, h.var]
  · rw [hq.size, hq'.size, h.size_stmts, hlength]
  · rw [hmethod, hmethod']
    exact Body.matches_mono (h.body m) (fun _ _ => hq.old) fun _ _ => hq'.old

/-- Setting bodies that match keeps programs rearranged. -/
theorem setBody {m : MethodId} {b b' : Body} (hb : Body.Matches (σ m.idx) m p p' b b') :
    Rearranged σ n (p.setBody m b) (p'.setBody m b') := by
  have hmethod (p : Program) (b : Body) (k : MethodId) : (p.setBody m b).methodAt k =
      if m.idx = k.idx ∧ k.idx < p.methods.size then { p.methodAt k with body? := some b }
      else p.methodAt k := getD_modify _ _ _ _ _
  have hsize (p : Program) (b : Body) : (p.setBody m b).methods.size = p.methods.size :=
    Array.size_modify
  refine ⟨?_, h.size_vars, h.var, h.size_stmts, fun k => ?_⟩
  · refine h.alike.withMembers rfl rfl rfl rfl h.alike.fields ?_ (fun k => ?_) fun k hk => ?_
    · rw [hsize, hsize, h.alike.size_methods]
    · rw [hmethod, hmethod, h.alike.size_methods]
      split
      · exact h.alike.method k
      · exact h.alike.method k
    · rw [hsize] at hk
      rw [hmethod]
      split
      · exact h.alike.owner k hk
      · exact h.alike.owner k hk
  · rw [hmethod, hmethod, h.alike.size_methods]
    split
    -- The method with the new body is the same in both programs.
    · rename_i hk
      rw [← hk.1]
      have heq : k = m := by
        cases k
        cases m
        exact congrArg MethodId.mk hk.1.symm
      rw [heq]
      exact Body.matches_mono (.some hb) (fun _ _ => id) fun _ _ => id
    · exact Body.matches_mono (h.body k) (fun _ _ => id) fun _ _ => id

/-- Setting the same entry method keeps programs rearranged. -/
theorem setEntry (entry : Option MethodId) :
    Rearranged σ n { p with entry? := entry } { p' with entry? := entry } where
  alike := h.alike.withMembers rfl rfl rfl rfl h.alike.fields h.alike.size_methods h.alike.method
    h.alike.owner
  size_vars := h.size_vars
  var := h.var
  size_stmts := h.size_stmts
  body m := Body.matches_mono (h.body m) (fun _ _ => id) fun _ _ => id

end Rearranged

end Program

namespace Builder

open Program (Rearranged)

variable {σ : Nat → Equiv.Perm Nat} {n : Nat} {d e : Draft}

/-! ## Members -/

/-- Rearranged programs declare a field in the same way. -/
theorem follows_declareField {c : ClassId} (hc : c.idx < n) (x : FieldDef)
    (h : Rearranged σ n d.program e.program) :
    Follows (declareField c x) (declareField c x) d e fun _ d' _ e' =>
      Rearranged σ n d'.program e'.program := by
  have hself := Program.Alike.level_self n c
  refine (concur_readType x.type).follows fun t => .program ?_
  dsimp only
  rw [h.alike.declaredField? hself, h.alike.defined c hc]
  refine .ite Iff.rfl (fun _ => by simp [Follows]) fun _ => ?_
  simp only [Follows, updateClass, ensures_bind, ensures_update, yields_bind, yields_update]
  exact h.pushField hc ⟨c, (d.program.classAt c).name, x.name, t, x.isStatic⟩

/-- Rearranged programs declare a method in the same way. -/
theorem follows_declareMethod {c : ClassId} (hc : c.idx < n) (x : MethodDef)
    (h : Rearranged σ n d.program e.program) :
    Follows (declareMethod c x) (declareMethod c x) d e fun _ d' _ e' =>
      Rearranged σ n d'.program e'.program := by
  have hself := Program.Alike.level_self n c
  refine (Concur.mapM (fun _ => concur_readType _) x.params).follows fun params => ?_
  refine (concur_readType x.result).follows fun result => .program ?_
  dsimp only
  rw [h.alike.declared? hself, h.alike.defined c hc]
  refine .ite Iff.rfl (fun _ => by simp [Follows]) fun _ => ?_
  simp only [Follows, updateClass, ensures_bind, ensures_update, ensures_pure, yields_bind,
    yields_update, yields_pure]
  -- only the owner, the subsignature and the missing body of the method matter
  generalize hk : (⟨c, ⟨(d.program.classAt c).name, ⟨x.name, params, result⟩⟩, x.isStatic,
    x.isAbstract, x.isNative, none⟩ : Method) = k
  have hbody : k.body? = none := by rw [← hk]
  have howner : k.owner = c := by rw [← hk]
  have hsub : k.ref.subsignature = ⟨x.name, params, result⟩ := by rw [← hk]
  rw [← hsub, ← howner]
  exact h.pushMethod (howner ▸ hc) hbody

/-- Members do not depend on bodies. -/
theorem follows_declareMembers {c : ClassId} (hc : c.idx < n) {x x' : ClassDef}
    (hx : x'.bare = x.bare) (h : Rearranged σ n d.program e.program) :
    Follows (declareMembers c x) (declareMembers c x') d e fun _ d' _ e' =>
      Rearranged σ n d'.program e'.program := by
  have hfields : x'.fields = x.fields := congrArg (·.fields) hx
  have hmethods : x'.methods.map (·.bare) = x.methods.map (·.bare) := congrArg (·.methods) hx
  rw [declareMembers, declareMembers, hfields]
  -- Fields are the same in both definitions. Methods are the same but for their statements, which are
  -- not looked at here.
  refine (Follows.forM (List.forall₂_same.2 fun _ _ => rfl)
    (I := fun d e => Rearranged σ n d.program e.program) ?_ h).bind fun _ d' _ e' h' => ?_
  · rintro f _ d e rfl h
    exact follows_declareField hc f h
  · refine (Follows.mapM (forall₂_of_map_eq hmethods fun _ _ _ _ heq => heq)
      (T := fun _ _ => True) (I := fun d e => Rearranged σ n d.program e.program) ?_ h').mono
        fun _ _ _ _ hd => hd.2
    intro m m' d e hm h
    have heq : declareMethod c m'.bare = declareMethod c m.bare := by rw [hm]
    have heq' : declareMethod c m' = declareMethod c m := heq
    rw [heq']
    exact (follows_declareMethod hc m h).bind fun _ _ _ _ h' => .pure ⟨trivial, h'⟩

/-- Methods with their numbers, counted from `k`. -/
def numbered (k : Nat) (ms : List MethodDef) : List (MethodId × MethodDef) :=
  (ms.zipIdx k).map fun m => (⟨m.2⟩, m.1)

/-- Methods that are numbered after others get the numbers behind theirs. -/
theorem numbered_append (k : Nat) (ms ms' : List MethodDef) :
    numbered k (ms ++ ms') = numbered k ms ++ numbered (k + ms.length) ms' := by
  rw [numbered, List.zipIdx_append, List.map_append]
  rfl

/-- Methods are numbered in the order in which they are declared. -/
theorem ensures_declareMembers_numbered {c : ClassId} {x : ClassDef} :
    Ensures (declareMembers c x) d fun ms d' =>
      ms = numbered d.program.methods.size x.methods ∧
        d'.program.methods.size = d.program.methods.size + x.methods.length := by
  have hfield (f : FieldDef) (d' : Draft) (hd' : d'.program.methods = d.program.methods) :
      Ensures (declareField c f) d' fun _ d'' => d''.program.methods = d.program.methods := by
    simp only [declareField, ensures_bind]
    refine ensures_readType.mono ?_
    rintro t d'' rfl
    rw [ensures_program]
    refine Ensures.ite (fun _ => by simp) fun _ => ?_
    simpa only [updateClass, ensures_bind, ensures_update] using hd'
  have hmethod (m : MethodDef) (d' : Draft) : Ensures (declareMethod c m) d' fun id d'' =>
      id = ⟨d'.program.methods.size⟩ ∧ d''.program.methods.size = d'.program.methods.size + 1 := by
    have hparams : Ensures (m.params.mapM fun v => readType v.type) d' fun _ d'' => d'' = d' :=
      Ensures.mapM (I := fun _ d'' => d'' = d') (fun v _ _ d'' hd'' => hd'' ▸ ensures_readType) rfl
    simp only [declareMethod, ensures_bind]
    refine hparams.mono ?_
    rintro params d'' rfl
    refine ensures_readType.mono ?_
    rintro result d'' rfl
    rw [ensures_program]
    refine Ensures.ite (fun _ => by simp) fun _ => ?_
    simp only [updateClass, ensures_bind, ensures_update, ensures_pure, Array.size_push, and_self]
  simp only [declareMembers, ensures_bind]
  refine (Ensures.forM (I := fun d' => d'.program.methods = d.program.methods)
    (fun f _ d' hd' => hfield f d' hd') rfl).mono fun _ d₁ hd₁ => ?_
  rw [← hd₁]
  clear hd₁ hfield
  -- by induction on the methods, from whatever number they are counted
  induction x.methods generalizing d₁ with
  | nil => exact ensures_pure.2 ⟨rfl, rfl⟩
  | cons m ms ih =>
      simp only [List.mapM_cons, ensures_bind, ensures_pure]
      refine (hmethod m d₁).mono ?_
      rintro id d₂ ⟨rfl, hd₂⟩
      refine (ih d₂).mono ?_
      rintro rest d₃ ⟨rfl, hd₃⟩
      refine ⟨?_, ?_⟩
      · rw [hd₂]
        rfl
      · rw [hd₃, hd₂, List.length_cons]
        omega

/-! ## Variables and bodies -/

/-- Two constructions whose programs are rearranged, with a number of methods. -/
structure Building (σ : Nat → Equiv.Perm Nat) (n k : Nat) (d e : Draft) : Prop where
  rearranged : Rearranged σ n d.program e.program
  methods : d.program.methods.size = k

/-- Rearranged programs declare a variable in the same way. -/
theorem follows_declareVar {k : Nat} (scope : Scope) (name : String) (type : Ty)
    (h : Building σ n k d e) :
    Follows (declareVar scope name type) (declareVar scope name type) d e fun s d' s' e' =>
      s' = s ∧ s.method = scope.method ∧ Building σ n k d' e' := by
  refine .ite Iff.rfl (fun _ => by simp [Follows]) fun _ => .program ?_
  simp only [Follows, ensures_bind, ensures_update, ensures_pure, yields_bind, yields_update,
    yields_pure, h.rearranged.size_vars, true_and]
  exact ⟨h.rearranged.pushVar _, h.methods⟩

/-- Rearranged programs declare variables in the same way. -/
theorem follows_declareVars {k : Nat} (scope : Scope) (vs : List VarDef) (h : Building σ n k d e) :
    Follows (declareVars scope vs) (declareVars scope vs) d e fun s d' s' e' =>
      s' = s ∧ s.method = scope.method ∧ Building σ n k d' e' := by
  refine Follows.foldlM (I := fun (s : Scope) d e => s.method = scope.method ∧ Building σ n k d e) ?_
    ⟨rfl, h⟩
  rintro v - s d e ⟨hs, h⟩
  refine (concur_readType v.type).follows fun t => ?_
  refine (follows_declareVar s v.name t h).mono ?_
  rintro s' d' _ e' ⟨heq, hs', h'⟩
  exact ⟨heq, hs'.trans hs, h'⟩

/-- Rearranged programs declare the receiver in the same way. -/
theorem follows_declareThis {k : Nat} (scope : Scope) {m : MethodId} (hm : m.idx < k)
    (h : Building σ n k d e) :
    Follows (declareThis scope (d.program.methodAt m)) (declareThis scope (e.program.methodAt m)) d e
      fun s d' s' e' => s' = s ∧ s.method = scope.method ∧ Building σ n k d' e' := by
  have halike := h.rearranged.alike
  have hheader := halike.header m
  refine .ite (by rw [hheader.2.2.1]) (fun _ => .pure ⟨rfl, rfl, h⟩) fun _ => .program ?_
  rw [hheader.1, halike.defined _ (halike.owner m (h.methods ▸ hm))]
  exact follows_declareVar scope _ _ h

/-- The statements of a body that is rearranged are resolved to the same kinds. -/
theorem follows_buildBody {k : Nat} {id : MethodId} (hid : id.idx < k) {x x' : MethodDef}
    (hx : x'.bare = x.bare) (hbody : ∀ i : Nat, x'.body[σ id.idx i]? = x.body[i]?)
    (h : Building σ n k d e) :
    Follows (buildBody id x) (buildBody id x') d e fun b d' b' e' =>
      Body.Matches (σ id.idx) id d'.program e'.program b b' ∧ Building σ n k d' e' := by
  have hparams : x'.params = x.params := congrArg (·.params) hx
  have hlocals : x'.locals = x.locals := congrArg (·.locals) hx
  have htext : e.program.methodText id = d.program.methodText id := by
    rw [Program.methodText, (h.rearranged.alike.header id).2.1, Program.methodText]
  -- up to the statements both bodies are built in step; only the statements are in another order
  refine .program ?_
  rw [htext, hparams, hlocals]
  refine (follows_declareThis _ hid h).bind ?_
  rintro _ d₁ thisScope e₁ ⟨rfl, hthis, h₁⟩
  refine (follows_declareVars thisScope x.params h₁).bind ?_
  rintro _ d₂ paramScope e₂ ⟨rfl, hparam, h₂⟩
  refine (follows_declareVars paramScope x.locals h₂).bind ?_
  rintro _ d₃ scope e₃ ⟨rfl, hlocal, h₃⟩
  have hmethod : scope.method = id := hlocal.trans (hparam.trans hthis)
  have hsame : SameFields d₃.program e₃.program :=
    ⟨h₃.rearranged.alike.resolveField?, h₃.rearranged.alike.fields⟩
  have hlength : x'.body.length = x.body.length := (perm_of_getElem? hbody).length_eq
  refine Follows.bind (Q := fun rs d₄ rs' e₄ => Lists scope d₃.program x.body.zipIdx rs d₄.program ∧
    Lists scope e₃.program x'.body.zipIdx rs' e₄.program) ?_ ?_
  · -- a statement that the first construction has resolved is resolved by the second one
    intro rs d₄ hrun
    have hlists := ensures_addStmts rs d₄ hrun
    refine (yields_addStmts fun y hy => ?_).mono fun rs' e₄ hlists' => ⟨hlists, hlists'⟩
    rw [List.mem_zipIdx_iff_getElem?, ← (σ id.idx).apply_symm_apply y.2, hbody] at hy
    obtain ⟨kind, hkind, -⟩ := hlists.new (i := (σ id.idx).symm y.2)
      (x := (y.1, (σ id.idx).symm y.2)) (by simp [List.getElem?_zipIdx, hy])
    exact ⟨kind, hkind.congr hsame⟩
  · rintro rs d₄ rs' e₄ ⟨hlists, hlists'⟩
    have hzip : x'.body.zipIdx.length = x.body.zipIdx.length := by
      rw [List.length_zipIdx, List.length_zipIdx, hlength]
    have hids : rs'.map (·.1) = rs.map (·.1) := by
      rw [hlists.ids, hlists'.ids, h₃.rearranged.size_stmts, hzip]
    refine .pure ⟨⟨rfl, rfl, hids, fun i s hs => ?_⟩, h₃.rearranged.lists hlists hlists' hzip, ?_⟩
    · obtain ⟨y, hy, rfl⟩ := hlists.getElem?_stmts hs
      obtain ⟨kind, hkind, -, hstmt⟩ := hlists.stmt hy
      obtain ⟨kind', hkind', hs', hstmt'⟩ := hlists'.stmt ((hbody i).trans hy)
      cases (hkind.congr hsame).unique hkind'
      rw [hids] at hs'
      rw [hmethod] at hstmt hstmt'
      exact ⟨kind, _, hstmt, hs', hstmt'⟩
    · rw [hlists.rest]
      exact h₃.methods

/-- Rearranged methods are implemented in step. -/
theorem follows_implement {k : Nat} {id : MethodId} (hid : id.idx < k) {x x' : MethodDef}
    (hx : x.Rearranges (σ id.idx) x') (h : Building σ n k d e) :
    Follows (implement (id, x)) (implement (id, x')) d e fun _ d' _ e' => Building σ n k d' e' := by
  have habstract : x'.isAbstract = x.isAbstract := congrArg (·.isAbstract) hx.bare
  have hnative : x'.isNative = x.isNative := congrArg (·.isNative) hx.bare
  -- a body that is ignored is at most reported
  have hignored (x : MethodDef) (d : Draft) : Yields (do
      unless x.body.isEmpty do
        report .warn ("ignoring the body of " ++ (if x.isAbstract then "abstract" else "native")
          ++ " method " ++ (← program).methodText id) : Builder Unit) d
        fun _ d' => d'.program = d.program := by
    split
    · exact yields_pure.2 rfl
    · simp
  refine .ite (by rw [habstract, hnative]) (fun _ => ?_) fun _ => ?_
  · refine .of_yields (hignored x d) (hignored x' e) fun _ d' _ e' hd' he' => ?_
    exact ⟨by rw [hd', he']; exact h.rearranged, by rw [hd']; exact h.methods⟩
  · refine (follows_buildBody hid hx.bare hx.stmt h).bind ?_
    rintro b d' b' e' ⟨hb, h'⟩
    refine .update ⟨h'.rearranged.setBody hb, ?_⟩
    exact Array.size_modify.trans h'.methods

/-! ## Whole definitions -/

/-- The methods of rearranged definitions are rearranged one by one, under the same numbers. -/
theorem forall₂_numbered {d d' : ProgramDef} (h : d.Rearranges σ d') :
    List.Forall₂ (fun m m' => m'.1 = m.1 ∧ m.1.idx < d.methods.length ∧
      m.2.Rearranges (σ m.1.idx) m'.2) (numbered 0 d.methods) (numbered 0 d'.methods) := by
  refine List.forall₂_iff_get.2 ⟨?_, fun i hi hi' => ?_⟩
  · simp [numbered, (ProgramDef.forall₂_bare h.bare).length_eq]
  · have hlt : i < d.methods.length := by simpa [numbered] using hi
    have hlt' : i < d'.methods.length := by simpa [numbered] using hi'
    have hmethod := h.method i _ _ (List.getElem?_eq_getElem hlt) (List.getElem?_eq_getElem hlt')
    simpa [numbered, hlt] using hmethod

/-- After the classes of a definition were defined, there is nothing but them. -/
theorem ensures_defineClasses (xs : List ClassDef) (log : Log) :
    Ensures (xs.mapM defineClass) ⟨.empty, log⟩ fun ids d' =>
      (∀ c ∈ ids, c.idx < d'.program.classes.size) ∧ d'.program.Layered d'.program.classes.size ∧
        d'.program.IsHierarchy := by
  -- Without links and phantom classes, only names have to be told apart.
  have hlayered {classes : Array Class}
      (h : (Program.classNames { Program.empty with classes := classes }).Nodup) :
      Program.Layered classes.size { Program.empty with classes := classes } :=
    ⟨Nat.le_refl _, h, fun c hn hlt => absurd hlt (Nat.not_lt.2 hn), by simp [Program.empty],
      by simp [Program.empty], by simp [Program.empty]⟩
  refine (Ensures.mapM (I := fun ids d => ∃ classes,
    d.program = { Program.empty with classes := classes } ∧ d.program.AllDefined ∧
      d.program.classNames.Nodup ∧ ∀ c ∈ ids, c.idx < classes.size) ?_ ⟨#[], rfl,
        by simp [Program.AllDefined, Program.empty], by simp [Program.classNames_eq, Program.empty],
        by simp⟩).mono ?_
  · rintro x - ids ⟨p, log⟩ ⟨classes, rfl, hdefined, hnodup, hids⟩
    refine Ensures.of_run (run_defineClass hdefined) ?_
    simp only [defineNewClass, ensures_bind, ensures_program]
    refine Ensures.ite (fun _ => by simp) fun hnew => ?_
    rw [Option.not_isSome_iff_eq_none, (hlayered hnodup).findClass?_eq_none_iff] at hnew
    simp only [addClass_eq, ensures_bind, ensures_report, ensures_program, ensures_update, ensures_pure]
    refine ⟨_, rfl, hdefined.push x, ?_, fun c hc => ?_⟩
    · rw [Program.classNames_eq] at hnodup hnew ⊢
      simp only [Array.toList_push, List.map_append, List.map_cons, List.map_nil]
      exact hnodup.append (by simp) (by simpa [ClassDef.header] using hnew)
    · rw [Array.size_push]
      rcases List.mem_append.1 hc with hc | hc
      · exact Nat.lt_succ_of_lt (hids c hc)
      · rw [List.mem_singleton.1 hc]
        exact Nat.lt_succ_self _
  · rintro ids ⟨p, log⟩ ⟨classes, rfl, -, hnodup, hids⟩
    exact ⟨hids, hlayered hnodup, classes, #[], rfl⟩

/-- All methods are numbered in the order in which they are declared. -/
theorem ensures_declareAll_numbered (cs : List (ClassId × ClassDef)) (d : Draft) :
    Ensures (cs.mapM fun c => declareMembers c.1 c.2) d fun mss d' =>
      mss.flatten = numbered d.program.methods.size (cs.flatMap (·.2.methods)) ∧
        d'.program.methods.size = d.program.methods.size + (cs.flatMap (·.2.methods)).length := by
  induction cs generalizing d with
  | nil => exact ensures_pure.2 ⟨rfl, rfl⟩
  | cons c cs ih =>
      simp only [List.mapM_cons, ensures_bind, ensures_pure]
      refine ensures_declareMembers_numbered.mono ?_
      rintro ms d₁ ⟨rfl, hd₁⟩
      refine (ih d₁).mono ?_
      rintro mss d₂ ⟨hmss, hd₂⟩
      rw [List.flatten_cons, hmss, List.flatMap_cons, numbered_append, List.length_append, hd₂, hd₁]
      exact ⟨rfl, Nat.add_assoc _ _ _⟩

/-- Rearranged definitions declare their members in step, and number their methods alike. -/
theorem follows_declareAll {cs cs' : List (ClassId × ClassDef)}
    (hcs : List.Forall₂ (fun c c' => c'.1 = c.1 ∧ c.1.idx < n ∧ c'.2.bare = c.2.bare) cs cs')
    (h : Program.Linked n d.program e.program) :
    Follows (cs.mapM fun c => declareMembers c.1 c.2) (cs'.mapM fun c => declareMembers c.1 c.2) d e
      fun mss d' mss' e' => mss.flatten = numbered 0 (cs.flatMap (·.2.methods)) ∧
        mss'.flatten = numbered 0 (cs'.flatMap (·.2.methods)) ∧
        Building σ n (cs.flatMap (·.2.methods)).length d' e' := by
  have hnone {p : Program} (hp : p.IsHierarchy) : p.methods.size = 0 := by
    obtain ⟨classes, links, rfl⟩ := hp
    rfl
  -- The members correspond to each other, and the numbers follow from either run by itself.
  have hfollows : Follows (cs.mapM fun c => declareMembers c.1 c.2)
      (cs'.mapM fun c => declareMembers c.1 c.2) d e fun mss d' mss' e' =>
        List.Forall₂ (fun _ _ => True) mss mss' ∧ Rearranged σ n d'.program e'.program := by
    refine Follows.mapM hcs ?_ h.rearranged
    rintro ⟨_, y⟩ ⟨c, y'⟩ d e ⟨rfl, hc, hbare⟩ hd
    exact (follows_declareMembers hc hbare hd).mono fun _ _ _ _ hd' => ⟨trivial, hd'⟩
  intro mss d' hrun
  obtain ⟨mss', e', hrun', -, hrearranged⟩ := hfollows mss d' hrun
  obtain ⟨hmss, hsize⟩ := ensures_declareAll_numbered cs d mss d' hrun
  obtain ⟨hmss', -⟩ := ensures_declareAll_numbered cs' e mss' e' hrun'
  rw [hnone h.left] at hmss hsize
  rw [hnone h.right] at hmss'
  exact ⟨mss', e', hrun', hmss, hmss', hrearranged, by rw [hsize, Nat.zero_add]⟩

/-- Rearranged programs have the same method for an entry. -/
theorem follows_selectEntry (h : Rearranged σ n d.program e.program) (entry : Option String) :
    Follows (selectEntry entry) (selectEntry entry) d e fun m d' m' e' =>
      m' = m ∧ d'.program = d.program ∧ e'.program = e.program := by
  cases entry with
  | some entry =>
      refine (concur_readMethodRef entry).follows fun r => .program ?_
      rw [h.alike.findMethod?]
      cases d.program.findMethod? r with
      | none => exact .throw
      | some m => exact .pure ⟨rfl, rfl, rfl⟩
  | none =>
      refine .program ?_
      rw [h.alike.mainMethods]
      split
      · exact .pure ⟨rfl, rfl, rfl⟩
      · simp [Follows]
      · simp [Follows]

/-- A definition whose statements are rearranged is built alike. -/
theorem follows_build {x x' : ProgramDef} (h : x.Rearranges σ x') (log : Log) :
    Follows (build x) (build x') ⟨.empty, log⟩ ⟨.empty, log⟩ fun _ d' _ e' =>
      (∃ n, Rearranged σ n d'.program e'.program) ∧ e'.program.entry? = d'.program.entry? := by
  -- bodies are not looked at before members are implemented, so up to there both constructions are the
  -- same
  have hdefine : x'.classes.mapM defineClass = x.classes.mapM defineClass := by
    have hbare (l : List ClassDef) : (l.map (·.bare)).mapM defineClass = l.mapM defineClass :=
      List.mapM_map
    have hclasses : x'.classes.map (·.bare) = x.classes.map (·.bare) := congrArg (·.classes) h.bare
    rw [← hbare x'.classes, hclasses, hbare]
  have hentry : x'.entry = x.entry := congrArg (·.entry) h.bare
  rw [build, build, hdefine, hentry]
  refine Follows.bind (Q := fun ids d₁ ids' e₁ => ids' = ids ∧ ids.length = x.classes.length ∧
    ∃ n, (∀ c ∈ ids, c.idx < n) ∧ Program.Linked n d₁.program e₁.program) ?_ ?_
  · intro ids d₁ hrun
    obtain ⟨hids, hlayered, hhierarchy⟩ := ensures_defineClasses x.classes log ids d₁ hrun
    exact ⟨ids, d₁, hrun, rfl, Ensures.length_mapM _ _ ids d₁ hrun, _, hids,
      hlayered.linked hhierarchy⟩
  rintro _ d₁ ids e₁ ⟨rfl, hlength, n, hids, h₁⟩
  have hclasses := forall₂_zip_of h.classes ids
  have hlength' : ids.length = x'.classes.length := hlength.trans h.classes.length_eq
  have hmethods : (ids.zip x.classes).flatMap (·.2.methods) = x.methods := by
    rw [ProgramDef.methods, ← List.flatMap_map, List.map_snd_zip (Nat.le_of_eq hlength.symm)]
  have hmethods' : (ids.zip x'.classes).flatMap (·.2.methods) = x'.methods := by
    rw [ProgramDef.methods, ← List.flatMap_map, List.map_snd_zip (Nat.le_of_eq hlength'.symm)]
  refine (Follows.forM hclasses (I := fun d e => Program.Linked n d.program e.program) ?_ h₁).bind
    fun _ d₂ _ e₂ h₂ => ?_
  · rintro ⟨_, y⟩ ⟨c, y'⟩ d e ⟨rfl, hc, hbare, hperm⟩ hd
    exact follows_linkClass (congrArg (·.superclass) hbare) (congrArg (·.interfaces) hbare) hperm
      (hids c hc) hd
  refine (follows_closeHierarchy h₂).bind fun _ d₃ _ e₃ h₃ => ?_
  refine Follows.bind (Q := fun mss d₄ mss' e₄ => mss.flatten = numbered 0 x.methods ∧
    mss'.flatten = numbered 0 x'.methods ∧ Building σ n x.methods.length d₄ e₄) ?_ ?_
  · rw [← hmethods, ← hmethods']
    refine follows_declareAll (hclasses.imp ?_) h₃
    rintro a b ⟨hab, ha, hbare, -⟩
    exact ⟨hab, hids _ ha, hbare⟩
  rintro mss d₄ mss' e₄ ⟨hmss, hmss', h₄⟩
  rw [hmss, hmss']
  refine (Follows.forM (forall₂_numbered h) (I := Building σ n x.methods.length) ?_ h₄).bind
    fun _ d₅ _ e₅ h₅ => ?_
  · rintro ⟨id, m⟩ ⟨_, m'⟩ d e ⟨rfl, hid, hm⟩ hd
    exact follows_implement hid hm hd
  refine (follows_selectEntry h₅.rearranged x.entry).bind ?_
  rintro _ d₆ entry e₆ ⟨rfl, hd₆, he₆⟩
  refine Follows.bind (Q := fun _ d' _ e' => (∃ n, Rearranged σ n d'.program e'.program) ∧
    e'.program.entry? = d'.program.entry?) (.update ⟨⟨n, ?_⟩, rfl⟩) fun _ d₇ _ e₇ h₇ => .program ?_
  · rw [hd₆, he₆]
    exact h₅.rearranged.setEntry entry
  · exact ensures_report.2 (yields_report.2 h₇)

end Builder

/-- If a definition is accepted, then so is one whose statements are rearranged, and the program is the
rearranged one. -/
theorem Program.build_rearranged {σ : Nat → Equiv.Perm Nat} {d d' : ProgramDef}
    (h : d.Rearranges σ d') {p : Program} (hp : (build d).1 = .ok p) :
    ∃ p', (build d').1 = .ok p' ∧ (∃ n, Rearranged σ n p p') ∧ p'.entry? = p.entry? := by
  have hfollows := Builder.follows_build h #[]
  unfold build at hp
  rcases hrun : (Builder.build d).run.run ⟨empty, #[]⟩ with ⟨e | u, draft⟩
  · rw [hrun] at hp
    cases hp
  · rw [hrun] at hp
    cases hp
    obtain ⟨u', draft', hrun', hrearranged⟩ := hfollows u draft hrun
    refine ⟨draft'.program, ?_, hrearranged⟩
    rw [build, hrun']
    rfl

end PointsTo
