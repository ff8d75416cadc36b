import PointsTo.Proofs.Program.Inheritance
import PointsTo.Proofs.Program.Rearrangement

/-! # The members of a definition

Fields and methods are entered in their classes under their names and subsignatures, with their numbers
in the tables. The entries of the classes and the tables say the same: `Entered`. By then a program has the
members of its definition, so a reference to a field is resolved as the definition says.
-/

namespace PointsTo

/-! ## Entries -/

section Entries

variable {κ ι : Type}

/-- Inserting an entry adds it to the others. -/
theorem insertEntry_perm [Ord κ] (key : κ) (value : ι) (l : List (κ × ι)) :
    (Builder.insertEntry key value l).Perm ((key, value) :: l) := by
  induction l with
  | nil => exact .refl _
  | cons e l ih =>
      rw [Builder.insertEntry]
      split
      · exact .refl _
      · exact (ih.cons e).trans (.swap _ _ _)

variable [DecidableEq κ]

/-- With distinct keys, an entry is found if it is in the list. -/
theorem lookup_eq_some_iff_mem {l : List (κ × ι)} (h : (l.map (·.1)).Nodup) {k : κ} {i : ι} :
    l.lookup k = some i ↔ (k, i) ∈ l := by
  refine ⟨Program.mem_of_lookup, fun hmem => ?_⟩
  obtain ⟨before, after, rfl⟩ := List.append_of_mem hmem
  rw [List.map_append, List.map_cons, List.nodup_append] at h
  refine List.lookup_eq_some_iff.2 ⟨before, after, rfl, fun e he => ?_⟩
  rw [bne_iff_ne]
  exact (h.2.2 e.1 (List.mem_map_of_mem he) k (by simp)).symm

/-- Some entry is found for the keys of the list. -/
theorem isSome_lookup_iff {l : List (κ × ι)} {k : κ} :
    (l.lookup k).isSome = true ↔ k ∈ l.map (·.1) := by
  rw [List.lookup_isSome_iff, List.mem_map]
  exact exists_congr fun e => and_congr_right fun _ => by rw [beq_iff_eq, eq_comm]

/-- A new entry is found under its key, and other keys lead where they led before. -/
theorem lookup_insertEntry [Ord κ] {l : List (κ × ι)} (h : (l.map (·.1)).Nodup) {key : κ}
    (hnew : key ∉ l.map (·.1)) (value : ι) (k : κ) :
    (Builder.insertEntry key value l).lookup k = if k = key then some value else l.lookup k := by
  have hperm := insertEntry_perm key value l
  have hnodup : ((Builder.insertEntry key value l).map (·.1)).Nodup :=
    (hperm.map _).nodup_iff.2 (List.nodup_cons.2 ⟨hnew, h⟩)
  refine Option.ext fun i => ?_
  rw [lookup_eq_some_iff_mem hnodup, hperm.mem_iff, List.mem_cons, Prod.mk.injEq,
    ← lookup_eq_some_iff_mem h]
  split
  · rename_i hk
    have hnone : l.lookup key = none := by
      rw [← Option.not_isSome_iff_eq_none, isSome_lookup_iff]
      exact hnew
    simp [hk, hnone, eq_comm]
  · rename_i hk
    simp [hk]

/-- The entries of the classes are those of a table of the given size, each in the class of its owner,
under its key. -/
structure Entered (entries : ClassId → List (κ × ι)) (size : Nat) (idx : ι → Nat)
    (owner : ι → ClassId) (key : ι → κ) : Prop where
  nodup : ∀ c, ((entries c).map (·.1)).Nodup
  mem : ∀ c k i, (k, i) ∈ entries c ↔ idx i < size ∧ owner i = c ∧ key i = k

variable {entries entries' : ClassId → List (κ × ι)} {size : Nat} {idx : ι → Nat}
  {owner owner' : ι → ClassId} {key key' : ι → κ}

/-- An entry is found in a class if its member belongs to the class and has the key. -/
theorem Entered.lookup_eq_some_iff (h : Entered entries size idx owner key) {c : ClassId} {k : κ}
    {i : ι} : (entries c).lookup k = some i ↔ idx i < size ∧ owner i = c ∧ key i = k := by
  rw [lookup_eq_some_iff_mem (h.nodup c), h.mem]

omit [DecidableEq κ] in
/-- Entries are the same if the owners and the keys of the table are. -/
theorem Entered.congr (h : Entered entries size idx owner key)
    (hsame : ∀ i, idx i < size → owner' i = owner i ∧ key' i = key i) :
    Entered entries size idx owner' key' := by
  refine ⟨h.nodup, fun c k i => (h.mem c k i).trans (and_congr_right fun hi => ?_)⟩
  rw [(hsame i hi).1, (hsame i hi).2]

omit [DecidableEq κ] in
/-- What holds of the members of a table, and of one more, holds of all of them. -/
theorem forall_lt_succ {P : ι → Prop} {i : ι} (hidx : ∀ j, idx j = size ↔ j = i)
    (hold : ∀ j, idx j < size → P j) (hlast : P i) (j : ι) (hj : idx j < size + 1) : P j := by
  by_cases hlt : idx j < size
  · exact hold j hlt
  · rw [(hidx j).1 (by omega)]
    exact hlast

omit [DecidableEq κ] in
/-- A new member of the table is entered under a new key. -/
theorem Entered.push [Ord κ] (h : Entered entries size idx owner key) {i : ι}
    (hidx : ∀ j, idx j = size ↔ j = i)
    (hold : ∀ j, idx j < size → owner' j = owner j ∧ key' j = key j)
    (hentries : ∀ c, entries' c =
      if c = owner' i then Builder.insertEntry (key' i) i (entries c) else entries c)
    (hnew : key' i ∉ (entries (owner' i)).map (·.1)) :
    Entered entries' (size + 1) idx owner' key' := by
  have hperm (c : ClassId) : (entries' c).Perm
      (if c = owner' i then (key' i, i) :: entries c else entries c) := by
    rw [hentries]
    split
    · exact insertEntry_perm _ _ _
    · exact .refl _
  refine ⟨fun c => ?_, fun c k j => ?_⟩
  -- The new key is not among those of its class.
  · rw [((hperm c).map _).nodup_iff]
    split
    · rename_i hc
      rw [List.map_cons, List.nodup_cons]
      exact ⟨hc ▸ hnew, h.nodup c⟩
    · exact h.nodup c
  · -- members of the table are the new one and those before it
    have hlast : (k, j) ∈ entries' c ↔
        j = i ∧ owner' i = c ∧ key' i = k ∨ (k, j) ∈ entries c := by
      rw [(hperm c).mem_iff]
      split
      · rename_i hc
        rw [List.mem_cons, Prod.mk.injEq]
        exact or_congr_left ⟨fun hk => ⟨hk.2, hc.symm, hk.1.symm⟩, fun hk => ⟨hk.2.2.symm, hk.1⟩⟩
      · rename_i hc
        exact ⟨Or.inr, fun hk => hk.resolve_left fun hk => hc hk.2.1.symm⟩
    rw [hlast, h.mem]
    constructor
    · rintro (⟨rfl, howner, hkey⟩ | ⟨hlt, howner, hkey⟩)
      · exact ⟨by have := (hidx j).2 rfl; omega, howner, hkey⟩
      · rw [(hold j hlt).1, (hold j hlt).2]
        exact ⟨by omega, howner, hkey⟩
    · rintro ⟨hlt, howner, hkey⟩
      by_cases hj : idx j = size
      · obtain rfl := (hidx j).1 hj
        exact Or.inl ⟨rfl, howner, hkey⟩
      · have hlt' : idx j < size := by omega
        rw [(hold j hlt').1] at howner
        rw [(hold j hlt').2] at hkey
        exact Or.inr ⟨hlt', howner, hkey⟩

end Entries

namespace Program

/-- Fields and methods are entered in the classes that they belong to. -/
structure Registered (p : Program) : Prop where
  fields : Entered (fun c => (p.classAt c).fields) p.fields.size FieldId.idx
    (fun f => (p.fieldAt f).owner) fun f => (p.fieldAt f).name
  methods : Entered (fun c => (p.classAt c).methods) p.methods.size MethodId.idx
    (fun m => (p.methodAt m).owner) fun m => (p.methodAt m).ref.subsignature
  fieldOwner : ∀ f, f.idx < p.fields.size → (p.fieldAt f).owner.idx < p.classes.size ∧
    (p.fieldAt f).className = (p.classAt (p.fieldAt f).owner).name
  methodOwner : ∀ m, m.idx < p.methods.size → (p.methodAt m).owner.idx < p.classes.size ∧
    (p.methodAt m).ref.className = (p.classAt (p.methodAt m).owner).name

section Registered

variable {p : Program}

/-- A new field comes last, and the others stay where they are. -/
theorem fieldAt_pushField (c : ClassId) (x : Field) (f : FieldId) :
    (p.pushField c x).fieldAt f = if f.idx = p.fields.size then x else p.fieldAt f :=
  getD_push _ _ _ _

/-- A new field is entered in its class. -/
theorem classAt_pushField {c : ClassId} (hc : c.idx < p.classes.size) (x : Field) (k : ClassId) :
    (p.pushField c x).classAt k = if k = c then
      { p.classAt k with
        fields := Builder.insertEntry x.name ⟨p.fields.size⟩ (p.classAt k).fields }
      else p.classAt k := by
  refine (getD_modify _ _ _ _ _).trans ?_
  by_cases hk : k = c
  · rw [if_pos ⟨congrArg ClassId.idx hk.symm, hk ▸ hc⟩, if_pos hk]
    rfl
  · rw [if_neg fun hidx => hk (congrArg ClassId.mk hidx.1.symm), if_neg hk]
    rfl

/-- A new method is entered in its class. -/
theorem classAt_pushMethod {x : Method} (hx : x.owner.idx < p.classes.size) (k : ClassId) :
    (p.pushMethod x).classAt k = if k = x.owner then
      { p.classAt k with
        methods :=
          Builder.insertEntry x.ref.subsignature ⟨p.methods.size⟩ (p.classAt k).methods }
      else p.classAt k := by
  refine (getD_modify _ _ _ _ _).trans ?_
  by_cases hk : k = x.owner
  · rw [if_pos ⟨congrArg ClassId.idx hk.symm, hk ▸ hx⟩, if_pos hk]
    rfl
  · rw [if_neg fun hidx => hk (congrArg ClassId.mk hidx.1.symm), if_neg hk]
    rfl

variable (h : p.Registered)

include h

/-- A class declares the fields of the table that belong to it, by their names. -/
theorem Registered.declaredField?_eq_some_iff {c : ClassId} {name : String} {f : FieldId} :
    p.declaredField? c name = some f ↔
      f.idx < p.fields.size ∧ (p.fieldAt f).owner = c ∧ (p.fieldAt f).name = name :=
  h.fields.lookup_eq_some_iff

/-- A class declares the methods of the table that belong to it, by their subsignatures. -/
theorem Registered.declared?_eq_some_iff {c : ClassId} {s : Subsignature} {m : MethodId} :
    p.declared? c s = some m ↔
      m.idx < p.methods.size ∧ (p.methodAt m).owner = c ∧ (p.methodAt m).ref.subsignature = s :=
  h.methods.lookup_eq_some_iff

/-- A field of a new name may be pushed. -/
theorem Registered.pushField {x : Field} (hx : x.owner.idx < p.classes.size)
    (hname : x.className = (p.classAt x.owner).name)
    (hnew : x.name ∉ (p.classAt x.owner).fields.map (·.1)) :
    (p.pushField x.owner x).Registered := by
  have hsize : (p.pushField x.owner x).classes.size = p.classes.size := Array.size_modify
  have hclass := classAt_pushField hx x
  have hold (f : FieldId) (hf : f.idx < p.fields.size) :
      (p.pushField x.owner x).fieldAt f = p.fieldAt f := by
    rw [fieldAt_pushField, if_neg (by omega)]
  have hlast : (p.pushField x.owner x).fieldAt ⟨p.fields.size⟩ = x := by
    rw [fieldAt_pushField, if_pos rfl]
  have hnames (k : ClassId) : ((p.pushField x.owner x).classAt k).name = (p.classAt k).name := by
    rw [hclass]
    split <;> rfl
  have hmethods (k : ClassId) :
      ((p.pushField x.owner x).classAt k).methods = (p.classAt k).methods := by
    rw [hclass]
    split <;> rfl
  have hpushed : (p.pushField x.owner x).fields.size = p.fields.size + 1 := by
    simp [Program.pushField]
  have hidx (f : FieldId) : f.idx = p.fields.size ↔ f = ⟨p.fields.size⟩ :=
    ⟨congrArg FieldId.mk, congrArg FieldId.idx⟩
  refine ⟨?_, ?_, ?_, fun m hm => ?_⟩
  -- Fields are entered as before, and the new one in its class.
  · rw [hpushed]
    refine h.fields.push hidx (fun f hf => ?_) (fun k => ?_) ?_
    · rw [hold f hf]
      exact ⟨rfl, rfl⟩
    · rw [hlast, hclass]
      split <;> rfl
    · rw [hlast]
      exact hnew
  · simp only [hmethods]
    exact h.methods
  · rw [hpushed]
    -- What is said about owners is said about the old fields and about the new one.
    refine forall_lt_succ hidx (fun f hf => ?_) ?_
    · rw [hsize, hnames, hold f hf]
      exact h.fieldOwner f hf
    · rw [hsize, hnames, hlast]
      exact ⟨hx, hname⟩
  · rw [hsize, hnames]
    exact h.methodOwner m hm

/-- A method of a new subsignature may be pushed. -/
theorem Registered.pushMethod {x : Method} (hx : x.owner.idx < p.classes.size)
    (hname : x.ref.className = (p.classAt x.owner).name)
    (hnew : x.ref.subsignature ∉ (p.classAt x.owner).methods.map (·.1)) :
    (p.pushMethod x).Registered := by
  have hsize : (p.pushMethod x).classes.size = p.classes.size := Array.size_modify
  have hclass := classAt_pushMethod hx
  have hold (m : MethodId) (hm : m.idx < p.methods.size) :
      (p.pushMethod x).methodAt m = p.methodAt m := by
    rw [methodAt_pushMethod, if_neg (by omega)]
  have hlast : (p.pushMethod x).methodAt ⟨p.methods.size⟩ = x := by
    rw [methodAt_pushMethod, if_pos rfl]
  have hpushed : (p.pushMethod x).methods.size = p.methods.size + 1 := by
    simp [Program.pushMethod]
  have hidx (m : MethodId) : m.idx = p.methods.size ↔ m = ⟨p.methods.size⟩ :=
    ⟨congrArg MethodId.mk, congrArg MethodId.idx⟩
  have hnames (k : ClassId) : ((p.pushMethod x).classAt k).name = (p.classAt k).name := by
    rw [hclass]
    split <;> rfl
  have hfields (k : ClassId) : ((p.pushMethod x).classAt k).fields = (p.classAt k).fields := by
    rw [hclass]
    split <;> rfl
  refine ⟨?_, ?_, fun f hf => ?_, ?_⟩
  · simp only [hfields]
    exact h.fields
  · rw [hpushed]
    -- Methods are entered as before, and the new one in its class.
    refine h.methods.push hidx (fun m hm => ?_) (fun k => ?_) ?_
    · rw [hold m hm]
      exact ⟨rfl, rfl⟩
    · rw [hlast, hclass]
      split <;> rfl
    · rw [hlast]
      exact hnew
  · rw [hsize, hnames]
    exact h.fieldOwner f hf
  · rw [hpushed]
    refine forall_lt_succ hidx (fun m hm => ?_) ?_
    · rw [hsize, hnames, hold m hm]
      exact h.methodOwner m hm
    · rw [hsize, hnames, hlast]
      exact ⟨hx, hname⟩

end Registered

/-! ## Members by name -/

/-- Nothing but classes and links matters to the names of classes and to what connects them. -/
theorem Connects.congr {n : Nat} {known : String → Prop} {links : String → List (String × LinkKind)}
    {p q : Program} (h : p.Connects n known links) (hclasses : q.classes = p.classes)
    (hlinks : q.links = p.links) : q.Connects n known links := by
  cases q
  cases hclasses
  cases hlinks
  exact ⟨h.layered.congr rfl rfl, h.names, h.links⟩

/-- A defined class may change if it keeps its name. -/
theorem Connects.modifyClass {n : Nat} {known : String → Prop}
    {links : String → List (String × LinkKind)} {p : Program} (h : p.Connects n known links)
    {c : ClassId} (hc : c.idx < n) {f : Class → Class} (hf : ∀ k, (f k).name = k.name) :
    (p.modifyClass c f).Connects n known links := by
  refine ⟨h.layered.modifyClass hc hf, fun x => ?_, fun x => ?_⟩
  · rw [classNames_modifyClass hf, h.names]
  · rw [linksFrom_modifyClass hf, h.links]

/-- The hierarchy is that of the definition, the classes have the given fields and methods, and a field
is static if its definition says so. -/
structure Realizes (d : ProgramDef) (F : ClassId → List FieldDef) (M : ClassId → List MethodDef)
    (p : Program) : Prop extends Connects d.classes.length (· ∈ d.names) d.links p where
  acyclic : p.Acyclic
  defined : ∀ (i : Nat) c, d.classes[i]? = some c →
    (p.classAt ⟨i⟩).name = c.name ∧ (p.classAt ⟨i⟩).isInterface = c.isInterface
  field : ∀ c name, (p.declaredField? c name).map (fun f => (p.fieldAt f).isStatic) =
    ((F c).find? (·.name = name)).map (·.isStatic)
  method : ∀ c s, (p.declared? c s).isSome = true ↔ some s ∈ (M c).map (·.subsignature?)

section Realizes

variable {d : ProgramDef} {F : ClassId → List FieldDef} {M : ClassId → List MethodDef} {p q : Program}
  (h : p.Realizes d F M)

include h

/-- What a program realizes is a matter of its classes, links and fields. -/
theorem Realizes.congr (hclasses : q.classes = p.classes) (hlinks : q.links = p.links)
    (hfields : q.fields = p.fields) : q.Realizes d F M := by
  have hconnects := h.toConnects.congr hclasses hlinks
  cases q
  cases hclasses
  cases hlinks
  cases hfields
  exact ⟨hconnects, h.acyclic, h.defined, h.field, h.method⟩

/-- A class has a field of a name if the definition has one. -/
theorem Realizes.isSome_declaredField?_iff {c : ClassId} {name : String} :
    (p.declaredField? c name).isSome = true ↔ name ∈ (F c).map (·.name) := by
  have hfield := congrArg Option.isSome (h.field c name)
  rw [Option.isSome_map, Option.isSome_map] at hfield
  rw [hfield, List.find?_isSome, List.mem_map]
  simp only [decide_eq_true_eq]

/-- A class gets one more field, under a new name. -/
theorem Realizes.pushField (hp : p.Registered) {x : Field} {f : FieldDef}
    (hx : x.owner.idx < d.classes.length) (hname : x.name = f.name) (hstatic : x.isStatic = f.isStatic)
    (hnew : f.name ∉ (F x.owner).map (·.name)) :
    (p.pushField x.owner x).Realizes d (Function.update F x.owner (F x.owner ++ [f])) M := by
  have hlt : x.owner.idx < p.classes.size := Nat.lt_of_lt_of_le hx h.layered.le
  have hclass := classAt_pushField hlt x
  have hconnects := h.toConnects.modifyClass hx (f := fun k =>
    { k with fields := Builder.insertEntry x.name ⟨p.fields.size⟩ k.fields }) fun _ => rfl
  refine ⟨hconnects.congr rfl rfl, h.acyclic, fun i c hc => ?_, fun c name => ?_, fun c s => ?_⟩
  · rw [hclass]
    split <;> exact h.defined i c hc
  · -- the fields that were there before are found as before
    have hold (name : String) : (p.declaredField? c name).map
        (fun f => ((p.pushField x.owner x).fieldAt f).isStatic) =
          (p.declaredField? c name).map fun f => (p.fieldAt f).isStatic := by
      cases hf : p.declaredField? c name with
      | none => rfl
      | some f =>
          have hsize := (hp.declaredField?_eq_some_iff.1 hf).1
          rw [Option.map_some, Option.map_some, fieldAt_pushField, if_neg (by omega)]
    -- the new field is looked up in its own class only
    by_cases hc : c = x.owner
    · subst hc
      have hkeys : x.name ∉ (p.classAt x.owner).fields.map (·.1) := by
        rw [← isSome_lookup_iff, ← declaredField?, h.isSome_declaredField?_iff, hname]
        exact hnew
      rw [Function.update_self, List.find?_append]
      rw [declaredField?, hclass, if_pos rfl, lookup_insertEntry (hp.fields.nodup _) hkeys]
      split
      · rename_i heq
        have hnone : (F x.owner).find? (·.name = name) = none := by
          rw [List.find?_eq_none]
          intro g hg hgn
          rw [decide_eq_true_eq] at hgn
          exact hnew (List.mem_map.2 ⟨g, hg, by rw [hgn, heq, hname]⟩)
        rw [hnone, Option.none_or, List.find?_singleton, Option.map_some, fieldAt_pushField, if_pos rfl,
          if_pos (by simp [heq, hname]), Option.map_some, hstatic]
      · rename_i hne
        rw [← declaredField?, hold, h.field, List.find?_singleton, if_neg, Option.or_none]
        rw [decide_eq_true_eq, ← hname]
        exact fun heq => hne heq.symm
    · rw [Function.update_of_ne hc, ← h.field, ← hold, declaredField?, hclass, if_neg hc]
      rfl
  · rw [← h.method, declared?, hclass]
    split <;> rfl

/-- A class gets one more method, under a new subsignature. -/
theorem Realizes.pushMethod (hp : p.Registered) {x : Method} {m : MethodDef}
    (hx : x.owner.idx < d.classes.length) (hsub : m.subsignature? = some x.ref.subsignature)
    (hnew : m.subsignature? ∉ (M x.owner).map (·.subsignature?)) :
    (p.pushMethod x).Realizes d F (Function.update M x.owner (M x.owner ++ [m])) := by
  have hlt : x.owner.idx < p.classes.size := Nat.lt_of_lt_of_le hx h.layered.le
  have hclass := classAt_pushMethod hlt
  have hconnects := h.toConnects.modifyClass hx (f := fun k =>
    { k with methods := Builder.insertEntry x.ref.subsignature ⟨p.methods.size⟩ k.methods })
    fun _ => rfl
  refine ⟨hconnects.congr rfl rfl, h.acyclic, fun i c hc => ?_, fun c name => ?_, fun c s => ?_⟩
  · rw [hclass]
    split <;> exact h.defined i c hc
  · rw [← h.field, declaredField?, hclass]
    split <;> rfl
  -- methods of other classes are looked up as before
  · by_cases hc : c = x.owner
    · subst hc
      have hkeys : x.ref.subsignature ∉ (p.classAt x.owner).methods.map (·.1) := by
        rw [← isSome_lookup_iff, ← declared?, h.method, ← hsub]
        exact hnew
      rw [Function.update_self, declared?, hclass, if_pos rfl,
        lookup_insertEntry (hp.methods.nodup _) hkeys, List.map_append, List.mem_append, ← h.method,
        List.map_singleton, List.mem_singleton, hsub, Option.some.injEq]
      split
      · rename_i heq
        simp [heq]
      · rename_i hne
        simp [hne, declared?]
    · rw [Function.update_of_ne hc, ← h.method, declared?, hclass, if_neg hc]
      rfl

end Realizes

end Program

/-- The method of the table has the header of the definition. -/
structure MethodDef.Heads (m : MethodDef) (k : Method) : Prop where
  isStatic : k.isStatic = m.isStatic
  isAbstract : k.isAbstract = m.isAbstract
  isNative : k.isNative = m.isNative
  subsignature : m.subsignature? = some k.ref.subsignature

/-- The methods of the table are those of the list, and none of them has a body yet. -/
structure Program.Stocked (ms : List MethodDef) (p : Program) : Prop where
  registered : p.Registered
  size : p.methods.size = ms.length
  header : ∀ (i : Nat) m, ms[i]? = some m → m.Heads (p.methodAt ⟨i⟩)
  bare : ∀ m, (p.methodAt m).body? = none
  vars : p.vars = #[]
  stmts : p.stmts = #[]

section Stocked

variable {p : Program} {ms : List MethodDef}

/-- Pushing a field changes nothing about methods. -/
theorem Program.Stocked.pushField (h : p.Stocked ms) {x : Field} (hx : x.owner.idx < p.classes.size)
    (hname : x.className = (p.classAt x.owner).name)
    (hnew : x.name ∉ (p.classAt x.owner).fields.map (·.1)) : (p.pushField x.owner x).Stocked ms :=
  ⟨h.registered.pushField hx hname hnew, h.size, h.header, h.bare, h.vars, h.stmts⟩

/-- The method that is pushed comes last in the list. -/
theorem Program.Stocked.pushMethod (h : p.Stocked ms) {x : Method} (hx : x.owner.idx < p.classes.size)
    (hname : x.ref.className = (p.classAt x.owner).name)
    (hnew : x.ref.subsignature ∉ (p.classAt x.owner).methods.map (·.1)) (hbody : x.body? = none)
    {m : MethodDef} (hm : m.Heads x) : (p.pushMethod x).Stocked (ms ++ [m]) := by
  -- The header of the new method is the last one of the list, and the others keep their places.
  refine ⟨h.registered.pushMethod hx hname hnew, ?_, fun i k hk => ?_, fun k => ?_, h.vars, h.stmts⟩
  · simp [Program.pushMethod, h.size]
  · rw [Program.methodAt_pushMethod, h.size]
    show k.Heads (if i = ms.length then x else p.methodAt ⟨i⟩)
    split
    · rename_i hi
      rw [hi, List.getElem?_concat_length] at hk
      exact Option.some.inj hk ▸ hm
    · rename_i hi
      have hlt := (List.getElem?_eq_some_iff.1 hk).1
      rw [List.length_append, List.length_singleton] at hlt
      rw [List.getElem?_append_left (by omega)] at hk
      exact h.header i k hk
  · rw [Program.methodAt_pushMethod]
    split
    · exact hbody
    · exact h.bare k

/-- Before members are declared, no class has any. -/
theorem Program.Depicts.members {cs : List ClassDef} {known : String → Prop}
    {links : String → List (String × LinkKind)} (h : p.Depicts cs known links) (c : ClassId) :
    (p.classAt c).methods = [] ∧ (p.classAt c).fields = [] := by
  by_cases hc : c.idx < cs.length
  · have hdefined := h.defined c.idx cs[c.idx] (List.getElem?_eq_getElem hc)
    rw [show c = ⟨c.idx⟩ from rfl, hdefined]
    exact ⟨rfl, rfl⟩
  · obtain ⟨hmethods, hfields, -⟩ := h.layered.members c (Nat.le_of_not_lt hc)
    exact ⟨hmethods, hfields⟩

/-- A hierarchy has no methods. -/
theorem Program.Depicts.stocked {cs : List ClassDef} {known : String → Prop}
    {links : String → List (String × LinkKind)} (h : p.Depicts cs known links) : p.Stocked [] := by
  have hmembers := h.members
  obtain ⟨classes, links, rfl⟩ := h.hierarchy
  have hnone {i : Nat} (hi : i < 0) : False := Nat.not_lt_zero i hi
  refine ⟨⟨⟨fun c => ?_, fun c k f => ?_⟩, ⟨fun c => ?_, fun c s m => ?_⟩, fun f hf => (hnone hf).elim,
    fun m hm => (hnone hm).elim⟩, rfl, by simp, fun m => rfl, rfl, rfl⟩
  · rw [(hmembers c).2]
    exact List.nodup_nil
  · rw [(hmembers c).2]
    exact ⟨fun hmem => (List.not_mem_nil hmem).elim, fun hmem => (hnone hmem.1).elim⟩
  · rw [(hmembers c).1]
    exact List.nodup_nil
  · rw [(hmembers c).1]
    exact ⟨fun hmem => (List.not_mem_nil hmem).elim, fun hmem => (hnone hmem.1).elim⟩

/-- An acyclic hierarchy realizes a definition without its members. -/
theorem Program.Depicts.realizes {d : ProgramDef} (h : p.Depicts d.classes (· ∈ d.names) d.links)
    (hacyclic : p.Acyclic) : p.Realizes d (fun _ => []) fun _ => [] := by
  refine ⟨h.toConnects, hacyclic, fun i c hc => ?_, fun c name => ?_, fun c s => ?_⟩
  · rw [h.defined i c hc]
    exact ⟨rfl, rfl⟩
  · rw [declaredField?, (h.members c).2]
    rfl
  · rw [declared?, (h.members c).1]
    simp

end Stocked

namespace Builder

variable {d : ProgramDef} {F : ClassId → List FieldDef} {M : ClassId → List MethodDef}
  {ms : List MethodDef} {e : Draft} {c : ClassId}

/-! ## Declarations -/

/-- A field is declared if its type can be read and its name is new. -/
theorem decides_declareField (h : e.program.Realizes d F M) (hs : e.program.Stocked ms)
    (hc : c.idx < d.classes.length) (x : FieldDef) :
    Decides (declareField c x) e (IsType x.type ∧ x.name ∉ (F c).map (·.name)) fun _ e' =>
      e'.program.Realizes d (Function.update F c (F c ++ [x])) M ∧ e'.program.Stocked ms := by
  refine (decides_readType x.type e).bind fun _ t e' he => ?_
  rw [he.2]
  have hnew : (e.program.declaredField? c x.name).isSome = true ↔ x.name ∈ (F c).map (·.name) :=
    h.isSome_declaredField?_iff
  refine .program ((Decides.unless (P := True) (fun _ => Refuses.bind (.throw rfl)) fun hnot => ?_).congr ?_)
  · refine Yields.decides ?_
    simp only [updateClass, yields_bind, yields_update]
    -- the field that is pushed is registered in its class
    let f : Field := ⟨c, (e.program.classAt c).name, x.name, t, x.isStatic⟩
    have hkeys : f.name ∉ (e.program.classAt f.owner).fields.map (·.1) := by
      rw [← isSome_lookup_iff]
      exact hnot
    rw [hnew] at hnot
    exact ⟨h.pushField hs.registered (x := f) hc rfl rfl hnot,
      hs.pushField (x := f) (Nat.lt_of_lt_of_le hc h.layered.le) rfl hkeys⟩
  · rw [hnew, and_true]

/-- The types of parameters are read one after the other. -/
theorem decides_readTypes (vs : List VarDef) (e : Draft) :
    Decides (vs.mapM fun v => readType v.type) e (∀ v ∈ vs, IsType v.type) fun ts e' =>
      vs.mapM (fun v => (Ty.parse v.type).toOption) = some ts ∧ e' = e := by
  refine (Decides.mapM (P := fun _ v => IsType v.type) (I := fun (vs : List VarDef) ts e' =>
    vs.mapM (fun v => (Ty.parse v.type).toOption) = some ts ∧ e' = e) ?_ ⟨rfl, rfl⟩).congr
      each_const.symm
  rintro before v after - ts e' ⟨hts, rfl⟩
  refine (decides_readType v.type e').mono ?_
  rintro t e'' ⟨ht, he⟩
  refine ⟨?_, he⟩
  rw [List.mapM_append, hts]
  simp [ht, Except.toOption]

/-- A method is declared if its types can be read and its subsignature is new. -/
theorem decides_declareMethod (h : e.program.Realizes d F M) (hs : e.program.Stocked ms)
    (hc : c.idx < d.classes.length) (x : MethodDef) :
    Decides (declareMethod c x) e ((∀ v ∈ x.params, IsType v.type) ∧ IsType x.result ∧
      x.subsignature? ∉ (M c).map (·.subsignature?)) fun id e' => id = ⟨ms.length⟩ ∧
        e'.program.Realizes d F (Function.update M c (M c ++ [x])) ∧
          e'.program.Stocked (ms ++ [x]) := by
  refine (decides_readTypes x.params e).bind fun _ params e' he' => ?_
  rw [he'.2]
  refine (decides_readType x.result e).bind fun _ result e'' he'' => ?_
  rw [he''.2]
  have hsub : x.subsignature? = some ⟨x.name, params, result⟩ := by
    rw [MethodDef.subsignature?, he'.1, he''.1]
    rfl
  have hnew := h.method c ⟨x.name, params, result⟩
  rw [← hsub] at hnew
  refine .program ((Decides.unless (P := True) (fun _ => Refuses.bind (.throw rfl)) fun hnot => ?_).congr ?_)
  · refine Yields.decides ?_
    simp only [updateClass, yields_bind, yields_update, yields_pure]
    -- the fields come first, then the methods; what was declared before is what the names must differ
    -- from
    -- the method that is pushed is registered in its class
    let m : Method := ⟨c, ⟨(e.program.classAt c).name, ⟨x.name, params, result⟩⟩, x.isStatic,
      x.isAbstract, x.isNative, none⟩
    have hkeys : m.ref.subsignature ∉ (e.program.classAt m.owner).methods.map (·.1) := by
      rw [← isSome_lookup_iff]
      exact hnot
    rw [hnew] at hnot
    exact ⟨congrArg MethodId.mk hs.size, h.pushMethod hs.registered (x := m) hc hsub hnot,
      hs.pushMethod (x := m) (Nat.lt_of_lt_of_le hc h.layered.le) rfl hkeys rfl ⟨rfl, rfl, rfl, hsub⟩⟩
  · rw [hnew, and_true]

/-- The members of a class are declared if they are right. -/
theorem decides_declareMembers (h : e.program.Realizes d F M) (hs : e.program.Stocked ms)
    (hc : c.idx < d.classes.length) (hF : F c = []) (hM : M c = []) (x : ClassDef) :
    Decides (declareMembers c x) e x.RightMembers fun new e' => new = numbered ms.length x.methods ∧
      e'.program.Realizes d (Function.update F c x.fields) (Function.update M c x.methods) ∧
        e'.program.Stocked (ms ++ x.methods) := by
  -- The fields come first. The invariant is that the class has those that were declared.
  have hfields : Decides (x.fields.forM (declareField c)) e
      (Each x.fields fun before f => IsType f.type ∧ f.name ∉ before.map (·.name)) fun _ e' =>
        e'.program.Realizes d (Function.update F c x.fields) M ∧ e'.program.Stocked ms := by
    refine Decides.forM (I := fun done e' =>
      e'.program.Realizes d (Function.update F c done) M ∧ e'.program.Stocked ms) ?_ ?_
    · intro before f after _ e' ⟨h', hs'⟩
      simpa using decides_declareField h' hs' hc f
    · rw [← hF, Function.update_eq_self]
      exact ⟨h, hs⟩
  -- So do the methods, which are numbered behind those of the classes before.
  have hmethods (e' : Draft) (h' : e'.program.Realizes d (Function.update F c x.fields) M ∧
      e'.program.Stocked ms) : Decides (x.methods.mapM fun m => return (← declareMethod c m, m)) e'
        (Each x.methods fun before m => (∀ v ∈ m.params, IsType v.type) ∧ IsType m.result ∧
          m.subsignature? ∉ before.map (·.subsignature?)) fun new e'' =>
            new = numbered ms.length x.methods ∧
              e''.program.Realizes d (Function.update F c x.fields) (Function.update M c x.methods) ∧
                e''.program.Stocked (ms ++ x.methods) := by
    refine Decides.mapM (I := fun done new e'' => new = numbered ms.length done ∧
      e''.program.Realizes d (Function.update F c x.fields) (Function.update M c done) ∧
        e''.program.Stocked (ms ++ done)) ?_ ?_
    · intro before m after _ new e'' ⟨hnew, h'', hs''⟩
      have hmethod := decides_declareMethod h'' hs'' hc m
      rw [Function.update_self] at hmethod
      refine (hmethod.bind (S := True) fun _ id e₃ h₃ => .pure ?_).congr (by rw [and_true])
      rw [Function.update_idem, List.append_assoc] at h₃
      refine ⟨?_, h₃.2⟩
      rw [numbered_append, ← hnew, h₃.1, List.length_append]
      rfl
    · have hsame : Function.update M c [] = M := by rw [← hM, Function.update_eq_self]
      rw [List.append_nil, hsame]
      exact ⟨rfl, h'⟩
  refine (hfields.bind fun _ _ e' => hmethods e').congr ?_
  -- What each step asks for is gathered to what the definition of a right class says.
  rw [each_and, each_and, each_and, each_const, each_const, each_const, each_notMem, each_notMem]
  exact ⟨fun h => ⟨⟨h.fieldTypes, h.fieldNames⟩, h.paramTypes, h.resultTypes, h.subsignatures⟩,
    fun ⟨⟨hfieldTypes, hfieldNames⟩, hparamTypes, hresultTypes, hsubsignatures⟩ =>
      ⟨hfieldTypes, hfieldNames, hparamTypes, hresultTypes, hsubsignatures⟩⟩

end Builder

/-! ## All members -/

section Members

variable {α : Type} (f : ClassDef → List α)

/-- Members of a class among some classes with their numbers. -/
def membersAmong (cs : List (ClassId × ClassDef)) (c : ClassId) : List α :=
  ((cs.lookup c).map f).getD []

/-- A class that is not among the classes has no members. -/
theorem membersAmong_eq_nil {cs : List (ClassId × ClassDef)} {c : ClassId} (h : c ∉ cs.map (·.1)) :
    membersAmong f cs c = [] := by
  rw [← isSome_lookup_iff, Option.not_isSome_iff_eq_none] at h
  rw [membersAmong, h]
  rfl

/-- The members of the last class are its own, if it did not occur before. -/
theorem membersAmong_append {cs : List (ClassId × ClassDef)} {c : ClassId × ClassDef}
    (h : c.1 ∉ cs.map (·.1)) :
    membersAmong f (cs ++ [c]) = Function.update (membersAmong f cs) c.1 (f c.2) := by
  funext k
  obtain ⟨i, x⟩ := c
  rw [membersAmong, List.lookup_append, List.lookup_cons, List.lookup_nil]
  by_cases hk : k = i
  · rw [← isSome_lookup_iff, Option.not_isSome_iff_eq_none] at h
    rw [hk, h, Function.update_self, beq_self_eq_true]
    rfl
  · rw [Function.update_of_ne hk, membersAmong, beq_false_of_ne hk, Option.or_none]

/-- Members of a class of the definition. -/
def ProgramDef.membersAt (d : ProgramDef) (c : ClassId) : List α :=
  (d.classes[c.idx]?.map f).getD []

/-- Among all classes, the members of a class are those of its definition. -/
theorem membersAmong_numberedClasses (d : ProgramDef) :
    membersAmong f (Builder.numberedClasses d.classes) = d.membersAt f := by
  funext c
  rw [membersAmong, ProgramDef.membersAt]
  congr 2
  refine Option.ext fun x => ?_
  rw [lookup_eq_some_iff_mem (Builder.nodup_numberedClasses _)]
  refine ⟨Builder.getElem?_of_mem_numberedClasses, fun hx => ?_⟩
  refine List.mem_iff_getElem?.2 ⟨c.idx, List.getElem?_zip_eq_some.2 ⟨?_, hx⟩⟩
  rw [List.getElem?_map, List.getElem?_range (List.getElem?_eq_some_iff.1 hx).1]
  rfl

end Members

/-- The members of all classes are declared if they are right. -/
theorem Builder.decides_declareAll {d : ProgramDef} {e : Draft}
    (h : e.program.Depicts d.classes (· ∈ d.names) d.links) (hacyclic : e.program.Acyclic) :
    Decides ((numberedClasses d.classes).mapM fun c => declareMembers c.1 c.2) e
      (∀ c ∈ d.classes, c.RightMembers) fun mss e' => mss.flatten = numbered 0 d.methods ∧
        e'.program.Realizes d (d.membersAt (·.fields)) (d.membersAt (·.methods)) ∧
          e'.program.Stocked d.methods := by
  refine ((Decides.mapM (P := fun _ c => c.2.RightMembers) (I := fun done mss e' =>
    mss.flatten = numbered 0 ((done.map (·.2)).flatMap (·.methods)) ∧
      e'.program.Realizes d (membersAmong (·.fields) done) (membersAmong (·.methods) done) ∧
        e'.program.Stocked ((done.map (·.2)).flatMap (·.methods))) ?_
          ⟨rfl, h.realizes hacyclic, h.stocked⟩).congr ?_).mono ?_
  -- classes have different numbers, so the members of one class are declared while those of the others
  -- stay
  · intro done c after hsplit mss e' ⟨hmss, h', hs'⟩
    have hmem : c ∈ numberedClasses d.classes := by simp [hsplit]
    have hlt := (List.getElem?_eq_some_iff.1 (getElem?_of_mem_numberedClasses hmem)).1
    have hnew : c.1 ∉ done.map (·.1) := by
      have hnodup := nodup_numberedClasses d.classes
      rw [hsplit, List.map_append, List.map_cons, List.nodup_append] at hnodup
      exact fun hmem => hnodup.2.2 c.1 hmem c.1 (List.mem_cons_self ..) rfl
    refine (decides_declareMembers h' hs' hlt (membersAmong_eq_nil _ hnew)
      (membersAmong_eq_nil _ hnew) c.2).mono fun new e'' ⟨hmethods, h'', hs''⟩ => ?_
    rw [membersAmong_append _ hnew, membersAmong_append _ hnew, List.map_append, List.flatMap_append]
    refine ⟨?_, h'', by simpa using hs''⟩
    rw [List.flatten_append, hmss, numbered_append, hmethods]
    simp
  · rw [each_const]
    conv_lhs => rw [← map_snd_numberedClasses d.classes]
    rw [List.forall_mem_map]
  · rw [map_snd_numberedClasses, membersAmong_numberedClasses, membersAmong_numberedClasses]
    exact fun _ _ h' => h'

end PointsTo
