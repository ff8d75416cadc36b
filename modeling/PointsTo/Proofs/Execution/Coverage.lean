import PointsTo.Proofs.Execution.Interpreter
import PointsTo.Proofs.Solver.Rules

/-! # Executions are covered

Every configuration of an execution is covered by every set of facts that is closed under the rules.
Contexts do not exist at run time, so the invariant carries them as ghosts: one for each frame, in
which its method is reachable, and one for each object. A step that makes a frame or an object chooses
the context that the selector computes there; nothing else depends on the selector.
-/

namespace PointsTo

/-! ## Closed sets of facts -/

section Closed

variable {p : Program} {sel : Selector} {names : Origin → Option ObjectId} {given F : Fact → Prop}
  (hF : Closed (Rule p sel names given) F)

include hF

/-- What an inclusion takes objects from is covered by what it brings them to. -/
theorem Closed.pointsTo_of_inclusion {ps : List Fact} {x y : Place} (hxy : Inclusion p ps x y)
    (hps : ∀ q ∈ ps, F q) {o : HeapObject} (ho : F (.pointsTo x o)) : F (.pointsTo y o) := by
  refine hF _ _ (.inclusion hxy o) fun q hq => ?_
  rcases List.mem_cons.1 hq with rfl | hq
  · exact ho
  · exact hps q hq

/-- Callees of calls are reachable. -/
theorem Closed.reach_of_call {k : CallKind} {site : CsCallSite} {m : CsMethod}
    (h : F (.call k site m)) : F (.reach m) := by
  refine hF [.call k site m] _ .callee fun q hq => ?_
  rw [List.mem_singleton] at hq
  rwa [hq]

end Closed

/-! ## Ghost contexts -/

/-- A context for each frame, and a heap context for each object. -/
structure Ghost where
  frame : Nat → Context
  object : Nat → Context

namespace Ghost

def setFrame (g : Ghost) (n : Nat) (c : Context) : Ghost :=
  { g with frame := fun i => if i = n then c else g.frame i }

def setObject (g : Ghost) (n : Nat) (c : Context) : Ghost :=
  { g with object := fun i => if i = n then c else g.object i }

/-- What the analysis takes an object for. -/
def heapObject (g : Ghost) (p : Program) (c : Config) (o : Nat) : HeapObject :=
  ⟨g.object o, p.allocated (c.objectAt o).site (c.objectAt o).type⟩

/-- The place that a location belongs to. -/
def place (g : Ghost) (p : Program) (c : Config) : Location → Place
  | .var frame v => .var (g.frame frame) v
  | .staticField f => .staticField f
  | .instanceField base f => .instanceField (g.heapObject p c base) f
  | .element base _ => .arrayIndex (g.heapObject p c base)

end Ghost

/-- The location belongs to a frame or an object of the configuration, or to no one. -/
def Location.Live (c : Config) : Location → Prop
  | .var frame _ => frame < c.frames.size
  | .staticField _ => True
  | .instanceField base _ => base < c.objects.size
  | .element base _ => base < c.objects.size

/-- The facts cover the configuration. -/
structure Ghost.Covers (g : Ghost) (p : Program) (F : Fact → Prop) (c : Config) : Prop where
  reach : ∀ i frame, c.frames[i]? = some frame → F (.reach ⟨g.frame i, frame.method⟩)
  call : ∀ (i : Nat) (frame : Frame) (caller : Nat) (s : StmtId), c.frames[i]? = some frame →
    frame.caller? = some (caller, s) → caller < c.frames.size ∧ ∃ k call,
      (p.stmtAt s).kind = .invoke call ∧
      F (.call k ⟨g.frame caller, s⟩ ⟨g.frame i, frame.method⟩)
  store : ∀ l o, c.store l = some o → l.Live c ∧ o < c.objects.size ∧
    F (.pointsTo (g.place p c l) (g.heapObject p c o))

namespace Ghost.Covers

variable {g : Ghost} {p : Program} {F : Fact → Prop} {c : Config} (h : g.Covers p F c)

include h

/-! ## Assignments -/

/-- A location may be given an object that its place has. -/
theorem assign {l : Location} (hl : l.Live c) {value : Option Nat}
    (hv : ∀ o, value = some o → o < c.objects.size ∧
      F (.pointsTo (g.place p c l) (g.heapObject p c o))) : g.Covers p F (c.assign l value) where
  reach := h.reach
  call := h.call
  store l' o ho := by
    simp only [Config.assign] at ho
    split at ho
    · rename_i heq
      subst heq
      exact ⟨hl, hv o ho⟩
    · exact h.store l' o ho

/-- A location may be copied where the rules include its place in another. -/
theorem copy {ps : List Fact} {sel : Selector} {names : Origin → Option ObjectId}
    {given : Fact → Prop} (hF : Closed (Rule p sel names given) F) {l t : Location}
    (ht : t.Live c) (hincl : Inclusion p ps (g.place p c l) (g.place p c t))
    (hps : ∀ q ∈ ps, F q) : g.Covers p F (c.copy l t) := by
  refine h.assign ht fun o ho => ?_
  obtain ⟨-, hlt, hfact⟩ := h.store l o ho
  exact ⟨hlt, hF.pointsTo_of_inclusion hincl hps hfact⟩

/-- Variables of a frame may be bound one after the other. -/
theorem bind {frame : Nat} (hframe : frame < c.frames.size) {bs : List (VarId × Option Nat)}
    (hbs : ∀ b ∈ bs, ∀ o, b.2 = some o → o < c.objects.size ∧
      F (.pointsTo (.var (g.frame frame) b.1) (g.heapObject p c o))) :
    g.Covers p F (c.bind frame bs) := by
  -- later bindings see the same frames and objects
  induction bs generalizing c with
  | nil => exact h
  | cons b bs ih =>
      have hb := h.assign (l := .var frame b.1) hframe (hbs b (List.mem_cons_self ..))
      exact ih hb hframe fun b' hb' => hbs b' (List.mem_cons_of_mem _ hb')

/-! ## New objects and frames -/

omit h in
/-- The number of an object decides what it is taken for, and old objects keep theirs. -/
theorem heapObject_setObject {o : Nat} (ho : o < c.objects.size) (x : Instance) (context : Context) :
    (g.setObject c.objects.size context).heapObject p { c with objects := c.objects.push x } o =
      g.heapObject p c o := by
  have hat : (c.objects.push x).getD o default = c.objects.getD o default := by
    rw [Array.getD_eq_getD_getElem?, Array.getD_eq_getD_getElem?, Array.getElem?_push,
      if_neg (Nat.ne_of_lt ho)]
  simp only [heapObject, setObject, Config.objectAt, if_neg (Nat.ne_of_lt ho), hat]

/-- An object that nothing holds yet may have any heap context. -/
theorem pushObject (x : Instance) (context : Context) :
    (g.setObject c.objects.size context).Covers p F { c with objects := c.objects.push x } where
  reach := h.reach
  call := h.call
  store l o ho := by
    obtain ⟨hlive, hlt, hfact⟩ := h.store l o ho
    have hgrow : c.objects.size < (c.objects.push x).size := by simp
    -- what is live does not see the new object
    refine ⟨?_, Nat.lt_trans hlt hgrow, ?_⟩
    · cases l with
      | var => exact hlive
      | staticField => exact hlive
      | instanceField => exact Nat.lt_trans hlive hgrow
      | element => exact Nat.lt_trans hlive hgrow
    · rw [heapObject_setObject hlt]
      cases l with
      | var => exact hfact
      | staticField => exact hfact
      | instanceField base f =>
          rw [place, heapObject_setObject hlive]
          exact hfact
      | element base i =>
          rw [place, heapObject_setObject hlive]
          exact hfact

/-- A frame in which all variables are empty may have any context in which the call reaches it. -/
theorem pushFrame {f : Frame} {context : Context} (hreach : F (.reach ⟨context, f.method⟩))
    (hcall : ∀ caller s, f.caller? = some (caller, s) → caller < c.frames.size ∧ ∃ k call,
      (p.stmtAt s).kind = .invoke call ∧
      F (.call k ⟨g.frame caller, s⟩ ⟨context, f.method⟩)) :
    (g.setFrame c.frames.size context).Covers p F { c with frames := c.frames.push f } := by
  have hgrow : c.frames.size < (c.frames.push f).size := by simp
  have hold : ∀ i, i < c.frames.size → (g.setFrame c.frames.size context).frame i = g.frame i :=
    fun i hi => if_neg (Nat.ne_of_lt hi)
  have hnew : (g.setFrame c.frames.size context).frame c.frames.size = context := if_pos rfl
  -- a frame is an old one, or the new one
  have hcases : ∀ {i frame'}, (c.frames.push f)[i]? = some frame' →
      i < c.frames.size ∧ c.frames[i]? = some frame' ∨ i = c.frames.size ∧ frame' = f := by
    intro i frame' hi
    rw [Array.getElem?_push] at hi
    split at hi
    · rename_i heq
      exact Or.inr ⟨heq, (Option.some.inj hi).symm⟩
    · exact Or.inl ⟨(Array.getElem?_eq_some_iff.1 hi).1, hi⟩
  -- What the frames need is asked of the new one and was true of the others, which keep their contexts.
  constructor
  · intro i frame' hi
    rcases hcases hi with ⟨hlt, hi⟩ | ⟨rfl, rfl⟩
    · rw [hold i hlt]
      exact h.reach i frame' hi
    · rwa [hnew]
  · intro i frame' caller s hi hs
    rcases hcases hi with ⟨hlt, hi⟩ | ⟨rfl, rfl⟩
    · obtain ⟨hcaller, hfact⟩ := h.call i frame' caller s hi hs
      rw [hold i hlt, hold caller hcaller]
      exact ⟨Nat.lt_trans hcaller hgrow, hfact⟩
    · obtain ⟨hcaller, hfact⟩ := hcall caller s hs
      rw [hnew, hold caller hcaller]
      exact ⟨Nat.lt_trans hcaller hgrow, hfact⟩
  · intro l o ho
    obtain ⟨hlive, hlt, hfact⟩ := h.store l o ho
    cases l with
    | var frame' v =>
        refine ⟨Nat.lt_trans hlive hgrow, hlt, ?_⟩
        rw [place, hold frame' hlive]
        exact hfact
    | staticField => exact ⟨hlive, hlt, hfact⟩
    | instanceField => exact ⟨hlive, hlt, hfact⟩
    | element => exact ⟨hlive, hlt, hfact⟩

/-- An object may be allocated for a variable that has it in the context of the frame. -/
theorem allocate {frame : Nat} (hframe : frame < c.frames.size) {v : VarId} {x : Instance}
    {context : Context}
    (hfact : F (.pointsTo (.var (g.frame frame) v) ⟨context, p.allocated x.site x.type⟩)) :
    (g.setObject c.objects.size context).Covers p F (c.allocate (.var frame v) x) := by
  refine (h.pushObject x context).assign (l := .var frame v) hframe fun o ho => ?_
  cases ho
  have hnew : (g.setObject c.objects.size context).heapObject p
      { c with objects := c.objects.push x } c.objects.size =
        ⟨context, p.allocated x.site x.type⟩ := by
    simp [heapObject, setObject, Config.objectAt, Array.getD_eq_getD_getElem?]
  rw [hnew]
  exact ⟨by simp, hfact⟩

/-! ## Steps -/

variable {sel : Selector} {names : Origin → Option ObjectId} {given : Fact → Prop}
  (hF : Closed (Rule p sel names given) F)
  (hnamed : ∀ x y, F (.pointsTo x y) → ∃ i, names y.object.origin = some i)

include hF

/-- A method may be entered by a call that the facts have, if they give it its receiver. -/
theorem enter {k : CallKind} {caller : Nat} (hcaller : caller < c.frames.size) {s : StmtId}
    {call : Invoke} (hkind : (p.stmtAt s).kind = .invoke call) {context : Context} {m : MethodId}
    (hcall : F (.call k ⟨g.frame caller, s⟩ ⟨context, m⟩)) {receiver : Option Nat}
    (hthis : ∀ o b this, receiver = some o → (p.methodAt m).body? = some b →
      b.this? = some this → o < c.objects.size ∧
        F (.pointsTo (.var context this) (g.heapObject p c o))) :
    (g.setFrame c.frames.size context).Covers p F (c.enter p caller s call receiver m) := by
  refine (h.pushFrame (f := ⟨m, some (caller, s)⟩) (hF.reach_of_call hcall)
    fun caller' s' heq => ?_).bind (by simp) fun b hb o ho => ?_
  · cases heq
    exact ⟨hcaller, k, call, hkind, hcall⟩
  · have hcontext : (g.setFrame c.frames.size context).frame c.frames.size = context := if_pos rfl
    rw [hcontext]
    cases hbody : (p.methodAt m).body? with
    | none =>
        rw [hbody] at hb
        cases hb
    | some body =>
        simp only [hbody, Option.map_some, Option.getD_some, Config.bindings, List.mem_append,
          List.mem_map, Option.mem_toList] at hb
        -- a binding is that of the receiver, or that of an argument
        rcases hb with ⟨this, hmem, rfl⟩ | ⟨⟨arg, param⟩, hpair, rfl⟩
        · exact hthis o body this ho hbody hmem
        · obtain ⟨-, hlt, hfact⟩ := h.store _ _ ho
          have hargument : Inclusion p [.call k ⟨g.frame caller, s⟩ ⟨context, m⟩]
              (.var (g.frame caller) arg) (.var context param) := .argument hkind hbody hpair
          refine ⟨hlt, hF.pointsTo_of_inclusion hargument (fun q hq => ?_) hfact⟩
          rw [List.mem_singleton] at hq
          rwa [hq]

section Frame

variable {i : Nat} {f : Frame} (hi : c.frames[i]? = some f) {s : StmtId}
  (hs : s ∈ p.stmtsOf f.method)

include hi hs

omit hF hs in
/-- The premise of the rules for the statements of a frame. -/
theorem reach_premise : ∀ q ∈ [Fact.reach ⟨g.frame i, f.method⟩], F q := by
  intro q hq
  rw [List.mem_singleton] at hq
  rw [hq]
  exact h.reach i f hi

omit hF hs in
/-- The premises of the rules for the statements of a frame with a base variable. -/
theorem base_premises {base : VarId} {o : Nat} (ho : c.store (.var i base) = some o) :
    ∀ q ∈ [Fact.reach ⟨g.frame i, f.method⟩,
      .pointsTo (.var (g.frame i) base) (g.heapObject p c o)], F q := by
  intro q hq
  rw [List.mem_cons, List.mem_singleton] at hq
  rcases hq with rfl | rfl
  · exact h.reach i f hi
  · exact (h.store _ _ ho).2.2

include hnamed in
/-- A call enters a method in the context that the selector computes for it. -/
theorem invoke {call : Invoke} (hkind : (p.stmtAt s).kind = .invoke call) :
    ∃ g' : Ghost, g'.Covers p F (c.invoke p i s call) := by
  have hlt := (Array.getElem?_eq_some_iff.1 hi).1
  -- A call without an answer leaves everything as it is. Any other enters a frame for the callee.
  unfold Config.invoke
  split
  · -- a call without a receiver is a static one
    rename_i hbase
    have hstatic : call.binding = .static := by
      cases hb : call.binding with
      | static => rfl
      | _ =>
          rw [hb] at hbase
          cases hbase
    cases hm : p.resolveCallee? none call with
    | none => exact ⟨g, h⟩
    | some m =>
        have hcall := hF _ _ (.staticCall hs hkind hstatic hm) (h.reach_premise hi)
        exact ⟨_, h.enter hF hlt hkind hcall fun o b this ho => by cases ho⟩
  · rename_i base hbase
    split
    · exact ⟨g, h⟩
    · rename_i o ho
      obtain ⟨-, hlto, hfact⟩ := h.store _ _ ho
      cases hm : p.resolveCallee? (some (c.objectAt o).type) call with
      | none => exact ⟨g, h⟩
      | some m =>
          -- the receiver has a name, from which the selector computes the context of the callee
          obtain ⟨id, hid⟩ := hnamed _ _ hfact
          have hd : Dispatches p sel names ⟨g.frame i, f.method⟩ s call base (g.heapObject p c o)
              ⟨sel.receiverContext ⟨g.frame i, s⟩
                ⟨g.object o, id, (g.heapObject p c o).object.container⟩, m⟩ :=
            ⟨hs, hkind, hbase, hm, id, hid, rfl⟩
          have hpremises := h.base_premises hi ho
          refine ⟨_, h.enter hF hlt hkind (hF _ _ (.dispatch hd) hpremises)
            fun o' b this ho' hb hthis => ?_⟩
          cases ho'
          exact ⟨hlto, hF _ _ (.receiver hd hb hthis) hpremises⟩

/-- What a frame returns is covered by the call that made it. -/
theorem leave {v : VarId} (hkind : (p.stmtAt s).kind = .ret (some v)) :
    g.Covers p F (c.leave p i f.caller? v) := by
  unfold Config.leave
  split
  · exact h
  · rename_i caller site hcaller
    obtain ⟨hlt, k, call, hcall, hfact⟩ := h.call i f caller site hi hcaller
    split
    · exact h
    · rename_i x hx
      have hresult : call.result? = some x := by
        rw [Stmt.invoke?, hcall] at hx
        exact hx
      have hincl : Inclusion p [.call k ⟨g.frame caller, site⟩ ⟨g.frame i, f.method⟩]
          (.var (g.frame i) v) (.var (g.frame caller) x) := .result hcall hs hkind hresult
      refine h.copy hF (l := .var i v) (t := .var caller x) hlt hincl fun q hq => ?_
      rw [List.mem_singleton] at hq
      rwa [hq]

include hnamed in
/-- Every statement keeps the configuration covered. -/
theorem execute (index : Nat) :
    ∃ g' : Ghost, g'.Covers p F (c.execute p i f.caller? s index) := by
  have hlt := (Array.getElem?_eq_some_iff.1 hi).1
  unfold Config.execute
  -- one case for each kind of statement, in which the rule for that kind covers what is assigned
  split
  · rename_i lhs t hkind
    have hfact := hF _ _ (.new hs hkind) (h.reach_premise hi)
    exact ⟨_, h.allocate hlt hfact⟩
  · rename_i lhs rhs hkind
    exact ⟨g, h.copy hF (t := .var i lhs) hlt (.copy hs hkind) (h.reach_premise hi)⟩
  · rename_i base fld rhs hkind
    cases ho : c.store (.var i base) with
    | none => exact ⟨g, h⟩
    | some o =>
        have hlive := (h.store _ _ ho).2.1
        exact ⟨g, h.copy hF (t := .instanceField o fld) hlive (.instanceStore hs hkind)
          (h.base_premises hi ho)⟩
  · rename_i lhs base fld hkind
    cases ho : c.store (.var i base) with
    | none => exact ⟨g, h⟩
    | some o =>
        exact ⟨g, h.copy hF (t := .var i lhs) hlt (.instanceLoad hs hkind) (h.base_premises hi ho)⟩
  · rename_i fld rhs hkind
    exact ⟨g, h.copy hF (t := .staticField fld) trivial (.staticStore hs hkind)
      (h.reach_premise hi)⟩
  · rename_i lhs fld hkind
    exact ⟨g, h.copy hF (t := .var i lhs) hlt (.staticLoad hs hkind) (h.reach_premise hi)⟩
  · rename_i base rhs hkind
    cases ho : c.store (.var i base) with
    | none => exact ⟨g, h⟩
    | some o =>
        have hlive := (h.store _ _ ho).2.1
        exact ⟨g, h.copy hF (t := .element o index) hlive (.arrayStore hs hkind)
          (h.base_premises hi ho)⟩
  · rename_i lhs base hkind
    cases ho : c.store (.var i base) with
    | none => exact ⟨g, h⟩
    | some o =>
        exact ⟨g, h.copy hF (t := .var i lhs) hlt (.arrayLoad hs hkind) (h.base_premises hi ho)⟩
  · rename_i call hkind
    exact h.invoke hF hnamed hi hs hkind
  · rename_i value hkind
    cases value with
    | none => exact ⟨g, h⟩
    | some v => exact ⟨g, h.leave hF hi hs hkind⟩

end Frame

include hnamed

/-- Every step keeps the configuration covered. -/
theorem step (x : Choice) : ∃ g' : Ghost, g'.Covers p F (c.step p x) := by
  unfold Config.step
  split
  · exact ⟨g, h⟩
  · rename_i f hi
    split
    · rename_i hs
      exact h.execute hF hnamed hi hs x.index
    · exact ⟨g, h⟩

/-- Every execution keeps the configuration covered. -/
theorem run (xs : List Choice) : ∃ g' : Ghost, g'.Covers p F (c.run p xs) := by
  induction xs generalizing c g with
  | nil => exact ⟨g, h⟩
  | cons x xs ih =>
      obtain ⟨g', h'⟩ := h.step hF hnamed x
      exact ih h'

end Ghost.Covers

/-- The first configuration is covered, in empty contexts, once the entry method is reachable. -/
theorem Ghost.covers_start {p : Program} {F : Fact → Prop} {entry : MethodId}
    (h : F (.reach ⟨[], entry⟩)) : (⟨fun _ => [], fun _ => []⟩ : Ghost).Covers p F (.start entry) := by
  have hframe : ∀ {i : Nat} {f : Frame}, (Config.start entry).frames[i]? = some f →
      f = ⟨entry, none⟩ := by
    intro i f hi
    have hmem := Array.mem_of_getElem? hi
    simpa [Config.start] using hmem
  constructor
  · intro i f hi
    rw [hframe hi]
    exact h
  · intro i f caller s hi hs
    rw [hframe hi] at hs
    cases hs
  · intro l o ho
    cases ho

end PointsTo
