import PointsTo.Proofs.Result.Queries
import PointsTo.Proofs.Solver.Start

/-! # Translations of facts

Two analyses are compared by translating the facts of one into those of the other. A translation moves
statements and contexts; methods, variables and fields are the same on both sides. If it takes the
program to the program and commutes with the choice of contexts, then it takes rules to rules. Whatever
the first analysis derives is then found by the second one, and the same goes for the objects that the
two have met, the calls that they could not resolve, and the answers to queries.
-/

namespace PointsTo

/-! ## Translations -/

/-- A change of statements, of the contexts of methods, and of the heap contexts of objects. -/
structure Translation where
  stmt : StmtId → StmtId
  context : Context → Context
  heapContext : Context → Context

namespace Translation

variable (t : Translation)

/-- Objects of a statement become objects of the statement that it is moved to. -/
def origin : Origin → Origin
  | .site s => .site (t.stmt s)
  | .mock description => .mock description

def object (o : Object) : Object := { o with origin := t.origin o.origin }

def heapObject (o : HeapObject) : HeapObject := ⟨t.heapContext o.context, t.object o.object⟩

def callSite (c : CsCallSite) : CsCallSite := ⟨t.context c.context, t.stmt c.stmt⟩

def method (m : CsMethod) : CsMethod := ⟨t.context m.context, m.method⟩

def place : Place → Place
  | .var c v => .var (t.context c) v
  | .staticField f => .staticField f
  | .instanceField o f => .instanceField (t.heapObject o) f
  | .arrayIndex o => .arrayIndex (t.heapObject o)

/-- A fact, said about what its statements and contexts are translated to. -/
def fact : Fact → Fact
  | .reach m => .reach (t.method m)
  | .call kind site callee => .call kind (t.callSite site) (t.method callee)
  | .pointsTo x o => .pointsTo (t.place x) (t.heapObject o)

/-- The translation takes the statements of a program to those of another one with the same methods,
variables and fields, in which calls are resolved the same way. -/
structure Programs (p p' : Program) : Prop where
  stmts : ∀ {m : MethodId} {s : StmtId}, s ∈ p.stmtsOf m → t.stmt s ∈ p'.stmtsOf m
  kind : ∀ s, (p'.stmtAt (t.stmt s)).kind = (p.stmtAt s).kind
  method : ∀ s, (p'.stmtAt (t.stmt s)).method = (p.stmtAt s).method
  owner : ∀ m, (p'.methodAt m).owner = (p.methodAt m).owner
  body : ∀ {m : MethodId} {b : Body}, (p.methodAt m).body? = some b →
    ∃ b', (p'.methodAt m).body? = some b' ∧ b'.this? = b.this? ∧ b'.params = b.params
  argument : ∀ m, p'.mainArgument? m = p.mainArgument? m
  resolve : ∀ receiver call, p'.resolveCallee? receiver call = p.resolveCallee? receiver call

/-- The translation of the context that the first selector chooses is the one that the second selector
chooses for what is translated. Objects have the names that the two heaps give them, and the containers
that they have in the second heap. -/
structure Selectors (sel sel' : Selector) (h h' : Heap) : Prop where
  context_nil : t.context [] = []
  heapContext_nil : t.heapContext [] = []
  callee : ∀ site, t.context (sel.calleeContext site) = sel'.calleeContext (t.callSite site)
  heap : ∀ m, t.heapContext (sel.heapContext m) = sel'.heapContext (t.method m)
  receiver : ∀ {origin : Origin} {i i' : ObjectId}, h.find? origin = some i →
    h'.find? (t.origin origin) = some i' → ∀ site c,
      t.context (sel.receiverContext site ⟨c, i, (h'.get i').container⟩) =
        sel'.receiverContext (t.callSite site) ⟨t.heapContext c, i', (h'.get i').container⟩

end Translation

/-! ## Rules -/

section Rules

variable {t : Translation} {p p' : Program} {sel sel' : Selector} {h h' : Heap}

namespace Translation.Programs

variable (hp : t.Programs p p')

include hp

/-- The object of an allocation becomes that of the statement that it is moved to. -/
theorem allocated (s : StmtId) (type : Ty) :
    p'.allocated (t.stmt s) type = t.object (p.allocated s type) := by
  rw [Program.allocated, Program.allocated, hp.method, hp.owner]
  rfl

/-- Inclusions between places become inclusions between the translated places. -/
theorem inclusion {ps : List Fact} {x y : Place} (hxy : Inclusion p ps x y) :
    Inclusion p' (ps.map t.fact) (t.place x) (t.place y) := by
  -- statements keep their kinds, so each rule is the same one for the statement it is moved to
  have hkind {s : StmtId} {kind : StmtKind} (h : (p.stmtAt s).kind = kind) :
      (p'.stmtAt (t.stmt s)).kind = kind := by rw [hp.kind, h]
  cases hxy with
  | copy stmt kind => exact .copy (hp.stmts stmt) (hkind kind)
  | staticStore stmt kind => exact .staticStore (hp.stmts stmt) (hkind kind)
  | staticLoad stmt kind => exact .staticLoad (hp.stmts stmt) (hkind kind)
  | instanceStore stmt kind => exact .instanceStore (hp.stmts stmt) (hkind kind)
  | instanceLoad stmt kind => exact .instanceLoad (hp.stmts stmt) (hkind kind)
  | arrayStore stmt kind => exact .arrayStore (hp.stmts stmt) (hkind kind)
  | arrayLoad stmt kind => exact .arrayLoad (hp.stmts stmt) (hkind kind)
  | @argument k site callee call b arg param kind body pair =>
      obtain ⟨b', hb', -, hparams⟩ := hp.body body
      rw [← hparams] at pair
      exact @Inclusion.argument _ k (t.callSite site) (t.method callee) _ _ _ _ (hkind kind) hb' pair
  | @result k site callee call s v x kind stmt ret result =>
      exact @Inclusion.result _ k (t.callSite site) (t.method callee) _ _ _ _ (hkind kind)
        (hp.stmts stmt) (hkind ret) result

/-- A call that is dispatched for a receiver is dispatched in the same way after translation, if the
second heap has the receiver. -/
theorem dispatches (hsel : t.Selectors sel sel' h h') {caller : CsMethod} {s : StmtId}
    {call : Invoke} {base : VarId} {o : HeapObject} {callee : CsMethod}
    (hd : Dispatches p sel h.find? caller s call base o callee)
    (hnamed : ∃ i, h'.find? (t.origin o.object.origin) = some i ∧ h'.get i = t.object o.object) :
    Dispatches p' sel' h'.find? (t.method caller) (t.stmt s) call base (t.heapObject o)
      (t.method callee) := by
  obtain ⟨i, hi, hcontext⟩ := hd.context
  obtain ⟨i', hi', hobject⟩ := hnamed
  have hcontainer : (h'.get i').container = o.object.container := by
    rw [hobject]
    rfl
  refine ⟨hp.stmts hd.stmt, by rw [hp.kind, hd.kind], hd.base, ?_, i', hi', ?_⟩
  · rw [hp.resolve]
    exact hd.target
  · show t.context callee.context = _
    rw [hcontext, ← hcontainer, hsel.receiver hi hi', hcontainer]
    rfl

/-- What is given becomes what is given, as the empty context stays empty. -/
theorem given (hsel : t.Selectors sel sel' h h') {entry : MethodId} {mocked : Bool} {q : Fact}
    (hq : Given p entry mocked q) : Given p' entry mocked (t.fact q) := by
  -- The entry method and its mock arguments are given in the empty context, which is translated to
  -- itself.
  cases hq with
  | entry =>
      simp only [Translation.fact, Translation.method, hsel.context_nil]
      exact .entry
  | array hmock arg =>
      rw [← hp.argument] at arg
      have hgiven := Given.array (p := p') hmock arg
      simpa [Translation.fact, Translation.place, Translation.heapObject, Translation.object,
        Translation.origin, Program.mockArray, hsel.context_nil, hsel.heapContext_nil, hp.owner]
        using hgiven
  | element hmock arg =>
      rw [← hp.argument] at arg
      have hgiven := Given.element (p := p') hmock arg
      simpa [Translation.fact, Translation.place, Translation.heapObject, Translation.object,
        Translation.origin, Program.mockArray, Program.mockElement, hsel.heapContext_nil, hp.owner]
        using hgiven

/-- If a set of facts is closed under the rules of the second analysis, then the facts whose
translations it holds are closed under those of the first one. -/
theorem closed (hsel : t.Selectors sel sel' h h') {entry : MethodId} {mocked : Bool}
    {F : Fact → Prop} (hF : Closed (Rule p' sel' h'.find? (Given p' entry mocked)) F)
    (hnamed : ∀ x y, F (.pointsTo x y) →
      ∃ i, h'.find? y.object.origin = some i ∧ h'.get i = y.object) :
    Closed (Rule p sel h.find? (Given p entry mocked)) fun q => F (t.fact q) := by
  intro ps q rule hps
  have hmap {ps : List Fact} (hps : ∀ q ∈ ps, F (t.fact q)) : ∀ q' ∈ ps.map t.fact, F q' := by
    rintro q' hq'
    obtain ⟨q, hq, rfl⟩ := List.mem_map.1 hq'
    exact hps q hq
  -- contexts enter only where objects are allocated and calls are made; each such rule uses its own
  -- condition on the selectors
  cases rule with
  | given hq => exact hF [] _ (.given (hp.given hsel hq)) (by simp)
  | @new c m s x type stmt kind =>
      have hrule : Rule p' sel' h'.find? (Given p' entry mocked) [t.fact (.reach ⟨c, m⟩)]
          (.pointsTo (.var (t.context c) x)
            ⟨sel'.heapContext ⟨t.context c, m⟩, p'.allocated (t.stmt s) type⟩) :=
        .new (hp.stmts stmt) (by rw [hp.kind, kind])
      have hconclusion := hF _ _ hrule (hmap hps)
      rw [hp.allocated] at hconclusion
      have hheap : t.heapContext (sel.heapContext ⟨c, m⟩) = sel'.heapContext ⟨t.context c, m⟩ :=
        hsel.heap ⟨c, m⟩
      simpa only [Translation.fact, Translation.place, Translation.heapObject, hheap]
        using hconclusion
  | inclusion hxy o => exact hF _ _ (.inclusion (hp.inclusion hxy) (t.heapObject o)) (hmap hps)
  | @staticCall c m s call callee stmt kind binding target =>
      have hcall : F _ := hF _ _ (.staticCall (hp.stmts stmt) (by rw [hp.kind, kind]) binding
        (by rw [hp.resolve]; exact target)) (hmap hps)
      have hcontext : t.context (sel.calleeContext ⟨c, s⟩) =
          sel'.calleeContext ⟨t.context c, t.stmt s⟩ := hsel.callee ⟨c, s⟩
      simpa only [Translation.fact, Translation.callSite, Translation.method, hcontext] using hcall
  | @dispatch caller s call base o callee hd =>
      have hbase := hps (.pointsTo (.var caller.context base) o) (by simp)
      exact hF _ _ (.dispatch (hp.dispatches hsel hd (hnamed _ _ hbase))) (hmap hps)
  | @receiver caller s call base o callee b this hd body hthis =>
      have hbase := hps (.pointsTo (.var caller.context base) o) (by simp)
      obtain ⟨b', hb', hthis', -⟩ := hp.body body
      rw [← hthis'] at hthis
      exact hF _ _ (.receiver (hp.dispatches hsel hd (hnamed _ _ hbase)) hb' hthis) (hmap hps)
  | callee => exact hF _ _ .callee (hmap hps)

end Translation.Programs

end Rules

/-! ## States -/

/-- What the second state has found includes what the first one has found, after translation. -/
structure Translates (t : Translation) (s s' : State) : Prop where
  holds : ∀ {q : Fact}, s.Holds q → s'.Holds (t.fact q)
  heap : ∀ {i : Nat} {o : Object}, s.heap.objects[i]? = some o →
    ∃ j : Nat, s'.heap.objects[j]? = some (t.object o)
  denotes : ∀ {i : CsObjectId} {y : HeapObject}, s.Denotes i y → ∃ j, s'.Denotes j (t.heapObject y)
  unresolved : ∀ c ∈ s.unresolved, t.stmt c ∈ s'.unresolved

/-- A call on an object for which it has no method was recorded. -/
theorem Finished.mem_unresolved {a : Analysis} {given : Fact → Prop} {T : Theory a given} {s : State}
    (h : Finished T s) (wf : a.program.WellFormed) {stmt : StmtId} {call : Invoke} {v : VarId}
    {c : Context} {y : HeapObject} (hkind : (a.program.stmtAt stmt).kind = .invoke call)
    (hbase : call.binding.base? = some v) (hy : s.Holds (.pointsTo (.var c v) y))
    (hnone : a.program.resolveCallee? (some y.object.type) call = none) : stmt ∈ s.unresolved := by
  have haccess : (a.program.stmtAt stmt).kind.access? = some (.call, v) := by
    rw [hkind, StmtKind.access?, hbase]
    rfl
  obtain ⟨o, ho, hhandled⟩ := h.handled wf hy haccess
  rw [State.Handled, hkind] at hhandled
  obtain ⟨r, x, hr, hx, hrecorded, -⟩ := hhandled
  obtain ⟨i, hi, hobject⟩ := ho
  cases hr.symm.trans hi
  cases hx.symm.trans hobject
  exact hrecorded hnone

section Finished

variable {a a' : Analysis} {wf : a.program.WellFormed} {wf' : a'.program.WellFormed}
  {entry : MethodId} {s s' : State} {t : Translation}

/-- What one analysis has found, the other one has found after translation. -/
theorem Finished.translates (h : Finished (a.theory wf entry) s)
    (h' : Finished (a'.theory wf' entry) s')
    (hgiven : ∀ q, Given a'.program entry a'.options.mockMainArgs q → s'.Holds q)
    (hmocked : a'.options.mockMainArgs = a.options.mockMainArgs)
    (hp : t.Programs a.program a'.program)
    (hsel : t.Selectors a.selector a'.selector s.heap s'.heap) : Translates t s s' := by
  have hclosed := h'.closed wf' hgiven
  rw [hmocked] at hclosed
  have hderived {q : Fact} (hq : a.Derives entry s.heap q) : s'.Holds (t.fact q) := by
    refine hq.least (hp.closed hsel hclosed fun x y hxy => ?_)
    obtain ⟨_, _, o, -, -, ho, -⟩ := h'.sound.holds_pointsTo_iff.1 hxy
    exact ⟨_, ho.find? h'.sound.distinct, congrArg HeapObject.object ho.heapObject⟩
  -- an object that some place may have is one that some place has
  have hobject {c : Context} {x : Object} (hx : (a.theory wf entry).Founded s c x) :
      ∃ j, s'.Denotes j (t.heapObject ⟨c, x⟩) := by
    obtain ⟨z, hz⟩ := hx
    obtain ⟨_, _, j, -, -, hj, -⟩ := h'.sound.holds_pointsTo_iff.1 (hderived hz)
    exact ⟨j, hj⟩
  refine ⟨fun hq => hderived (h.sound.admits hq), fun {i o} ho => ?_, fun {i y} hy => ?_,
    fun stmt hstmt => ?_⟩
  · obtain ⟨-, c, hc⟩ := h.sound.made i o ho
    obtain ⟨j, id, -, hid⟩ := hobject hc
    exact ⟨id.idx, hid⟩
  · obtain ⟨id, hi, hid⟩ := hy
    obtain ⟨x, hx, -, hfounded⟩ := h.sound.object i _ hi
    cases hx.symm.trans hid
    exact hobject hfounded
  · obtain ⟨call, v, c, y, hkind, hbase, hadm, hnone⟩ := h.sound.unresolved stmt hstmt
    refine h'.mem_unresolved wf' (by rw [hp.kind, hkind]) hbase (hderived hadm) ?_
    rw [hp.resolve]
    exact hnone

end Finished

/-! ## Answers to queries -/

section Answers

variable {a a' : Analysis} {given given' : Fact → Prop} {T : Theory a given} {T' : Theory a' given'}
  {r r' : Solution} {t : Translation} (h : Translates t r.state r'.state)

include h

/-- A method that is reachable stays reachable after translation. -/
theorem Translates.mem_reachableMethods (hsize : r'.program.methods.size = r.program.methods.size)
    {m : MethodId} (hm : m ∈ r.reachableMethods) : m ∈ r'.reachableMethods := by
  rw [Solution.mem_reachableMethods] at hm ⊢
  obtain ⟨hlt, c, hc⟩ := hm
  exact ⟨by omega, t.context c, h.holds hc⟩

/-- A callee of a statement is a callee of the statement that it is moved to. -/
theorem Translates.mem_calleesOf (hsize : r'.program.methods.size = r.program.methods.size)
    {s : StmtId} {m : MethodId} (hm : m ∈ r.calleesOf s) : m ∈ r'.calleesOf (t.stmt s) := by
  rw [Solution.mem_calleesOf] at hm ⊢
  obtain ⟨hlt, k, c, c', hc⟩ := hm
  exact ⟨by omega, k, t.context c, t.context c', h.holds hc⟩

variable (hs : Sound T r.state) (hs' : Sound T' r'.state)

include hs hs'

/-- An object of a place is one of the translated place, by its origin. -/
theorem Translates.exists_named {x : Place} {y : HeapObject} {id : ObjectId}
    (hy : r.Holds (.pointsTo x y)) (hid : r.state.heap.find? y.object.origin = some id) :
    ∃ y' id', r'.Holds (.pointsTo (t.place x) y') ∧
      r'.state.heap.find? y'.object.origin = some id' ∧
      r'.state.heap.get id' = t.object (r.state.heap.get id) := by
  have hholds : r'.Holds (.pointsTo (t.place x) (t.heapObject y)) := h.holds hy
  obtain ⟨_, _, o, -, -, ⟨i, hi, hobject⟩, -⟩ := hs.holds_pointsTo_iff.1 hy
  obtain ⟨_, _, o', -, -, ⟨i', hi', hobject'⟩, -⟩ := hs'.holds_pointsTo_iff.1 hholds
  cases (hs.distinct.find? hobject).symm.trans hid
  refine ⟨_, i', hholds, hs'.distinct.find? hobject', ?_⟩
  rw [Heap.get_of_getElem? hobject', Heap.get_of_getElem? hobject]
  rfl

/-- An object of a variable becomes an object of that variable. -/
theorem Translates.mem_pointsToVar {v : VarId} {id : ObjectId} (hid : id ∈ r.pointsToVar v) :
    ∃ id' ∈ r'.pointsToVar v, r'.state.heap.get id' = t.object (r.state.heap.get id) := by
  obtain ⟨c, y, hy, hname⟩ := hs.mem_pointsToVar.1 hid
  obtain ⟨y', id', hy', hname', hobject⟩ := h.exists_named hs hs' hy hname
  exact ⟨id', hs'.mem_pointsToVar.2 ⟨t.context c, y', hy', hname'⟩, hobject⟩

/-- An object of a static field becomes an object of that field. -/
theorem Translates.mem_pointsToStaticField {f : FieldId} {id : ObjectId}
    (hid : id ∈ r.pointsToStaticField f) :
    ∃ id' ∈ r'.pointsToStaticField f, r'.state.heap.get id' = t.object (r.state.heap.get id) := by
  obtain ⟨y, hy, hname⟩ := hs.mem_pointsToStaticField.1 hid
  obtain ⟨y', id', hy', hname', hobject⟩ := h.exists_named hs hs' hy hname
  exact ⟨id', hs'.mem_pointsToStaticField.2 ⟨y', hy', hname'⟩, hobject⟩

end Answers

/-! ## Renaming -/

/-- Another name for the statement or the object of a token. -/
def Token.rename (stmt : StmtId → StmtId) (object : ObjectId → ObjectId) : Token → Token
  | .callSite s => .callSite (stmt s)
  | .object o => .object (object o)
  | .type c => .type c

/-- The name that a heap gives to the object that another heap names, with statements moved. -/
def Heap.renamed (h h' : Heap) (stmt : StmtId → StmtId) (i : ObjectId) : ObjectId :=
  (h'.find? (Translation.origin ⟨stmt, id, id⟩ (h.get i).origin)).getD i

/-- A context with statements moved, in which objects have the names of another heap. -/
def Context.renamed (c : Context) (stmt : StmtId → StmtId) (h h' : Heap) : Context :=
  c.map (Token.rename stmt (h.renamed h' stmt))

/-- What becomes of an origin depends on how statements are moved only. -/
theorem Translation.origin_eq {t : Translation} {stmt : StmtId → StmtId} (ht : t.stmt = stmt)
    (origin : Origin) : t.origin origin = Translation.origin ⟨stmt, id, id⟩ origin := by
  subst ht
  cases origin <;> rfl

/-- The renamed identifier is the one that the second heap has for the origin. -/
theorem Heap.renamed_of_find? {h h' : Heap} {stmt : StmtId → StmtId} {origin : Origin}
    {i i' : ObjectId} (hi : h.find? origin = some i)
    (hi' : h'.find? (Translation.origin ⟨stmt, id, id⟩ origin) = some i') :
    h.renamed h' stmt i = i' := by
  obtain ⟨o, ho, rfl⟩ := exists_of_find? hi
  rw [renamed, get_of_getElem? ho, hi']
  rfl

/-- Objects of the first heap have names in the second one. -/
theorem Translates.getElem?_renamed {t : Translation} {s s' : State} (h : Translates t s s')
    (hd : s'.heap.Distinct) {i : ObjectId} {o : Object} (ho : s.heap.objects[i.idx]? = some o) :
    s'.heap.objects[(s.heap.renamed s'.heap t.stmt i).idx]? = some (t.object o) := by
  obtain ⟨j, hj⟩ := h.heap ho
  have hfind := hd.find? (i := ⟨j⟩) hj
  rw [Heap.renamed, Heap.get_of_getElem? ho, ← Translation.origin_eq rfl]
  rw [Translation.object] at hfind
  rw [hfind]
  exact hj

section Contexts

variable {c : Context} {k : Nat} (f : Token → Token)

/-- Renaming tokens commutes with cutting a context. -/
theorem Context.map_lastK (c : Context) (k : Nat) : (c.lastK k).map f = Context.lastK (c.map f) k := by
  simp [Context.lastK, List.map_drop]

/-- Renaming tokens commutes with extending a context. -/
theorem Context.map_extend (c : Context) (x : Token) (k : Nat) :
    (c.extend x k).map f = Context.extend (c.map f) (f x) k := by
  unfold Context.extend
  split
  · rfl
  · rw [List.map_append, Context.map_lastK]
    rfl

end Contexts

/-- Statements are moved, and objects have the names of another heap. -/
def Translation.rename (stmt : StmtId → StmtId) (h h' : Heap) : Translation :=
  ⟨stmt, (·.renamed stmt h h'), (·.renamed stmt h h')⟩

/-- Selectors do not look at the names of objects and statements. -/
theorem Translation.rename_selectors (sel : Selector) (stmt : StmtId → StmtId) (h h' : Heap) :
    (rename stmt h h').Selectors sel sel h h' where
  context_nil := rfl
  heapContext_nil := rfl
  callee site := by
    cases sel with
    | callSite k => exact Context.map_extend _ _ _ _
    | _ => rfl
  heap m := by
    cases sel with
    | insensitive => rfl
    | _ => exact Context.map_lastK _ _ _
  receiver {origin i i'} hi hi' site c := by
    have hname : h.renamed h' stmt i = i' := Heap.renamed_of_find? hi hi'
    -- only contexts of objects name objects, so only these need the names of the second heap
    cases sel with
    | insensitive => rfl
    | callSite k => exact Context.map_extend _ _ _ _
    | object k =>
        simp only [Selector.receiverContext, rename, Context.renamed, Context.map_extend,
          Token.rename, hname]
    | type k => exact Context.map_extend _ _ _ _

/-- Every program is taken to itself if statements stay where they are. -/
theorem Translation.Programs.refl {t : Translation} (ht : t.stmt = id) (p : Program) :
    t.Programs p p where
  stmts hs := by rwa [ht]
  kind s := by rw [ht, id]
  method s := by rw [ht, id]
  owner _ := rfl
  body hb := ⟨_, hb, rfl, rfl⟩
  argument _ := rfl
  resolve _ _ := rfl

/-- If no statement is moved, then origins stay as they are. -/
theorem Translation.origin_of_id {t : Translation} (ht : t.stmt = id) (origin : Origin) :
    t.origin origin = origin := by
  cases origin <;> simp [Translation.origin, ht]

/-- Objects stay as they are if statements do. -/
theorem Translation.object_of_id {t : Translation} (ht : t.stmt = id) (o : Object) :
    t.object o = o := by
  rw [object, origin_of_id ht]

/-- If statements stay where they are, the answers of the second solution include those of the first
one. -/
theorem Translates.answers {a a' : Analysis} {given given' : Fact → Prop} {T : Theory a given}
    {T' : Theory a' given'} {r r' : Solution} {t : Translation}
    (h : Translates t r.state r'.state) (ht : t.stmt = id) (hs : Sound T r.state)
    (hs' : Sound T' r'.state) (hprogram : r'.program = r.program) :
    (∀ v, ∀ i ∈ r.pointsToVar v,
        ∃ i' ∈ r'.pointsToVar v, r'.state.heap.get i' = r.state.heap.get i) ∧
      (∀ f, ∀ i ∈ r.pointsToStaticField f,
        ∃ i' ∈ r'.pointsToStaticField f, r'.state.heap.get i' = r.state.heap.get i) ∧
      (∀ s, r.calleesOf s ⊆ r'.calleesOf s) ∧ r.reachableMethods ⊆ r'.reachableMethods := by
  -- Each answer is a projection of facts, and facts are translated.
  have hsize : r'.program.methods.size = r.program.methods.size := by rw [hprogram]
  have hobject := Translation.object_of_id ht
  refine ⟨fun v i hi => ?_, fun f i hi => ?_, fun s m hm => ?_, fun m hm => ?_⟩
  · rw [← hobject (r.state.heap.get i)]
    exact h.mem_pointsToVar hs hs' hi
  · rw [← hobject (r.state.heap.get i)]
    exact h.mem_pointsToStaticField hs hs' hi
  · have hcallee := h.mem_calleesOf hsize hm
    rwa [ht] at hcallee
  · exact h.mem_reachableMethods hsize hm

end PointsTo
