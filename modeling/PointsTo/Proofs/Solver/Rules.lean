import PointsTo.Proofs.Program.WellFormed
import PointsTo.Solver.Extension

/-! # The rules of the analysis

What the analysis is about, without its tables: facts about reachable methods, calls and the objects
of places, and the rules by which a program makes facts follow from each other. Contexts are those
that the selector computes. A set of facts is a solution of the constraints of a program if it is
closed under the rules; the derivable facts are the least such set.

Objects are given by what they are. Identifiers of abstract objects only matter as tokens of
contexts, so the rules take the numbering of objects as a parameter.
-/

namespace PointsTo

/-! ## Rule systems -/

section System

variable {α : Type}

/-- A set is closed under rules if it holds the conclusion of each rule whose premises it holds. -/
def Closed (R : List α → α → Prop) (F : α → Prop) : Prop :=
  ∀ ps q, R ps q → (∀ x ∈ ps, F x) → F q

/-- What has a finite derivation by rules. -/
inductive Derivable (R : List α → α → Prop) : α → Prop where
  | intro {ps : List α} {q : α} (rule : R ps q) (premises : ∀ x ∈ ps, Derivable R x) : Derivable R q

/-- What can be derived is closed under the rules. -/
theorem Derivable.closed (R : List α → α → Prop) : Closed R (Derivable R) :=
  fun _ _ => Derivable.intro

/-- The derivable facts are in every closed set. -/
theorem Derivable.least {R : List α → α → Prop} {F : α → Prop} (hF : Closed R F) {q : α}
    (h : Derivable R q) : F q := by
  induction h with
  | intro rule premises ih => exact hF _ _ rule ih

/-- More rules derive more. -/
theorem Derivable.mono {R S : List α → α → Prop} (h : ∀ ps q, R ps q → S ps q) {q : α}
    (hq : Derivable R q) : Derivable S q :=
  hq.least fun ps q rule premises => .intro (h ps q rule) premises

end System

/-! ## Facts -/

/-- An abstract object in a heap context. -/
structure HeapObject where
  context : Context
  object : Object
  deriving DecidableEq, Repr

/-- A place that holds objects. Slots belong to objects, not to their identifiers. -/
inductive Place where
  | var (context : Context) (v : VarId)
  | staticField (f : FieldId)
  | instanceField (base : HeapObject) (f : FieldId)
  | arrayIndex (base : HeapObject)
  deriving DecidableEq, Repr

/-- What an analysis can find out. -/
inductive Fact where
  | reach (m : CsMethod)
  | call (kind : CallKind) (site : CsCallSite) (callee : CsMethod)
  | pointsTo (place : Place) (o : HeapObject)
  deriving DecidableEq, Repr

/-- The abstract object of the allocations of a type by a statement. -/
def Program.allocated (p : Program) (s : StmtId) (type : Ty) : Object :=
  ⟨.site s, type, some (p.stmtAt s).method, (p.methodAt (p.stmtAt s).method).owner⟩

/-! ## Rules -/

/-- Under some premises, the objects of the first place are objects of the second one. -/
inductive Inclusion (p : Program) : List Fact → Place → Place → Prop where
  | copy {c : Context} {m : MethodId} {s : StmtId} {x y : VarId} (stmt : s ∈ p.stmtsOf m)
      (kind : (p.stmtAt s).kind = .copy x y) :
      Inclusion p [.reach ⟨c, m⟩] (.var c y) (.var c x)
  | staticStore {c : Context} {m : MethodId} {s : StmtId} {f : FieldId} {y : VarId}
      (stmt : s ∈ p.stmtsOf m) (kind : (p.stmtAt s).kind = .staticStore f y) :
      Inclusion p [.reach ⟨c, m⟩] (.var c y) (.staticField f)
  | staticLoad {c : Context} {m : MethodId} {s : StmtId} {x : VarId} {f : FieldId}
      (stmt : s ∈ p.stmtsOf m) (kind : (p.stmtAt s).kind = .staticLoad x f) :
      Inclusion p [.reach ⟨c, m⟩] (.staticField f) (.var c x)
  | instanceStore {c : Context} {m : MethodId} {s : StmtId} {base y : VarId} {f : FieldId}
      {o : HeapObject} (stmt : s ∈ p.stmtsOf m)
      (kind : (p.stmtAt s).kind = .instanceStore base f y) :
      Inclusion p [.reach ⟨c, m⟩, .pointsTo (.var c base) o] (.var c y) (.instanceField o f)
  | instanceLoad {c : Context} {m : MethodId} {s : StmtId} {x base : VarId} {f : FieldId}
      {o : HeapObject} (stmt : s ∈ p.stmtsOf m)
      (kind : (p.stmtAt s).kind = .instanceLoad x base f) :
      Inclusion p [.reach ⟨c, m⟩, .pointsTo (.var c base) o] (.instanceField o f) (.var c x)
  | arrayStore {c : Context} {m : MethodId} {s : StmtId} {base y : VarId} {o : HeapObject}
      (stmt : s ∈ p.stmtsOf m) (kind : (p.stmtAt s).kind = .arrayStore base y) :
      Inclusion p [.reach ⟨c, m⟩, .pointsTo (.var c base) o] (.var c y) (.arrayIndex o)
  | arrayLoad {c : Context} {m : MethodId} {s : StmtId} {x base : VarId} {o : HeapObject}
      (stmt : s ∈ p.stmtsOf m) (kind : (p.stmtAt s).kind = .arrayLoad x base) :
      Inclusion p [.reach ⟨c, m⟩, .pointsTo (.var c base) o] (.arrayIndex o) (.var c x)
  /-- Arguments go to parameters by position, as far as both lists go. -/
  | argument {k : CallKind} {site : CsCallSite} {callee : CsMethod} {call : Invoke} {b : Body}
      {arg param : VarId} (kind : (p.stmtAt site.stmt).kind = .invoke call)
      (body : (p.methodAt callee.method).body? = some b) (pair : (arg, param) ∈ call.args.zip b.params) :
      Inclusion p [.call k site callee] (.var site.context arg) (.var callee.context param)
  | result {k : CallKind} {site : CsCallSite} {callee : CsMethod} {call : Invoke} {s : StmtId}
      {v x : VarId} (kind : (p.stmtAt site.stmt).kind = .invoke call)
      (stmt : s ∈ p.stmtsOf callee.method) (ret : (p.stmtAt s).kind = .ret (some v))
      (result : call.result? = some x) :
      Inclusion p [.call k site callee] (.var callee.context v) (.var site.context x)

/-- A call on the variable `base` in a body reaches `callee` when its receiver is `o`. -/
structure Dispatches (p : Program) (sel : Selector) (names : Origin → Option ObjectId)
    (caller : CsMethod) (s : StmtId) (call : Invoke) (base : VarId) (o : HeapObject)
    (callee : CsMethod) : Prop where
  stmt : s ∈ p.stmtsOf caller.method
  kind : (p.stmtAt s).kind = .invoke call
  base : call.binding.base? = some base
  target : p.resolveCallee? (some o.object.type) call = some callee.method
  context : ∃ i, names o.object.origin = some i ∧
    callee.context =
      sel.receiverContext ⟨caller.context, s⟩ ⟨o.context, i, o.object.container⟩

/-- The rules of a program under a selector. Some facts are given: that the entry method is reachable,
and what is injected at the start. -/
inductive Rule (p : Program) (sel : Selector) (names : Origin → Option ObjectId)
    (given : Fact → Prop) : List Fact → Fact → Prop where
  | given {q : Fact} (h : given q) : Rule p sel names given [] q
  | new {c : Context} {m : MethodId} {s : StmtId} {x : VarId} {t : Ty} (stmt : s ∈ p.stmtsOf m)
      (kind : (p.stmtAt s).kind = .new x t) :
      Rule p sel names given [.reach ⟨c, m⟩]
        (.pointsTo (.var c x) ⟨sel.heapContext ⟨c, m⟩, p.allocated s t⟩)
  | inclusion {ps : List Fact} {a b : Place} (h : Inclusion p ps a b) (o : HeapObject) :
      Rule p sel names given (.pointsTo a o :: ps) (.pointsTo b o)
  | staticCall {c : Context} {m : MethodId} {s : StmtId} {call : Invoke} {callee : MethodId}
      (stmt : s ∈ p.stmtsOf m) (kind : (p.stmtAt s).kind = .invoke call)
      (binding : call.binding = .static) (target : p.resolveCallee? none call = some callee) :
      Rule p sel names given [.reach ⟨c, m⟩]
        (.call .static ⟨c, s⟩ ⟨sel.calleeContext ⟨c, s⟩, callee⟩)
  | dispatch {caller : CsMethod} {s : StmtId} {call : Invoke} {base : VarId} {o : HeapObject}
      {callee : CsMethod} (h : Dispatches p sel names caller s call base o callee) :
      Rule p sel names given [.reach caller, .pointsTo (.var caller.context base) o]
        (.call call.binding.kind ⟨caller.context, s⟩ callee)
  | receiver {caller : CsMethod} {s : StmtId} {call : Invoke} {base : VarId} {o : HeapObject}
      {callee : CsMethod} {b : Body} {this : VarId}
      (h : Dispatches p sel names caller s call base o callee)
      (body : (p.methodAt callee.method).body? = some b) (hthis : b.this? = some this) :
      Rule p sel names given [.reach caller, .pointsTo (.var caller.context base) o]
        (.pointsTo (.var callee.context this) o)
  | callee {k : CallKind} {site : CsCallSite} {m : CsMethod} :
      Rule p sel names given [.call k site m] (.reach m)

/-- A rule only needs the names of the objects in its premises. -/
theorem Rule.rename {p : Program} {sel : Selector} {names names' : Origin → Option ObjectId}
    {given : Fact → Prop} {ps : List Fact} {q : Fact} (rule : Rule p sel names given ps q)
    (h : ∀ x o i, .pointsTo x o ∈ ps → names o.object.origin = some i →
      names' o.object.origin = some i) : Rule p sel names' given ps q := by
  -- a dispatch names the object of its receiver, which is among the premises
  have hd : ∀ {caller s call base o callee},
      .pointsTo (.var caller.context base) o ∈ ps →
        Dispatches p sel names caller s call base o callee →
          Dispatches p sel names' caller s call base o callee := by
    intro caller s call base o callee ho d
    obtain ⟨i, hi, hc⟩ := d.context
    exact ⟨d.stmt, d.kind, d.base, d.target, i, h _ _ _ ho hi, hc⟩
  cases rule with
  | given h => exact .given h
  | new stmt kind => exact .new stmt kind
  | inclusion hxy o => exact .inclusion hxy o
  | staticCall stmt kind binding target => exact .staticCall stmt kind binding target
  | dispatch d => exact .dispatch (hd (by simp) d)
  | receiver d body hthis => exact .receiver (hd (by simp) d) body hthis
  | callee => exact .callee

/-- More names make more rules. -/
theorem Rule.mono {p : Program} {sel : Selector} {names names' : Origin → Option ObjectId}
    {given : Fact → Prop} (h : ∀ o i, names o = some i → names' o = some i) {ps : List Fact}
    {q : Fact} (rule : Rule p sel names given ps q) : Rule p sel names' given ps q :=
  rule.rename fun _ _ _ _ => h _ _

/-- A set that is closed under the rules of a program and holds some facts is closed under the rules by
which these facts are given. -/
theorem Closed.given {p : Program} {sel : Selector} {names : Origin → Option ObjectId}
    {F given : Fact → Prop} (h : Closed (Rule p sel names fun _ => False) F)
    (hgiven : ∀ q, given q → F q) : Closed (Rule p sel names given) F := by
  intro ps q rule hps
  cases rule with
  -- the rules that give facts use the hypothesis, all others are among those of the closed set
  | given hq => exact hgiven q hq
  | new stmt kind => exact h _ _ (.new stmt kind) hps
  | inclusion hxy o => exact h _ _ (.inclusion hxy o) hps
  | staticCall stmt kind binding target => exact h _ _ (.staticCall stmt kind binding target) hps
  | dispatch d => exact h _ _ (.dispatch d) hps
  | receiver d body hthis => exact h _ _ (.receiver d body hthis) hps
  | callee => exact h _ _ .callee hps

/-! ## Given facts -/

/-- The first parameter of an entry method, with its type and the type of its elements, if it is an
array of objects. -/
def Program.mainArgument? (p : Program) (entry : MethodId) : Option (VarId × Ty × Ty) := do
  let param ← (p.methodAt entry).body?.bind (·.params.head?)
  let element ← (p.varAt param).type.element?.filter (·.className?.isSome)
  return (param, (p.varAt param).type, element)

/-- The mock array of arguments of an entry method. -/
def Program.mockArray (p : Program) (entry : MethodId) (type : Ty) : HeapObject :=
  ⟨[], ⟨.mock "<main-args>", type, none, (p.methodAt entry).owner⟩⟩

/-- The element of the mock array of arguments. -/
def Program.mockElement (p : Program) (entry : MethodId) (type : Ty) : HeapObject :=
  ⟨[], ⟨.mock "<main-arg>", type, none, (p.methodAt entry).owner⟩⟩

/-- The facts that a run starts from: the entry method is reachable in the empty context and, if its
arguments are mocked, its first parameter is an array with an element. -/
inductive Given (p : Program) (entry : MethodId) (mocked : Bool) : Fact → Prop where
  | entry : Given p entry mocked (.reach ⟨[], entry⟩)
  | array {param : VarId} {type element : Ty} (h : mocked = true)
      (arg : p.mainArgument? entry = some (param, type, element)) :
      Given p entry mocked (.pointsTo (.var [] param) (p.mockArray entry type))
  | element {param : VarId} {type element : Ty} (h : mocked = true)
      (arg : p.mainArgument? entry = some (param, type, element)) :
      Given p entry mocked
        (.pointsTo (.arrayIndex (p.mockArray entry type)) (p.mockElement entry element))

/-- The argument that is mocked is a parameter of the body. -/
theorem Program.mainArgument?_eq_some {p : Program} {entry : MethodId} {param : VarId}
    {type element : Ty} (h : p.mainArgument? entry = some (param, type, element)) :
    ∃ b, (p.methodAt entry).body? = some b ∧ param ∈ b.params := by
  simp only [mainArgument?, Option.bind_eq_bind, Option.bind_eq_some_iff, Option.pure_def,
    Option.some.injEq, Prod.mk.injEq] at h
  obtain ⟨v, ⟨b, hb, hv⟩, -, -, rfl, -, -⟩ := h
  exact ⟨b, hb, List.mem_of_mem_head? hv⟩

/-! ## Facts and the methods they belong to -/

section Owners

variable {p : Program} {sel : Selector} {names : Origin → Option ObjectId} {entry : MethodId}
  {mocked : Bool}

/-- A call that can be derived is made by a statement of a method that can be reached. -/
theorem Derivable.caller {k : CallKind} {site : CsCallSite} {callee : CsMethod}
    (h : Derivable (Rule p sel names (Given p entry mocked)) (.call k site callee)) :
    ∃ m call, site.stmt ∈ p.stmtsOf m ∧ (p.stmtAt site.stmt).kind = .invoke call ∧
      k = call.binding.kind ∧
      Derivable (Rule p sel names (Given p entry mocked)) (.reach ⟨site.context, m⟩) := by
  cases h with
  | intro rule premises =>
      cases rule with
      | given h => cases h
      | staticCall stmt kind binding target =>
          exact ⟨_, _, stmt, kind, by rw [binding]; rfl, premises _ (by simp)⟩
      | dispatch d => exact ⟨_, _, d.stmt, d.kind, rfl, premises _ (by simp)⟩

/-- A variable has objects only in contexts in which its method can be reached. -/
theorem Derivable.owner (wf : p.WellFormed) {c : Context} {v : VarId} {o : HeapObject}
    (h : Derivable (Rule p sel names (Given p entry mocked)) (.pointsTo (.var c v) o)) :
    Derivable (Rule p sel names (Given p entry mocked)) (.reach ⟨c, (p.varAt v).method⟩) := by
  cases h with
  | intro rule premises =>
      -- the last rule names the statement or the body that the variable belongs to
      have hstmt : ∀ {m s}, s ∈ p.stmtsOf m → v ∈ (p.stmtAt s).kind.operands →
          Derivable (Rule p sel names (Given p entry mocked)) (.reach ⟨c, m⟩) →
          Derivable (Rule p sel names (Given p entry mocked)) (.reach ⟨c, (p.varAt v).method⟩) := by
        intro m s hs hv hm
        rwa [(wf.owns_operand hs hv).2]
      cases rule with
      | given h =>
          cases h with
          | array hmock arg =>
              obtain ⟨b, hb, hparam⟩ := Program.mainArgument?_eq_some arg
              rw [((wf.body _ b hb).param v hparam).2]
              exact .intro (.given .entry) (by simp)
      | new stmt kind =>
          exact hstmt stmt (by simp [kind, StmtKind.operands]) (premises _ (by simp))
      -- the first place of an inclusion is looked at by the statement that assigns the second one
      | inclusion h =>
          cases h with
          | copy stmt kind =>
              exact hstmt stmt (by simp [kind, StmtKind.operands]) (premises _ (by simp))
          | staticLoad stmt kind =>
              exact hstmt stmt (by simp [kind, StmtKind.operands]) (premises _ (by simp))
          | instanceLoad stmt kind =>
              exact hstmt stmt (by simp [kind, StmtKind.operands]) (premises _ (by simp))
          | arrayLoad stmt kind =>
              exact hstmt stmt (by simp [kind, StmtKind.operands]) (premises _ (by simp))
          | @argument k site callee call b arg param kind body pair =>
              have hcall := premises (.call k site callee) (by simp)
              rw [((wf.body _ b body).param v (List.of_mem_zip pair).2).2]
              exact .intro .callee (by simpa using hcall)
          | @result k site callee call s w x kind stmt ret result =>
              obtain ⟨m, call', hm, hkind, -, hreach⟩ :=
                (premises (.call k site callee) (by simp)).caller
              rw [kind] at hkind
              cases hkind
              exact hstmt hm (by simp [kind, StmtKind.operands, result]) hreach
      | @receiver caller s call base o callee b this d body hthis =>
          have hcall : Derivable (Rule p sel names (Given p entry mocked)) (.call _ _ callee) :=
            .intro (.dispatch d) premises
          rw [((wf.body _ b body).this v hthis).2]
          exact .intro .callee (by simpa using hcall)

end Owners

end PointsTo
