import PointsTo.Proofs.Program.Subtyping
import PointsTo.Proofs.Result.Derivation

/-! # Calls within the class hierarchy

Calls are resolved in two ways. The analysis looks a callee up from the class of each object that arrives at
the receiver; the class hierarchy gives the callees of all classes below the one that the call names. The
first way stays within the second as long as receivers are objects of such classes. A statically bound call
has no choice in either way.
-/

namespace PointsTo

namespace Program

variable {p : Program} {call : Invoke} {t : Ty} {m : MethodId}

/-- Objects of the type may be receivers of the call: instances of a class below the one that the call
names, or arrays, if the call names the root. -/
inductive Expects (p : Program) (call : Invoke) : Ty → Prop where
  | object {c d : ClassId} {name : String} (target : p.findClass? call.target.className = some c)
      (found : p.findClass? name = some d) (below : p.isSubtype d c = true)
      (own : p.isInstantiable d = true) : Expects p call (.ofClass name)
  | array {n : Nat} {e : Element} (target : call.target.className = rootClassName) :
      Expects p call (.array n e)

/-! ## Statically bound calls -/

section Bound

variable (hbound : call.binding.kind.isStaticallyBound = true)

include hbound

/-- A statically bound call is a static or a special one. -/
theorem binding_of_bound : call.binding = .static ∨ ∃ base, call.binding = .special base := by
  cases hbinding : call.binding with
  | static => exact Or.inl rfl
  | special base => exact Or.inr ⟨base, rfl⟩
  | _ =>
      rw [hbinding] at hbound
      cases hbound

/-- A statically bound call does not look at its receiver. -/
theorem resolveCallee?_of_bound (receiver : Option Ty) :
    p.resolveCallee? receiver call = p.resolveCallee? none call := by
  rcases binding_of_bound hbound with hbinding | ⟨base, hbinding⟩
  · simp only [resolveCallee?, hbinding]
  · simp only [resolveCallee?, hbinding]

/-- The hierarchy has no more callees for a statically bound call than the one that it names. -/
theorem mem_resolveAll_of_bound : m ∈ p.resolveAll call ↔ p.resolveCallee? none call = some m := by
  have hall : p.resolveAll call = (p.resolveCallee? none call).toList := by
    rcases binding_of_bound hbound with hbinding | ⟨base, hbinding⟩
    · simp only [resolveAll, hbinding]
    · simp only [resolveAll, hbinding]
  rw [hall, Option.mem_toList]

end Bound

/-! ## Dispatched calls -/

section Dispatched

variable (hbound : call.binding.kind.isStaticallyBound = false)

include hbound

/-- Any other call is dispatched on a variable. -/
theorem binding_of_dispatched :
    ∃ base, call.binding = .virtual base ∨ call.binding = .interface base := by
  cases hbinding : call.binding with
  | virtual base => exact ⟨base, Or.inl rfl⟩
  | interface base => exact ⟨base, Or.inr rfl⟩
  | _ =>
      rw [hbinding] at hbound
      cases hbound

/-- A dispatched call has a receiver. -/
theorem base?_of_dispatched : ∃ base, call.binding.base? = some base := by
  obtain ⟨base, hbinding | hbinding⟩ := binding_of_dispatched hbound
  · exact ⟨base, by rw [hbinding]; rfl⟩
  · exact ⟨base, by rw [hbinding]; rfl⟩

/-- A dispatched call is resolved at the class whose methods the receiver has. -/
theorem resolveCallee?_of_dispatched (t : Ty) : p.resolveCallee? (some t) call =
    (p.dispatchClass? t).bind (p.dispatch? · call.target.subsignature) := by
  obtain ⟨base, hbinding | hbinding⟩ := binding_of_dispatched hbound
  · simp only [resolveCallee?, hbinding]
    rfl
  · simp only [resolveCallee?, hbinding]
    rfl

/-- For a dispatched call the hierarchy has the callees of all classes below the one that the call names and
that have instances of their own. -/
theorem mem_resolveAll_of_dispatched (wf : p.WellFormed) (h : p.Rooted) : m ∈ p.resolveAll call ↔
    ∃ c d, p.findClass? call.target.className = some c ∧ p.isSubtype d c = true ∧
      p.isInstantiable d = true ∧ p.dispatch? d call.target.subsignature = some m := by
  have hall : p.resolveAll call = (p.findClass? call.target.className).elim [] fun c =>
      p.methodSet <| ((p.allSubtypes c).filter p.isInstantiable).filterMap fun d =>
        p.dispatch? d call.target.subsignature := by
    obtain ⟨base, hbinding | hbinding⟩ := binding_of_dispatched hbound
    · simp only [resolveAll, hbinding]
      cases p.findClass? call.target.className <;> rfl
    · simp only [resolveAll, hbinding]
      cases p.findClass? call.target.className <;> rfl
  rw [hall]
  cases hc : p.findClass? call.target.className with
  | none => simp
  | some c =>
      have hclass : c ∈ p.classIds := mem_classIds.2 ((h.find _ _).1 hc).1
      simp only [Option.elim_some, mem_methodSet, List.mem_filterMap, List.mem_filter,
        mem_allSubtypes_iff h.link hclass, isSubtype_iff h.link, Option.some.injEq, and_assoc]
      constructor
      · rintro ⟨-, d, hbelow, hown, hm⟩
        exact ⟨c, d, rfl, hbelow, hown, hm⟩
      · rintro ⟨_, d, rfl, hbelow, hown, hm⟩
        exact ⟨wf.lookup_lt hm, d, hbelow, hown, hm⟩

/-- What the hierarchy has, some object of a class below has. -/
theorem exists_resolveCallee?_of_mem_resolveAll (wf : p.WellFormed) (h : p.Rooted)
    (hm : m ∈ p.resolveAll call) : ∃ c d, p.findClass? call.target.className = some c ∧
      p.isSubtype d c = true ∧ p.isInstantiable d = true ∧
      p.resolveCallee? (some (.ofClass (p.classAt d).name)) call = some m := by
  obtain ⟨c, d, hc, hbelow, hown, hm⟩ := (mem_resolveAll_of_dispatched hbound wf h).1 hm
  have hlt : d.idx < p.classes.size := by
    rcases ((isSubtype_iff h.link).1 hbelow).cases_head with rfl | ⟨e, he, -⟩
    · exact ((h.find _ _).1 hc).1
    · obtain ⟨l, hl, rfl, -⟩ := mem_parents.1 he
      exact (h.link l hl).1
  have hfind : p.dispatchClass? (.ofClass (p.classAt d).name) = some d := (h.find _ _).2 ⟨hlt, rfl⟩
  refine ⟨c, d, hc, hbelow, hown, ?_⟩
  rw [resolveCallee?_of_dispatched hbound, hfind]
  exact hm

/-- The callee that a receiver has is one of the hierarchy, if the call expects objects of its type. -/
theorem Expects.mem_resolveAll (wf : p.WellFormed) (h : p.Rooted)
    (hroot : ∀ root, p.findClass? rootClassName = some root → p.isInstantiable root = true)
    (ht : p.Expects call t) (hm : p.resolveCallee? (some t) call = some m) : m ∈ p.resolveAll call := by
  rw [resolveCallee?_of_dispatched hbound] at hm
  obtain ⟨d, hd, hdispatch⟩ := Option.bind_eq_some_iff.1 hm
  rw [mem_resolveAll_of_dispatched hbound wf h]
  cases ht with
  | @object c d' name target found below own =>
      obtain rfl : d' = d := Option.some.inj (found.symm.trans hd)
      exact ⟨c, d', target, below, own, hdispatch⟩
  | array target =>
      -- arrays have the methods of the root, which is below itself
      exact ⟨d, d, by rw [target]; exact hd, (isSubtype_iff h.link).2 .refl, hroot d hd, hdispatch⟩

end Dispatched

end Program

/-! ## Calls of a result -/

namespace Solution.Answers

variable {a : Analysis} {r : Solution} {entry m : MethodId} {s : StmtId} {call : Invoke}
  (h : r.Answers a entry) (hkind : (a.program.stmtAt s).kind = .invoke call)

include h hkind

/-- The callees of a statically bound call are those of the hierarchy. -/
theorem mem_resolveAll_of_bound (hbound : call.binding.kind.isStaticallyBound = true)
    (hm : m ∈ r.calleesOf s) : m ∈ a.program.resolveAll call := by
  obtain ⟨k, c, c', hcall⟩ := h.mem_calleesOf_iff.1 hm
  rw [Program.mem_resolveAll_of_bound hbound]
  rcases h.callee_resolves hkind hcall with ⟨-, hresolves⟩ | ⟨base, y, -, -, hresolves⟩
  · exact hresolves
  · rwa [Program.resolveCallee?_of_bound hbound] at hresolves

/-- The callees of a dispatched call are those that its receivers have. -/
theorem exists_receiver_of_mem_calleesOf {base : VarId} (hbase : call.binding.base? = some base)
    (hm : m ∈ r.calleesOf s) : ∃ c y, r.Holds (.pointsTo (.var c base) y) ∧
      a.program.resolveCallee? (some y.object.type) call = some m := by
  obtain ⟨k, c, c', hcall⟩ := h.mem_calleesOf_iff.1 hm
  rcases h.callee_resolves hkind hcall with ⟨hstatic, -⟩ | ⟨base', y, hbase', hy, hresolves⟩
  · rw [hstatic] at hbase
    cases hbase
  · obtain rfl : base' = base := Option.some.inj (hbase'.symm.trans hbase)
    exact ⟨c, y, hy, hresolves⟩

end Solution.Answers

/-! ## The main result -/

/-- An interface with a default method, a class that inherits it, and a subclass that overrides it. The call
of the entry method has receivers of both classes. -/
def ProgramDef.overriding : ProgramDef :=
  ⟨none, [
    ⟨"I", none, [], true, false, [], [⟨"run", [], "V", false, false, false, [], []⟩]⟩,
    ⟨"A", none, ["I"], false, false, [], []⟩,
    ⟨"B", some "A", [], false, false, [], [⟨"run", [], "V", false, false, false, [], []⟩]⟩,
    ⟨"Main", none, [], false, false, [], [
      ⟨"main", [⟨"args", "[LA;"⟩], "V", true, false, false, [⟨"x", "LI;"⟩], [
        .new "x" "LA;",
        .new "x" "LB;",
        .invoke .interface (some "x") "LI;->run()V" [] none]⟩]⟩]⟩

def Invoke.overriding : Invoke := ⟨.interface ⟨3⟩, ⟨"I", ⟨"run", [], .void⟩⟩, [], none⟩

/-- The calls of a result stay within the class hierarchy, if the root has instances of its own. The callees
of a statically bound call are among those that the hierarchy has for it. So is the callee of each receiver of
a dispatched call that is an instance of a class below the one that the call names, or an array if the call
names the root; and so are all callees, if all receivers are of this form. Conversely, whatever the hierarchy
has for a dispatched call is the callee of instances of such a class. -/
theorem Solution.calls_within_hierarchy {d : ProgramDef} {p : Program} {o : Options} {sel : Selector}
    {r : Solution} (hp : (Program.build d).1 = .ok p)
    (hr : (Analysis.solveWith ⟨p, o, sel, .allocationSite⟩ []).result = .ok r)
    (hroot : ∀ root, p.findClass? rootClassName = some root → p.isInstantiable root = true) {s : StmtId}
    {call : Invoke} (hkind : (p.stmtAt s).kind = .invoke call) :
    (call.binding.kind.isStaticallyBound = true → ∀ m ∈ r.calleesOf s, m ∈ p.resolveAll call) ∧
    (call.binding.kind.isStaticallyBound = false → ∃ base, call.binding.base? = some base ∧
      (∀ c y m, r.Holds (.pointsTo (.var c base) y) → p.Expects call y.object.type →
        p.resolveCallee? (some y.object.type) call = some m → m ∈ p.resolveAll call) ∧
      ((∀ c y, r.Holds (.pointsTo (.var c base) y) → p.Expects call y.object.type) →
        ∀ m ∈ r.calleesOf s, m ∈ p.resolveAll call) ∧
      ∀ m ∈ p.resolveAll call, ∃ c d, p.findClass? call.target.className = some c ∧
        p.isSubtype d c = true ∧ p.isInstantiable d = true ∧
        p.resolveCallee? (some (.ofClass (p.classAt d).name)) call = some m) := by
  have wf := Program.build_wellFormed hp
  have hrooted := (Program.build_underway hp).rooted
  obtain ⟨entry, -, hanswers⟩ := Analysis.answers_of_solveWith wf rfl hr
  refine ⟨fun hbound m => hanswers.mem_resolveAll_of_bound hkind hbound, fun hbound => ?_⟩
  obtain ⟨base, hbase⟩ := Program.base?_of_dispatched hbound
  refine ⟨base, hbase, fun c y m _ hexpects hm => hexpects.mem_resolveAll hbound wf hrooted hroot hm,
    fun hall m hm => ?_, fun m => Program.exists_resolveCallee?_of_mem_resolveAll hbound wf hrooted⟩
  obtain ⟨c, y, hy, hresolves⟩ := hanswers.exists_receiver_of_mem_calleesOf hkind hbase hm
  exact (hall c y hy).mem_resolveAll hbound wf hrooted hroot hresolves

/-- The call of an interface in the program has two callees, both from below the interface. -/
theorem Solution.calls_within_hierarchy_overriding : ∃ p r, (Program.build .overriding).1 = .ok p ∧
    (Analysis.solveWith ⟨p, ⟨.insensitive, none, false⟩, .object 1, .allocationSite⟩ []).result =
      .ok r ∧
    r.calleesOf ⟨2⟩ = [⟨0⟩, ⟨1⟩] ∧ (∀ m ∈ r.calleesOf ⟨2⟩, m ∈ p.resolveAll .overriding) ∧
    ∀ m ∈ p.resolveAll .overriding, ∃ c d, p.findClass? "I" = some c ∧ p.isSubtype d c = true ∧
      p.isInstantiable d = true ∧
      p.resolveCallee? (some (.ofClass (p.classAt d).name)) .overriding = some m := by
  -- One evaluation of the program, from which everything else follows.
  have hrun : ∃ p, (Program.build .overriding).1 = .ok p ∧ ∃ r,
      (Analysis.solveWith ⟨p, ⟨.insensitive, none, false⟩, .object 1, .allocationSite⟩ []).result =
        .ok r ∧
      (r.calleesOf ⟨2⟩ = [⟨0⟩, ⟨1⟩] ∧
        ∀ o ∈ r.state.heap.objects.toList, o.type = .ofClass "A" ∨ o.type = .ofClass "B") ∧
      (p.stmtAt ⟨2⟩).kind = .invoke .overriding ∧
      (∀ root ∈ p.findClass? rootClassName, p.isInstantiable root = true) ∧
      p.findClass? "I" = some ⟨0⟩ ∧
      (p.findClass? "A" = some ⟨1⟩ ∧ p.isSubtype ⟨1⟩ ⟨0⟩ = true ∧ p.isInstantiable ⟨1⟩ = true) ∧
      p.findClass? "B" = some ⟨2⟩ ∧ p.isSubtype ⟨2⟩ ⟨0⟩ = true ∧ p.isInstantiable ⟨2⟩ = true := by
    decide +kernel
  obtain ⟨p, hp, r, hr, ⟨hcallees, hobjects⟩, hkind, hroot, hI, ⟨hA, hbelowA, hownA⟩, hB, hbelowB, hownB⟩ :=
    hrun
  obtain ⟨-, hdispatched⟩ := Solution.calls_within_hierarchy hp hr hroot hkind
  obtain ⟨base, -, -, hwithin, hconverse⟩ := hdispatched rfl
  obtain ⟨entry, -, hanswers⟩ := Analysis.answers_of_solveWith (Program.build_wellFormed hp) rfl hr
  refine ⟨p, r, hp, hr, hcallees, hwithin fun c y hy => ?_, hconverse⟩
  rcases hobjects _ (Array.mem_toList_iff.2 (hanswers.object_mem hy)) with htype | htype
  · rw [htype]
    exact .object hI hA hbelowA hownA
  · rw [htype]
    exact .object hI hB hbelowB hownB

end PointsTo
