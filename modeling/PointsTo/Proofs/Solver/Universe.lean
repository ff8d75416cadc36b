import PointsTo.Proofs.Context.Truncation
import PointsTo.Proofs.Solver.Start
import Mathlib.Algebra.Order.Ring.Nat
import Mathlib.Data.List.Nodup
import Mathlib.Data.List.ProdSigma
import Mathlib.Data.List.Perm.Subperm
import Mathlib.Tactic.Ring

/-! # The universe of a run

Whatever a run meets belongs to a finite universe, which depends on the program and on the number of
tokens that the selector keeps. Contexts are made of finitely many tokens, and have a bounded length;
the tables of the solver number elements of the universe, each at most once.
-/

namespace PointsTo

/-! ## Contexts in range -/

/-- The token names a statement, an object or a class of a program. -/
def Token.InRange (p : Program) : Token → Prop
  | .callSite s => s.idx < p.stmts.size
  | .object o => o.idx < p.stmts.size + 2
  | .type c => c.idx < p.classes.size

/-- The context has at most `k` tokens, all in range. -/
def Context.InRange (p : Program) (k : Nat) (c : Context) : Prop :=
  c.length ≤ k ∧ ∀ t ∈ c, t.InRange p

section Contexts

variable {p : Program} {k : Nat} {c : Context}

theorem Context.InRange.nil : Context.InRange p k [] := ⟨Nat.zero_le k, by simp⟩

theorem Context.InRange.lastK (h : c.InRange p k) (j : Nat) : (c.lastK j).InRange p k := by
  refine ⟨?_, fun t ht => h.2 t (mem_of_mem_lastK ht)⟩
  rw [Context.lastK, List.length_drop]
  exact Nat.le_trans (Nat.sub_le _ _) h.1

/-- Extending a context by a token in range keeps it in range. -/
theorem Context.InRange.extend (h : c.InRange p k) {t : Token} (ht : t.InRange p) :
    (c.extend t k).InRange p k := by
  refine ⟨length_extend_le c t k, fun t' ht' => ?_⟩
  rcases mem_or_eq_of_mem_extend ht' with ht' | rfl
  · exact h.2 t' ht'
  · exact ht

/-- All tokens in range. -/
def Program.tokens (p : Program) : List Token :=
  (List.range p.stmts.size).map (fun i => .callSite ⟨i⟩) ++
    (List.range (p.stmts.size + 2)).map (fun i => .object ⟨i⟩) ++
    (List.range p.classes.size).map (fun i => .type ⟨i⟩)

/-- The list has every token in range. -/
theorem Program.mem_tokens {t : Token} (h : t.InRange p) : t ∈ p.tokens := by
  simp only [tokens, List.mem_append, List.mem_map, List.mem_range]
  cases t with
  | callSite s => exact Or.inl (Or.inl ⟨s.idx, h, rfl⟩)
  | object o => exact Or.inl (Or.inr ⟨o.idx, h, rfl⟩)
  | type c => exact Or.inr ⟨c.idx, h, rfl⟩

/-- There are twice as many tokens as statements, as many as classes, and two for mock objects. -/
theorem Program.length_tokens (p : Program) :
    p.tokens.length = 2 * p.stmts.size + p.classes.size + 2 := by
  simp only [tokens, List.length_append, List.length_map, List.length_range]
  omega

/-- All contexts of at most `k` tokens in range. -/
def Program.contexts (p : Program) : Nat → List Context
  | 0 => [[]]
  | k + 1 => [] :: p.tokens.flatMap fun t => (p.contexts k).map (t :: ·)

/-- The list has every context in range. -/
theorem Program.mem_contexts (h : c.InRange p k) : c ∈ p.contexts k := by
  induction k generalizing c with
  | zero =>
      have hnil : c = [] := List.eq_nil_of_length_eq_zero (Nat.le_zero.1 h.1)
      simp [contexts, hnil]
  | succ k ih =>
      cases c with
      | nil => exact List.mem_cons_self ..
      | cons t c =>
          have ht := h.2 t (List.mem_cons_self ..)
          have hc : Context.InRange p k c :=
            ⟨Nat.le_of_succ_le_succ h.1, fun t' ht' => h.2 t' (List.mem_cons_of_mem t ht')⟩
          refine List.mem_cons_of_mem _ (List.mem_flatMap.2 ⟨t, mem_tokens ht, ?_⟩)
          exact List.mem_map.2 ⟨c, ih hc, rfl⟩

/-- A bound of the number of contexts. -/
def Program.contextBound (p : Program) (k : Nat) : Nat :=
  (2 * p.stmts.size + p.classes.size + 3) ^ k

/-- There is at least the empty context. -/
theorem Program.one_le_contextBound (p : Program) (k : Nat) : 1 ≤ p.contextBound k :=
  Nat.one_le_pow _ _ (by omega)

/-- The bound is one of the number of contexts in range. -/
theorem Program.length_contexts_le (p : Program) (k : Nat) :
    (p.contexts k).length ≤ p.contextBound k := by
  induction k with
  | zero => exact p.one_le_contextBound 0
  | succ k ih =>
      have hlength : (p.contexts (k + 1)).length =
          1 + p.tokens.length * (p.contexts k).length := by
        simp [contexts, List.length_flatMap, Nat.add_comm]
      rw [hlength, length_tokens]
      calc 1 + (2 * p.stmts.size + p.classes.size + 2) * (p.contexts k).length
          ≤ p.contextBound k +
              (2 * p.stmts.size + p.classes.size + 2) * p.contextBound k :=
            Nat.add_le_add (p.one_le_contextBound k) (Nat.mul_le_mul_left _ ih)
        _ = p.contextBound (k + 1) := by
            rw [contextBound, contextBound, pow_succ]
            ring

end Contexts

/-! ## Facts in range -/

section Facts

variable {p : Program} {sel : Selector} {names : Origin → Option ObjectId} {entry : MethodId}
  {mocked : Bool}

/-- What a lookup finds is a method of the program. -/
theorem Program.WellFormed.lookup_lt (wf : p.WellFormed) {accept : Method → Bool} {c : ClassId}
    {s : Subsignature} {m : MethodId} (h : p.lookup? accept c s = some m) :
    m.idx < p.methods.size := by
  have hfind : ∀ cs : List ClassId,
      (cs.findSome? fun d => (p.declared? d s).filter fun m => accept (p.methodAt m)) = some m →
        m.idx < p.methods.size := by
    intro cs hcs
    obtain ⟨d, -, hd⟩ := List.exists_of_findSome?_eq_some hcs
    exact wf.declared_lt (Option.mem_filter_iff.1 hd).1
  rw [lookup?, Option.orElse_eq_orElse, Option.orElse_eq_or, Option.or_eq_some_iff] at h
  rcases h with h | ⟨-, h⟩
  · exact hfind _ h
  · exact hfind _ h

/-- A call reaches a method of the program. -/
theorem Program.WellFormed.resolveCallee_lt (wf : p.WellFormed) {receiver : Option Ty}
    {call : Invoke} {m : MethodId} (h : p.resolveCallee? receiver call = some m) :
    m.idx < p.methods.size := by
  -- virtual and interface calls are dispatched in the same way, from the class of the receiver
  have hdispatch : ∀ {t : Option Ty}, (do
      let t ← t
      let c ← p.dispatchClass? t
      p.dispatch? c call.target.subsignature) = some m → m.idx < p.methods.size := by
    intro t ht
    simp only [Option.bind_eq_bind, Option.bind_eq_some_iff] at ht
    obtain ⟨t', -, c, -, hc⟩ := ht
    exact wf.lookup_lt hc
  unfold resolveCallee? at h
  split at h
  · have hresolve := (Option.mem_filter_iff.1 h).1
    simp only [resolveMethod?, Option.bind_eq_bind, Option.mem_def, Option.bind_eq_some_iff] at hresolve
    obtain ⟨c, -, hc⟩ := hresolve
    exact wf.lookup_lt hc
  · simp only [specialTarget?, Option.bind_eq_bind, Option.bind_eq_some_iff] at h
    obtain ⟨c, -, hc⟩ := h
    exact wf.lookup_lt hc
  · exact hdispatch h
  · exact hdispatch h

/-- The method that a run starts from is one of the program. -/
theorem Analysis.entryMethod_lt {a : Analysis} (wf : a.program.WellFormed) {entry : MethodId}
    (h : a.entryMethod = .ok entry) : entry.idx < a.program.methods.size := by
  unfold entryMethod at h
  -- The method is found by its reference or it is the entry of the program.
  split at h
  · split at h
    · cases h
    · split at h
      · rename_i hfind
        cases h
        simp only [Program.findMethod?, Option.bind_eq_bind, Option.bind_eq_some_iff] at hfind
        obtain ⟨c, -, hc⟩ := hfind
        exact wf.declared_lt hc
      · cases h
  · split at h
    · rename_i hentry
      cases h
      exact wf.entry _ hentry
    · cases h

/-- The contexts and the containers of a fact are in range. -/
def Fact.InRange (p : Program) (k : Nat) : Fact → Prop
  | .reach m => m.context.InRange p k ∧ m.method.idx < p.methods.size
  | .call _ _ m => m.context.InRange p k ∧ m.method.idx < p.methods.size
  | .pointsTo _ o => o.context.InRange p k ∧ o.object.container.idx < p.classes.size

/-- Heap contexts are in range. -/
theorem Selector.heapContext_inRange {m : CsMethod} (h : m.context.InRange p sel.bound) :
    (sel.heapContext m).InRange p sel.bound := by
  cases sel with
  | insensitive => exact .nil
  | callSite k => exact h.lastK _
  | object k => exact h.lastK _
  | type k => exact h.lastK _

/-- Contexts of static calls are in range. -/
theorem Selector.calleeContext_inRange {site : CsCallSite}
    (h : site.context.InRange p sel.bound) (hs : site.stmt.idx < p.stmts.size) :
    (sel.calleeContext site).InRange p sel.bound := by
  cases sel with
  | insensitive => exact .nil
  | callSite k => exact h.extend hs
  | object k => exact h
  | type k => exact h

/-- Contexts selected for receivers are in range. -/
theorem Selector.receiverContext_inRange {site : CsCallSite} {o : CsObject}
    (h : site.context.InRange p sel.bound) (hs : site.stmt.idx < p.stmts.size)
    (ho : o.context.InRange p sel.bound) (hi : o.object.idx < p.stmts.size + 2)
    (hc : o.container.idx < p.classes.size) :
    (sel.receiverContext site o).InRange p sel.bound := by
  cases sel with
  | insensitive => exact .nil
  | callSite k => exact h.extend hs
  | object k => exact ho.extend hi
  | type k => exact ho.extend hc

/-- The rules do not lead out of the range. -/
theorem Fact.closed_inRange (wf : p.WellFormed) (hentry : entry.idx < p.methods.size)
    (hnames : ∀ origin i, names origin = some i → i.idx < p.stmts.size + 2) :
    Closed (Rule p sel names (Given p entry mocked)) (Fact.InRange p sel.bound) := by
  intro ps q rule hps
  -- only the rules that make a context or name a method have something to prove; the others copy what
  -- is in range
  cases rule with
  | given hq =>
      cases hq with
      | entry => exact ⟨.nil, hentry⟩
      | array => exact ⟨.nil, wf.owner entry hentry⟩
      | element => exact ⟨.nil, wf.owner entry hentry⟩
  | @new c m s x t stmt kind =>
      obtain ⟨hc, hm⟩ := hps (.reach ⟨c, m⟩) (by simp)
      refine ⟨Selector.heapContext_inRange hc, ?_⟩
      rw [Program.allocated, (wf.mem_stmtsOf_iff.1 stmt).2]
      exact wf.owner m hm
  | @inclusion ps x y hxy o => exact hps (.pointsTo x o) (by simp)
  | @staticCall c m s call callee stmt kind binding target =>
      obtain ⟨hc, -⟩ := hps (.reach ⟨c, m⟩) (by simp)
      exact ⟨Selector.calleeContext_inRange hc (wf.mem_stmtsOf_iff.1 stmt).1,
        wf.resolveCallee_lt target⟩
  | @dispatch caller s call base o callee hd =>
      -- the context is made of those of the caller and of the receiver, and of one more token
      obtain ⟨hc, -⟩ := hps (.reach caller) (by simp)
      obtain ⟨ho, hcontainer⟩ := hps (.pointsTo (.var caller.context base) o) (by simp)
      obtain ⟨i, hi, hcontext⟩ := hd.context
      refine ⟨?_, wf.resolveCallee_lt hd.target⟩
      rw [hcontext]
      exact Selector.receiverContext_inRange hc (wf.mem_stmtsOf_iff.1 hd.stmt).1 ho (hnames _ i hi)
        hcontainer
  | @receiver caller s call base o callee b this hd =>
      exact hps (.pointsTo (.var caller.context base) o) (by simp)
  | @callee k site m => exact hps (.call k site m) (by simp)

end Facts

/-! ## Sizes of tables -/

section Sizes

/-- An array whose entries are told apart by a function is no longer than a list of its values. -/
theorem size_le_of_distinct {α β : Type} {l : Array α} (f : α → β) {u : List β}
    (hinj : ∀ (i j : Nat) (x y : α), l[i]? = some x → l[j]? = some y → f x = f y → i = j)
    (hmem : ∀ (i : Nat) (x : α), l[i]? = some x → f x ∈ u) : l.size ≤ u.length := by
  have hnodup : (l.toList.map f).Nodup := by
    refine List.pairwise_iff_getElem.2 fun i j hi hj hij heq => ?_
    rw [List.length_map, Array.length_toList] at hi hj
    rw [List.getElem_map, List.getElem_map, Array.getElem_toList, Array.getElem_toList] at heq
    have hsame := hinj i j l[i] l[j] (Array.getElem?_eq_getElem hi) (Array.getElem?_eq_getElem hj) heq
    omega
  have hsub : l.toList.map f ⊆ u := by
    intro y hy
    obtain ⟨x, hx, rfl⟩ := List.mem_map.1 hy
    obtain ⟨i, hi⟩ := Array.mem_iff_getElem?.1 (Array.mem_toList_iff.1 hx)
    exact hmem i x hi
  have hlength := (List.subperm_of_subset hnodup hsub).length_le
  rwa [List.length_map, Array.length_toList] at hlength

variable {a : Analysis} {wf : a.program.WellFormed} {entry : MethodId} {s : State}
  (hs : Sound (a.theory wf entry) s)

include hs

/-- There is at most one object for each statement, and two that are mocked. -/
theorem Sound.heap_size_le : s.heap.objects.size ≤ a.program.stmts.size + 2 := by
  have hsize := size_le_of_distinct (l := s.heap.objects) Object.origin
    (u := (List.range a.program.stmts.size).map (fun i => .site ⟨i⟩) ++
      [.mock "<main-args>", .mock "<main-arg>"])
    (fun i j x y hi hj hxy => hs.distinct i j x y hi hj hxy) fun i x hi => by
      cases (hs.made i x hi).1 with
      | @new stmt lhs t kind =>
          have hlt : stmt.idx < a.program.stmts.size := by
            refine Program.lt_size_of_kind ?_
            rw [kind]
            exact StmtKind.noConfusion
          refine List.mem_append_left _ (List.mem_map.2 ⟨stmt.idx, List.mem_range.2 hlt, rfl⟩)
      | array => exact List.mem_append_right _ (by simp [Program.mockArray])
      | element => exact List.mem_append_right _ (by simp [Program.mockElement])
  simpa using hsize

variable (hentry : entry.idx < a.program.methods.size)

include hentry

/-- What is derived about a sound state is in range. -/
theorem Sound.inRange {q : Fact} (hq : a.Derives entry s.heap q) :
    q.InRange a.program a.selector.bound := by
  refine Derivable.least (Fact.closed_inRange wf hentry fun origin i hi => ?_) hq
  obtain ⟨o, ho, -⟩ := Heap.exists_of_find? hi
  exact Nat.lt_of_lt_of_le (Array.getElem?_eq_some_iff.1 ho).1 hs.heap_size_le

end Sizes

/-- A bound of the number of objects. -/
def Program.objectBound (p : Program) (k : Nat) : Nat := p.contextBound k * (p.stmts.size + 2)

/-- A bound of the number of methods in their contexts. -/
def Program.methodBound (p : Program) (k : Nat) : Nat := p.contextBound k * p.methods.size

/-- A bound of the number of pointers. -/
def Program.pointerBound (p : Program) (k : Nat) : Nat :=
  p.contextBound k * p.vars.size + p.fields.size + p.objectBound k * p.fields.size +
    p.objectBound k

/-- The tables of a state are within the bounds. -/
structure Bounded (p : Program) (k : Nat) (s : State) : Prop where
  objects : s.elements.objects.size ≤ p.objectBound k
  methods : s.elements.methods.size ≤ p.methodBound k
  pointers : s.elements.pointers.size ≤ p.pointerBound k

section Bounds

variable {a : Analysis} {wf : a.program.WellFormed} {entry : MethodId} {s : State}
  (hs : Sound (a.theory wf entry) s) (hentry : entry.idx < a.program.methods.size)

include hs hentry

/-- There are no more objects than contexts and identifiers of the heap. -/
theorem Sound.objects_size_le :
    s.elements.objects.size ≤ a.program.objectBound a.selector.bound := by
  -- Objects are told apart by their contexts and the objects of the heap that they stand for.
  have hsize := size_le_of_distinct (l := s.elements.objects.items)
    (fun o : CsObject => (o.context, o.object.idx))
    (u := a.program.contexts a.selector.bound ×ˢ List.range (a.program.stmts.size + 2))
    (fun i j x y hi hj hxy => ?_) fun i x hi => ?_
  · rw [List.length_product, List.length_range] at hsize
    exact hsize.trans (Nat.mul_le_mul_right _ (a.program.length_contexts_le _))
  · -- the container of an object is that of the heap
    obtain ⟨o, ho, hcx, -⟩ := hs.object ⟨i⟩ x hi
    obtain ⟨o', ho', hcy, -⟩ := hs.object ⟨j⟩ y hj
    obtain ⟨cx, ⟨ix⟩, kx⟩ := x
    obtain ⟨cy, ⟨iy⟩, ky⟩ := y
    cases hxy
    cases ho.symm.trans ho'
    cases hcx
    cases hcy
    exact s.elements.objects.distinct i j _ hi hj
  · obtain ⟨o, ho, -, z, hz⟩ := hs.object ⟨i⟩ x hi
    refine List.mem_product.2 ⟨Program.mem_contexts (hs.inRange hentry hz).1, ?_⟩
    exact List.mem_range.2 (Nat.lt_of_lt_of_le (Array.getElem?_eq_some_iff.1 ho).1 hs.heap_size_le)

/-- There are no more methods in contexts than contexts and methods. -/
theorem Sound.methods_size_le :
    s.elements.methods.size ≤ a.program.methodBound a.selector.bound := by
  have hsize := size_le_of_distinct (l := s.elements.methods.items)
    (fun m : CsMethod => (m.context, m.method.idx))
    (u := a.program.contexts a.selector.bound ×ˢ List.range a.program.methods.size)
    (fun i j x y hi hj hxy => ?_) fun i x hi => ?_
  · rw [List.length_product, List.length_range] at hsize
    exact hsize.trans (Nat.mul_le_mul_right _ (a.program.length_contexts_le _))
  · obtain ⟨cx, ⟨ix⟩⟩ := x
    obtain ⟨cy, ⟨iy⟩⟩ := y
    cases hxy
    exact s.elements.methods.distinct i j _ hi hj
  · obtain ⟨hc, hm⟩ := hs.inRange hentry (hs.method ⟨i⟩ x hi)
    exact List.mem_product.2 ⟨Program.mem_contexts hc, List.mem_range.2 hm⟩

/-- All pointers of a program with the given number of objects. -/
def Program.pointers (p : Program) (k objects : Nat) : List Pointer :=
  (p.contexts k ×ˢ List.range p.vars.size).map (fun x => .var x.1 ⟨x.2⟩) ++
    (List.range p.fields.size).map (fun f => .staticField ⟨f⟩) ++
    (List.range objects ×ˢ List.range p.fields.size).map (fun x => .instanceField ⟨x.1⟩ ⟨x.2⟩) ++
    (List.range objects).map (fun i => .arrayIndex ⟨i⟩)

omit hs hentry in
/-- The bound is one of the number of all pointers. -/
theorem Program.length_pointers_le {p : Program} {k objects : Nat}
    (h : objects ≤ p.objectBound k) : (p.pointers k objects).length ≤ p.pointerBound k := by
  simp only [pointers, pointerBound, List.length_append, List.length_map, List.length_product,
    List.length_range]
  have hvars := Nat.mul_le_mul_right p.vars.size (p.length_contexts_le k)
  have hslots := Nat.mul_le_mul_right p.fields.size h
  omega

/-- Every pointer of a sound state is one of the list. -/
theorem Sound.mem_pointers {i : PointerId} {q : Pointer} (hi : s.IsPointer i q) :
    q ∈ a.program.pointers a.selector.bound s.elements.objects.size := by
  have hdenotes : ∀ {j o}, s.Denotes j o → j.idx < s.elements.objects.size := fun ⟨_, hj, _⟩ =>
    Table.lt_size_of_getElem? hj
  have hq := hs.pointer i q hi
  -- One summand of the bound for each kind of pointers.
  simp only [Program.pointers, List.mem_append, List.mem_map, List.mem_range]
  cases q with
  | var c v =>
      obtain ⟨hv, hreach⟩ := hq
      have hc := Program.mem_contexts (hs.inRange hentry hreach).1
      have hv := List.mem_range.2 (hv.resolve_left id)
      exact Or.inl (Or.inl (Or.inl ⟨(c, v.idx), List.mem_product.2 ⟨hc, hv⟩, rfl⟩))
  | staticField f => exact Or.inl (Or.inl (Or.inr ⟨f.idx, hq.resolve_left id, rfl⟩))
  | instanceField j f =>
      obtain ⟨⟨o, ho⟩, hf⟩ := hq
      exact Or.inl (Or.inr ⟨(j.idx, f.idx),
        List.mem_product.2 ⟨List.mem_range.2 (hdenotes ho), List.mem_range.2 (hf.resolve_left id)⟩,
        rfl⟩)
  | arrayIndex j =>
      obtain ⟨o, ho⟩ := hq
      exact Or.inr ⟨j.idx, hdenotes ho, rfl⟩

/-- The tables of a sound state are within the bounds. -/
theorem Sound.bounded : Bounded a.program a.selector.bound s where
  objects := hs.objects_size_le hentry
  methods := hs.methods_size_le hentry
  pointers := by
    refine (size_le_of_distinct id (fun i j x y hi hj hxy => ?_) fun i x hi => ?_).trans
      (Program.length_pointers_le (hs.objects_size_le hentry))
    · cases hxy
      exact s.elements.pointers.distinct i j x hi hj
    · exact hs.mem_pointers hentry (i := ⟨i⟩) hi

end Bounds

end PointsTo
