import PointsTo.Proofs.Solver.Termination
import PointsTo.Proofs.Solver.Translation

/-! # Longer contexts

A selector that keeps more tokens tells more contexts apart. Cutting all contexts down to the number of
tokens that a coarser selector of the same kind keeps is a translation of facts: it commutes with the
choice of contexts, although methods keep one token more than objects, and static calls may keep the
context of their caller. So the coarser analysis finds whatever the finer one finds.
-/

namespace PointsTo

/-! ## Kinds of selectors -/

/-- What the contexts of a selector are made of. -/
inductive Sensitivity where
  | callSite
  | object
  | type
  deriving DecidableEq, Repr

/-- The selector that keeps a number of tokens. Without tokens, contexts are not told apart. -/
def Sensitivity.selector : Sensitivity → Nat → Selector
  | _, 0 => .insensitive
  | .callSite, k + 1 => .callSite (k + 1)
  | .object, k + 1 => .object (k + 1)
  | .type, k + 1 => .type (k + 1)

/-- Contexts of methods are cut to `k` tokens and those of objects to one less, in which objects have
the names of another heap. -/
def Translation.truncate (k : Nat) (h h' : Heap) : Translation :=
  ⟨id, fun c => (c.renamed id h h').lastK k, fun c => (c.renamed id h h').lastK (k - 1)⟩

/-- Cutting contexts turns the choices of a selector into those of a coarser one. -/
theorem Translation.truncate_selectors (kind : Sensitivity) {k k' : Nat} (hk : k ≤ k') (h h' : Heap) :
    (truncate k h h').Selectors (kind.selector k') (kind.selector k) h h' := by
  cases k with
  | zero =>
      -- the coarser selector has no contexts at all
      refine ⟨rfl, rfl, fun site => ?_, fun m => ?_, fun _ _ site c => ?_⟩
      · exact Context.lastK_zero _
      · exact Context.lastK_zero _
      · exact Context.lastK_zero _
  | succ k =>
      obtain ⟨k', rfl⟩ : ∃ n, k' = n + 1 := ⟨k' - 1, by omega⟩
      have hextend (c : Context) (x : Token) {j : Nat} (hj : k ≤ j) :
          Context.lastK ((c.extend x (k' + 1)).renamed id h h') (k + 1) =
            Context.extend (Context.lastK (c.renamed id h h') j)
              (x.rename id (h.renamed h' id)) (k + 1) := by
        rw [Context.renamed, Context.map_extend, Context.lastK_extend _ hk,
          Context.extend_lastK _ hj]
        rfl
      have hheap (c : Context) : Context.lastK ((c.lastK k').renamed id h h') k =
          Context.lastK (Context.lastK (c.renamed id h h') (k + 1)) k := by
        rw [Context.renamed, Context.map_lastK, Context.lastK_lastK (by omega),
          Context.lastK_lastK (by omega)]
        rfl
      have hnil (n : Nat) : Context.lastK [] n = [] := List.drop_nil
      refine ⟨hnil _, hnil _, fun site => ?_, fun m => ?_, fun {origin i i'} hi hi' site c => ?_⟩
      · cases kind with
        | callSite => exact hextend _ _ (Nat.le_succ k)
        | _ => rfl
      · cases kind <;> exact hheap _
      · have hname : h.renamed h' id i = i' := Heap.renamed_of_find? hi hi'
        cases kind with
        | callSite => exact hextend _ _ (Nat.le_succ k)
        | object =>
            subst hname
            exact hextend _ _ (Nat.le_refl k)
        | type => exact hextend _ _ (Nat.le_refl k)

/-! ## Runs with selectors of one kind -/

/-- A run without further extensions gives a result exactly if there is an entry method and every
statically bound call has a method. -/
theorem Program.analyse_ok_iff {p : Program} (wf : p.WellFormed) (o : Options) :
    (∃ r, (p.analyse o).result = .ok r) ↔
      (∃ entry, Analysis.entryMethod ⟨p, o, o.selector, .allocationSite⟩ = .ok entry) ∧
        Analysis.checkStaticCalls ⟨p, o, o.selector, .allocationSite⟩ = .ok () := by
  constructor
  · rintro ⟨r, hr⟩
    obtain ⟨entry, hentry, hcheck, -⟩ := Analysis.finished_of_solveWith
      (a := ⟨p, o, o.selector, .allocationSite⟩) wf rfl hr
    exact ⟨⟨entry, hentry⟩, hcheck⟩
  · rintro ⟨⟨entry, hentry⟩, hcheck⟩
    exact Analysis.exists_solveWith (a := ⟨p, o, o.selector, .allocationSite⟩) wf rfl hentry hcheck

section Truncation

variable {d : ProgramDef} {p : Program}

/-- More context never loses precision. Of two selectors of the same kind, the one that keeps fewer
tokens leads to a result whenever the other one does, and its result holds whatever the result of the
other one holds, with contexts cut; objects are matched by their origins. So answers to queries can
only grow. -/
theorem Program.analyse_truncated (hp : (Program.build d).1 = .ok p) (o : Options)
    (kind : Sensitivity) {k k' : Nat} (hk : k ≤ k') :
    ((∃ r, (p.analyse { o with selector := kind.selector k' }).result = .ok r) ↔
      ∃ r', (p.analyse { o with selector := kind.selector k }).result = .ok r') ∧
    ∀ r r', (p.analyse { o with selector := kind.selector k' }).result = .ok r →
      (p.analyse { o with selector := kind.selector k }).result = .ok r' →
      (∀ q, r.Holds q → r'.Holds ((Translation.truncate k r.state.heap r'.state.heap).fact q)) ∧
      (∀ (i : ObjectId) (x : Object), r.state.heap.objects[i.idx]? = some x →
        r'.state.heap.objects[(r.state.heap.renamed r'.state.heap id i).idx]? = some x) ∧
      (∀ v, ∀ i ∈ r.pointsToVar v,
        ∃ i' ∈ r'.pointsToVar v, r'.state.heap.get i' = r.state.heap.get i) ∧
      (∀ f, ∀ i ∈ r.pointsToStaticField f,
        ∃ i' ∈ r'.pointsToStaticField f, r'.state.heap.get i' = r.state.heap.get i) ∧
      (∀ s, r.calleesOf s ⊆ r'.calleesOf s) ∧ r.reachableMethods ⊆ r'.reachableMethods := by
  have wf := Program.build_wellFormed hp
  refine ⟨?_, fun r r' hr hr' => ?_⟩
  · -- whether a run gives a result does not depend on the selector
    rw [analyse_ok_iff wf, analyse_ok_iff wf]
    rfl
  -- Both runs start from the same method and have finished.
  obtain ⟨entry, hentry, -, hprogram, hfinished, -⟩ := Analysis.finished_of_solveWith
    (a := ⟨p, { o with selector := kind.selector k' }, kind.selector k', .allocationSite⟩) wf rfl hr
  obtain ⟨entry', hentry', -, hprogram', hfinished', hgiven'⟩ := Analysis.finished_of_solveWith
    (a := ⟨p, { o with selector := kind.selector k }, kind.selector k, .allocationSite⟩) wf rfl hr'
  obtain rfl : entry' = entry := Except.ok.inj (hentry'.symm.trans hentry)
  -- Cutting contexts takes each rule under the larger bound to the same rule under the smaller one.
  have htranslates := hfinished.translates hfinished' hgiven' rfl
    (Translation.Programs.refl (t := .truncate k r.state.heap r'.state.heap) rfl p)
    (Translation.truncate_selectors kind hk _ _)
  have hobject := Translation.object_of_id (t := .truncate k r.state.heap r'.state.heap) rfl
  have hsize : r'.program.methods.size = r.program.methods.size := by rw [hprogram', hprogram]
  refine ⟨fun q => htranslates.holds, fun i x hx => ?_, fun v i hi => ?_, fun f i hi => ?_,
    fun s m => htranslates.mem_calleesOf hsize, fun m => htranslates.mem_reachableMethods hsize⟩
  · rw [← hobject x]
    exact htranslates.getElem?_renamed hfinished'.sound.distinct hx
  · rw [← hobject (r.state.heap.get i)]
    exact htranslates.mem_pointsToVar hfinished.sound hfinished'.sound hi
  · rw [← hobject (r.state.heap.get i)]
    exact htranslates.mem_pointsToStaticField hfinished.sound hfinished'.sound hi

/-- The sample has results with one and with two receivers as contexts. -/
theorem Program.analyse_truncated_sample : ∃ p r r', (Program.build .sample).1 = .ok p ∧
    (p.analyse ⟨.object 2, none, true⟩).result = .ok r ∧
    (p.analyse ⟨.object 1, none, true⟩).result = .ok r' ∧
    (∀ q, r.Holds q → r'.Holds ((Translation.truncate 1 r.state.heap r'.state.heap).fact q)) ∧
    r.reachableMethods ⊆ r'.reachableMethods := by
  obtain ⟨p, r₀, hp, hr₀⟩ := ProgramDef.sample_solved true
  have wf := Program.build_wellFormed hp
  obtain ⟨entry, hentry, hcheck, -⟩ := Analysis.finished_of_solveWith wf rfl hr₀
  obtain ⟨r, hr⟩ := (analyse_ok_iff wf ⟨.object 2, none, true⟩).2 ⟨⟨entry, hentry⟩, hcheck⟩
  obtain ⟨hok, hfacts⟩ := analyse_truncated hp ⟨.insensitive, none, true⟩ .object
    (show 1 ≤ 2 by decide)
  obtain ⟨r', hr'⟩ := hok.1 ⟨r, hr⟩
  obtain ⟨hholds, -, -, -, -, hmethods⟩ := hfacts r r' hr hr'
  exact ⟨p, r, r', hp, hr, hr', hholds, hmethods⟩

end Truncation

end PointsTo
