import PointsTo.Proofs.Solver.Erasure

/-! # What extensions are told

The extensions of a run are told what happens in rounds. In a round each of them is told in turn, in the
order in which they were registered, in the state that the one before it has left; those that are
registered in a round take part from the next one on. `Rounds` says so of a list of rounds.

A listener is an extension together with all that it was told so far. Nothing reads that, so a run with
listeners is the run without them, and what the listeners have heard at the end is what they were told in
the rounds of the run.
-/

namespace PointsTo

variable {π ρ α β : Type}

/-! ## Scripts -/

/-- The script with another value, and with other extensions that it registers. -/
def Script.map (f : π → ρ) (g : α → β) : Script π α → Script ρ β
  | done x => done (g x)
  | view next => view fun s => (next s).map f g
  | pointer p next => pointer p fun i => (next i).map f g
  | object c o next => object c o fun i => (next i).map f g
  | callSite c next => callSite c fun i => (next i).map f g
  | method m next => method m fun i => (next i).map f g
  | mock d t c next => mock d t c fun o => (next o).map f g
  | inject p objects next => inject p objects (next.map f g)
  | flow source target next => flow source target (next.map f g)
  | register e next => register (f e) (next.map f g)
  | report severity text next => report severity text (next.map f g)
  | note event next => note event (next.map f g)

/-- Extensions that were registered before have no part in what a script does. -/
theorem Script.run_append (x : Script π α) (s : State) (arrivals : List π) :
    x.run s arrivals = ((x.run s []).1, (x.run s []).2.1, arrivals ++ (x.run s []).2.2) := by
  -- only registering an extension touches the list; all other actions leave it to the rest of the
  -- script
  induction x generalizing s arrivals with
  | done => simp [run]
  | view next ih => exact ih s s arrivals
  | pointer p next ih => exact ih _ _ arrivals
  | object c o next ih => exact ih _ _ arrivals
  | callSite c next ih => exact ih _ _ arrivals
  | method m next ih => exact ih _ _ arrivals
  | mock d t c next ih => exact ih _ _ arrivals
  | inject p objects next ih => exact ih _ arrivals
  | flow source target next ih => exact ih _ arrivals
  | register e next ih =>
      rw [run, run, ih s (arrivals ++ [e]), ih s ([] ++ [e])]
      simp
  | report severity text next ih => exact ih _ arrivals
  | note event next ih => exact ih _ arrivals

/-- A mapped script acts on the state in the same way, and registers the extensions that the map gives.
-/
theorem Script.run_map (f : π → ρ) (g : α → β) (x : Script π α) (s : State) (arrivals : List π) :
    (x.map f g).run s (arrivals.map f) =
      (g (x.run s arrivals).1, (x.run s arrivals).2.1, (x.run s arrivals).2.2.map f) := by
  induction x generalizing s arrivals with
  | done => rfl
  | view next ih => exact ih s s arrivals
  | pointer p next ih => exact ih _ _ arrivals
  | object c o next ih => exact ih _ _ arrivals
  | callSite c next ih => exact ih _ _ arrivals
  | method m next ih => exact ih _ _ arrivals
  | mock d t c next ih => exact ih _ _ arrivals
  | inject p objects next ih => exact ih _ arrivals
  | flow source target next ih => exact ih _ arrivals
  | register e next ih =>
      have harrivals : arrivals.map f ++ [f e] = (arrivals ++ [e]).map f := by simp
      rw [map, run, harrivals]
      exact ih s _
  | report severity text next ih => exact ih _ arrivals
  | note event next ih => exact ih _ arrivals

/-! ## Rounds -/

/-- What an extension is told, as what it was then, and in which state. -/
structure Hearing (π : Type) where
  notice : Notice
  self : π
  state : State

namespace Hearing

variable (react : Reaction π) (h : Hearing π)

/-- What the extension is after it has answered. -/
def answer : π := ((react h.notice h.self).run h.state []).1

/-- The extensions that it registers. -/
def registered : List π := ((react h.notice h.self).run h.state []).2.2

end Hearing

/-- The extensions are told one after the other, each in the state that the one before it has left. -/
def hearings (react : Reaction π) (n : Notice) : List π → State → List (Hearing π)
  | [], _ => []
  | e :: es, s => ⟨n, e, s⟩ :: hearings react n es ((react n e).run s []).2.1

/-- A notice, with the extensions that are told and the state before they are. -/
structure Round (π : Type) where
  notice : Notice
  extensions : List π
  state : State

namespace Round

/-- What the extensions are told in the round, in order. -/
def hearings (react : Reaction π) (r : Round π) : List (Hearing π) :=
  PointsTo.hearings react r.notice r.extensions r.state

/-- The extensions after the round: those that were told, and then those that they registered. -/
def after (react : Reaction π) (r : Round π) : List π :=
  (r.hearings react).map (·.answer react) ++ (r.hearings react).flatMap (·.registered react)

def map (f : π → ρ) (r : Round π) : Round ρ := ⟨r.notice, r.extensions.map f, r.state⟩

end Round

/-- A run with the given extensions has these rounds, and these extensions after them. No extension takes
part in the first round but those that are given, and in a later one but those that are there after the
one before. -/
inductive Rounds (react : Reaction π) (es : List π) : List (Round π) → List π → Prop where
  | start : Rounds react es [] es
  | next {rs : List (Round π)} (r : Round π) (before : Rounds react es rs r.extensions) :
      Rounds react es (rs ++ [r]) (r.after react)

section Rounds

variable {react : Reaction π} {n : Notice} {es ls : List π} {rs : List (Round π)} {r : Round π}

/-- Each extension is told once in a round. -/
theorem length_hearings (react : Reaction π) (n : Notice) (es : List π) (s : State) :
    (hearings react n es s).length = es.length := by
  induction es generalizing s with
  | nil => rfl
  | cons e es ih => rw [hearings, List.length_cons, ih, List.length_cons]

/-- All that is told in a round is its notice. -/
theorem notice_of_mem_hearings {s : State} {h : Hearing π} (hmem : h ∈ hearings react n es s) :
    h.notice = n := by
  induction es generalizing s with
  | nil => cases hmem
  | cons e es ih =>
      rcases List.mem_cons.1 hmem with rfl | hmem
      · rfl
      · exact ih hmem

/-- A round leaves each extension as it is after its answer, and registers what the answers register. -/
theorem Machine.round_eq (react : Reaction π) (n : Notice) (es : List π) (s : State)
    (arrivals : List π) :
    (round react n es s arrivals).1 = (hearings react n es s).map (·.answer react) ∧
      (round react n es s arrivals).2.2 =
        arrivals ++ (hearings react n es s).flatMap (·.registered react) := by
  induction es generalizing s arrivals with
  | nil => exact ⟨rfl, (List.append_nil _).symm⟩
  | cons e es ih =>
      obtain ⟨htold, hnew⟩ := ih ((react n e).run s []).2.1 (arrivals ++ ((react n e).run s []).2.2)
      simp only [round, Script.run_append (react n e) s arrivals]
      rw [htold, hnew, List.append_assoc]
      exact ⟨rfl, rfl⟩

/-- When the extensions are told something, then that is a round. -/
theorem Machine.extensions_notify (react : Reaction π) (n : Notice) (k : Machine π) :
    (k.notify react n).extensions = Round.after react ⟨n, k.extensions, k.state⟩ := by
  obtain ⟨htold, hnew⟩ := round_eq react n k.extensions k.state []
  change (round react n k.extensions k.state []).1 ++ (round react n k.extensions k.state []).2.2 = _
  rw [htold, hnew]
  rfl

/-- No extension is lost in a round. -/
theorem Round.length_le_after (react : Reaction π) (r : Round π) :
    r.extensions.length ≤ (r.after react).length := by
  rw [after, List.length_append, List.length_map, hearings, length_hearings]
  exact Nat.le_add_right _ _

/-- No extension is lost in a run. -/
theorem Rounds.length_le (h : Rounds react es rs ls) :
    es.length ≤ ls.length ∧ ∀ r ∈ rs, es.length ≤ r.extensions.length ∧
      r.extensions.length ≤ ls.length := by
  induction h with
  | start => exact ⟨Nat.le_refl _, List.forall_mem_nil _⟩
  | next r _ ih =>
      have hle := r.length_le_after react
      obtain ⟨hfirst, hrounds⟩ := ih
      refine ⟨Nat.le_trans hfirst hle, fun r' hr' => ?_⟩
      rcases List.mem_append.1 hr' with hr' | hr'
      · exact ⟨(hrounds r' hr').1, Nat.le_trans (hrounds r' hr').2 hle⟩
      · rw [List.mem_singleton.1 hr']
        exact ⟨hfirst, hle⟩

/-- After any of its rounds, a run is a run with the extensions that are there then. -/
theorem Rounds.rest (h : Rounds react es rs ls) {before later : List (Round π)}
    (hrs : rs = before ++ r :: later) : Rounds react (r.after react) later ls := by
  induction h generalizing later with
  | start => exact absurd hrs.symm (List.append_ne_nil_of_right_ne_nil _ (List.cons_ne_nil _ _))
  | next last hlast ih =>
      rcases List.eq_nil_or_concat later with rfl | ⟨middle, r', rfl⟩
      · obtain ⟨-, hr⟩ := List.append_inj' hrs rfl
        cases hr
        exact .start
      · rw [List.concat_eq_append, ← List.cons_append, ← List.append_assoc] at hrs
        obtain ⟨hmiddle, hr⟩ := List.append_inj' hrs rfl
        cases hr
        rw [List.concat_eq_append]
        exact .next last (ih hmiddle)

/-- The extensions that are there from the start are told in every round. -/
theorem Rounds.notices (h : Rounds react es rs ls) {i : Nat} (hi : i < es.length) :
    (rs.filterMap fun r => (r.hearings react)[i]?).map (·.notice) = rs.map (·.notice) := by
  rw [List.map_filterMap, ← List.filterMap_eq_map]
  refine List.filterMap_congr fun r hr => ?_
  have hlt : i < (r.hearings react).length := by
    rw [Round.hearings, length_hearings]
    exact Nat.lt_of_lt_of_le hi (h.length_le.2 r hr).1
  rw [List.getElem?_eq_getElem hlt]
  exact congrArg some (notice_of_mem_hearings (List.getElem_mem hlt))

/-- The rounds are the same without what the extensions carry. -/
theorem Rounds.map {f : π → ρ} {react' : Reaction ρ} (h : Rounds react es rs ls)
    (hreact : react.Erases f react') :
    Rounds react' (es.map f) (rs.map (Round.map f)) (ls.map f) := by
  induction h with
  | start => exact .start
  | next r _ ih =>
      have hafter : (r.after react).map f = (r.map f).after react' := by
        have hnotify := congrArg Machine.extensions
          (Machine.map_notify hreact r.notice ⟨r.state, r.extensions⟩)
        rwa [Machine.extensions_notify, Machine.map, Machine.extensions_notify] at hnotify
      rw [hafter, List.map_append]
      exact .next (r.map f) ih

end Rounds

/-! ## Listeners -/

/-- An extension, and what it was told so far. -/
structure Listener (π : Type) where
  self : π
  heard : List (Hearing π)

def Listener.new (e : π) : Listener π := ⟨e, []⟩

/-- Answers notices as before, and remembers them. -/
def Reaction.heard (react : Reaction π) : Reaction (Listener π) := fun n l =>
  .view fun s => (react n l.self).map Listener.new fun e => ⟨e, l.heard ++ [⟨n, l.self, s⟩]⟩

/-- The listener after it was told something. -/
def Listener.tell (react : Reaction π) (l : Listener π) (h : Hearing π) : Listener π :=
  ⟨((react h.notice h.self).run h.state []).1, l.heard ++ [h]⟩

section Listeners

variable {react : Reaction π}

/-- A listener answers as the extension that it keeps, remembers what it was told, and registers
listeners that were told nothing yet. -/
theorem Reaction.run_heard (react : Reaction π) (n : Notice) (l : Listener π) (s : State)
    (arrivals : List (Listener π)) :
    (react.heard n l).run s arrivals =
      (l.tell react ⟨n, l.self, s⟩, ((react n l.self).run s []).2.1,
        arrivals ++ ((react n l.self).run s []).2.2.map Listener.new) := by
  have hmap := Script.run_map Listener.new
    (fun e => (⟨e, l.heard ++ [⟨n, l.self, s⟩]⟩ : Listener π)) (react n l.self) s []
  rw [Script.run_append]
  simp only [heard, Script.run]
  rw [List.map_nil] at hmap
  rw [hmap]
  rfl

/-- Nothing reads what was heard. -/
theorem Reaction.heard_erases (react : Reaction π) : react.heard.Erases Listener.self react := by
  intro n l s arrivals
  rw [react.run_heard, Script.run_append]
  simp [Listener.tell, Listener.new, Function.comp_def]

/-- Each listener hears what its extension is told. Those that are registered have heard nothing. -/
theorem hearings_heard (react : Reaction π) (n : Notice) (ls : List (Listener π)) (s : State) :
    (hearings react.heard n ls s).map (·.answer react.heard) =
        List.zipWith (Listener.tell react) ls (hearings react n (ls.map Listener.self) s) ∧
      ∀ l ∈ (hearings react.heard n ls s).flatMap (·.registered react.heard), l.heard = [] := by
  induction ls generalizing s with
  | nil => exact ⟨rfl, List.forall_mem_nil _⟩
  | cons l ls ih =>
      obtain ⟨htold, hnew⟩ := ih ((react n l.self).run s []).2.1
      have hrun := react.run_heard n l s []
      simp only [hearings, List.map_cons, List.zipWith_cons_cons, List.flatMap_cons, hrun,
        Hearing.answer, Hearing.registered, List.nil_append] at htold hnew ⊢
      refine ⟨by rw [htold], fun l' hl' => ?_⟩
      rcases List.mem_append.1 hl' with hl' | hl'
      · obtain ⟨e, -, rfl⟩ := List.mem_map.1 hl'
        rfl
      · exact hnew l' hl'

/-- After a round each listener has heard one more notice, and those that are new have heard none. -/
theorem Round.heard_after {r : Round (Listener π)} {i : Nat} {l : Listener π}
    (hl : (r.after react.heard)[i]? = some l) :
    l.heard = ((r.extensions[i]?).map (·.heard)).getD [] ++
      (((r.map Listener.self).hearings react)[i]?).toList := by
  obtain ⟨htold, hnew⟩ := hearings_heard react r.notice r.extensions r.state
  have hlength := length_hearings react r.notice (r.extensions.map Listener.self) r.state
  rw [List.length_map] at hlength
  rw [after, hearings, htold] at hl
  simp only [hearings, map]
  -- the position is that of an extension that was told, or of one that was registered in the round
  rcases Nat.lt_or_ge i r.extensions.length with hi | hi
  · have hi' : i < (PointsTo.hearings react r.notice (r.extensions.map Listener.self) r.state).length := by
      omega
    rw [List.getElem?_append_left (by rw [List.length_zipWith]; omega), List.getElem?_zipWith,
      List.getElem?_eq_getElem hi, List.getElem?_eq_getElem hi'] at hl
    cases hl
    rw [List.getElem?_eq_getElem hi, List.getElem?_eq_getElem hi']
    rfl
  · rw [List.getElem?_append_right (by rw [List.length_zipWith]; omega)] at hl
    rw [hnew l (List.mem_of_getElem? hl), List.getElem?_eq_none hi, List.getElem?_eq_none (by omega)]
    rfl

/-- What a listener has heard is what it was told in the rounds of the run. -/
theorem Rounds.heard {es ls : List (Listener π)} {rs : List (Round (Listener π))}
    (h : Rounds react.heard es rs ls) (hes : ∀ l ∈ es, l.heard = []) {i : Nat} {l : Listener π}
    (hl : ls[i]? = some l) :
    l.heard = rs.filterMap fun r => ((r.map Listener.self).hearings react)[i]? := by
  induction h generalizing l with
  | start => exact hes l (List.mem_of_getElem? hl)
  | @next rs r before ih =>
      rw [Round.heard_after hl, List.filterMap_append, List.filterMap_cons, List.filterMap_nil]
      congr 1
      cases hi : r.extensions[i]? with
      | some l' => exact ih hi
      | none =>
          -- a new listener was told nothing before
          refine (List.filterMap_eq_nil_iff.2 fun r' hr' => List.getElem?_eq_none ?_).symm
          rw [Round.hearings, length_hearings, Round.map, List.length_map]
          exact Nat.le_trans (before.length_le.2 r' hr').2 (List.getElem?_eq_none_iff.1 hi)

end Listeners

end PointsTo
