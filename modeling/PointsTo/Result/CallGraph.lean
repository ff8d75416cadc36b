import PointsTo.Collection.Reach
import PointsTo.Dot
import PointsTo.Result.Query

/-!
# Call graphs

The call graph of a solution without contexts: its methods in the order of their discovery, and one call
for each pair of a caller and a callee, with all its call sites. Calls join positions, and a table tells
where each method stands. A call graph can be restricted to the methods that lead to chosen ones, and
drawn.
-/

namespace PointsTo

/-- A method of a call graph. -/
structure CallNode where
  id : MethodId
  className : String
  name : String
  text : String
  /-- The method has a body. -/
  isDefined : Bool
  isEntry : Bool
  deriving DecidableEq, Repr, Inhabited

/-- The calls from one method to another. -/
structure Call where
  /-- Call sites in the caller, in order, each once. -/
  callSites : List StmtId
  /-- Kinds of the calls, in order, each once. -/
  kinds : List CallKind
  deriving DecidableEq, Repr

/-- A call as text: `static/virtual (s1, s2)`. -/
def Call.text (c : Call) : String :=
  String.intercalate "/" (c.kinds.map (·.text)) ++ " ("
    ++ String.intercalate ", " (c.callSites.map (·.text)) ++ ")"

/-- A call between the methods at two positions. -/
structure CallArc where
  source : Nat
  target : Nat
  call : Call
  deriving DecidableEq, Repr

def CallArc.ends (c : CallArc) : Nat × Nat := (c.source, c.target)

/-- A call graph without contexts. -/
@[ext]
structure CallGraph where
  methods : List CallNode
  calls : List CallArc
  /-- Where each method stands. -/
  positions : List (MethodId × Nat)
  /-- The table has all methods of the graph, and no others. -/
  isPosition : ∀ m i, positions.lookup m = some i ↔ (methods.map (·.id))[i]? = some m
  /-- Calls join methods of the graph. -/
  inRange : ∀ c ∈ calls, c.source < methods.length ∧ c.target < methods.length
  /-- There is only one call from a method to another. -/
  apart : (calls.map (·.ends)).Nodup

def CallKind.all : List CallKind := [.static, .special, .virtual, .interface]

namespace CallGraph

/-! ## Lists without duplicates -/

/-- The members of a list, in the order of a key and each once. -/
def sortedSet {α : Type} [DecidableEq α] (key : α → Nat) (l : List α) : List α :=
  (l.mergeSort fun a b => decide (key a ≤ key b)).eraseDups

/-- Duplicates are erased one member after the other. -/
theorem eraseDups_induction {α : Type} [DecidableEq α] {P : List α → List α → Prop} (nil : P [] [])
    (cons : ∀ a l l', P (l.filter fun b => !b == a) l' → (∀ b ∈ l', b ∈ l ∧ b ≠ a) →
      P (a :: l) (a :: l')) (l : List α) : P l l.eraseDups := by
  induction hn : l.length using Nat.strongRecOn generalizing l with
  | _ n ih =>
    cases l with
    | nil => exact nil
    | cons a l =>
        have hlt : (l.filter fun b => !b == a).length < n := by
          rw [← hn, List.length_cons]
          exact Nat.lt_succ_of_le (List.length_filter_le _ _)
        rw [List.eraseDups_cons]
        refine cons a l _ (ih _ hlt _ rfl) fun b hb => ?_
        simpa using List.mem_eraseDups.1 hb

theorem nodup_eraseDups {α : Type} [DecidableEq α] (l : List α) : l.eraseDups.Nodup :=
  eraseDups_induction (P := fun _ l => l.Nodup) .nil
    (fun _ _ _ hnodup hmem => List.nodup_cons.2 ⟨fun ha => (hmem _ ha).2 rfl, hnodup⟩) l

/-- Each member of a list without duplicates leads to its place. -/
theorem lookup_zipIdx {α : Type} [DecidableEq α] {l : List α} (h : l.Nodup) (a : α) (i : Nat) :
    l.zipIdx.lookup a = some i ↔ l[i]? = some a := by
  rw [← List.mem_zipIdx_iff_getElem? (x := (a, i)), List.lookup_eq_some_iff]
  constructor
  · rintro ⟨before, after, heq, -⟩
    rw [heq]
    exact List.mem_append_right _ (List.mem_cons_self ..)
  · intro hmem
    obtain ⟨before, after, heq⟩ := List.append_of_mem hmem
    refine ⟨before, after, heq, fun e he => ?_⟩
    have hfst : l = before.map Prod.fst ++ a :: after.map Prod.fst := by
      rw [← List.zipIdx_map_fst 0 l, heq, List.map_append, List.map_cons]
    rw [hfst, List.nodup_append] at h
    exact bne_iff_ne.2 (h.2.2 e.1 (List.mem_map_of_mem he) a (List.mem_cons_self ..)).symm

/-- Each member of a list has a place of its own. -/
theorem eq_of_idxOf_eq {α : Type} [DecidableEq α] {l : List α} {a b : α} (ha : a ∈ l) (hb : b ∈ l)
    (h : l.idxOf a = l.idxOf b) : a = b := by
  have hplace {c : α} (hc : c ∈ l) : l[l.idxOf c]? = some c :=
    List.getElem?_eq_some_iff.2 ⟨List.idxOf_lt_length_iff.2 hc, List.getElem_idxOf _⟩
  have hboth := hplace ha
  rw [h, hplace hb] at hboth
  exact (Option.some.inj hboth).symm

/-! ## Positions -/

/-- The graph of some methods, without calls. -/
def ofMethods (methods : List CallNode) (h : (methods.map (·.id)).Nodup) : CallGraph where
  methods
  calls := []
  positions := (methods.map (·.id)).zipIdx
  isPosition := lookup_zipIdx h
  inRange := by simp
  apart := .nil

section Queries

variable (g : CallGraph)

def methodIds : List MethodId := g.methods.map (·.id)

def indices : List Nat := List.range g.methods.length

def nodeAt (i : Nat) : CallNode := g.methods.getD i default

def position? (m : MethodId) : Option Nat := g.positions.lookup m

/-- Methods that a method calls, in the order of identifiers. -/
def calleesOf (m : MethodId) : List MethodId :=
  match g.position? m with
  | none => []
  | some i => sortedSet (·.idx) ((g.calls.filter (·.source = i)).map fun c => (g.nodeAt c.target).id)

/-- Methods that call a method, in the order of identifiers. -/
def callersOf (m : MethodId) : List MethodId :=
  match g.position? m with
  | none => []
  | some i => sortedSet (·.idx) ((g.calls.filter (·.target = i)).map fun c => (g.nodeAt c.source).id)

def call? (caller callee : MethodId) : Option Call := do
  let i ← g.position? caller
  let j ← g.position? callee
  (g.calls.find? (·.ends = (i, j))).map (·.call)

theorem mem_indices {i : Nat} : i ∈ g.indices ↔ i < g.methods.length := List.mem_range

/-- The method of a node stands at the position of the node. -/
theorem getElem?_methodIds {i : Nat} {m : MethodId} :
    g.methodIds[i]? = some m ↔ i < g.methods.length ∧ (g.nodeAt i).id = m := by
  rw [methodIds, nodeAt, List.getElem?_map, List.getD_eq_getElem?_getD]
  by_cases hi : i < g.methods.length
  · simp [hi]
  · simp [hi]

/-- A method is found where it stands. -/
theorem position?_eq_some_iff {m : MethodId} {i : Nat} :
    g.position? m = some i ↔ i < g.methods.length ∧ (g.nodeAt i).id = m := by
  rw [← getElem?_methodIds]
  exact g.isPosition m i

/-- Different positions have different methods. -/
theorem eq_of_id_nodeAt {i j : Nat} (hi : i < g.methods.length) (hj : j < g.methods.length)
    (h : (g.nodeAt i).id = (g.nodeAt j).id) : i = j := by
  have hpi := g.position?_eq_some_iff.2 ⟨hi, h⟩
  have hpj := g.position?_eq_some_iff.2 ⟨hj, rfl⟩
  exact Option.some.inj (hpi.symm.trans hpj)

end Queries

/-! ## Merging contexts -/

/-- A call edge without its contexts. -/
structure Projection where
  caller : MethodId
  callee : MethodId
  stmt : StmtId
  kind : CallKind
  deriving DecidableEq, Repr

/-- The edges of a solution without their contexts. -/
def projections (r : Solution) : List Projection :=
  r.state.calls.edges.toList.map fun e =>
    let stmt := (r.state.elements.callSite e.callSite).stmt
    ⟨(r.program.stmtAt stmt).method, (r.state.elements.method e.callee).method, stmt, e.kind⟩

/-- The calls between two methods, given all edges between them. -/
def callOf? : List Projection → Option Call
  | [] => none
  | es => some ⟨sortedSet (·.idx) (es.map (·.stmt)), CallKind.all.filter (· ∈ es.map (·.kind))⟩

/-- The positions of the two ends of an edge. There are none if an end is no method of the graph. -/
def ends? (g : CallGraph) (e : Projection) : Option (Nat × Nat) := do
  let i ← g.position? e.caller
  let j ← g.position? e.callee
  return (i, j)

/-- The calls that edges make, by the positions of caller and callee. An edge is left out unless both of
its ends are methods of the graph. -/
def arcsOf (g : CallGraph) (edges : List Projection) : List CallArc :=
  -- Positions are looked up once for each edge.
  let placed := edges.filterMap fun e => (g.ends? e).map (·, e)
  g.indices.flatMap fun i =>
    let out := placed.filter (·.1.1 = i)
    g.indices.filterMap fun j =>
      (callOf? ((out.filter (·.1.2 = j)).map (·.2))).map (⟨i, j, ·⟩)

/-- Calls of edges join positions of the graph. -/
theorem inRange_of_mem_arcsOf {g : CallGraph} {edges : List Projection} {c : CallArc}
    (h : c ∈ g.arcsOf edges) : c.source < g.methods.length ∧ c.target < g.methods.length := by
  obtain ⟨i, hi, hc⟩ := List.mem_flatMap.1 h
  obtain ⟨j, hj, hcall⟩ := List.mem_filterMap.1 hc
  obtain ⟨call, -, rfl⟩ := Option.map_eq_some_iff.1 hcall
  exact ⟨g.mem_indices.1 hi, g.mem_indices.1 hj⟩

/-- Each pair of positions is looked at once. -/
theorem nodup_arcsOf (g : CallGraph) (edges : List Projection) :
    ((g.arcsOf edges).map (·.ends)).Nodup := by
  have hrange : g.indices.Pairwise (· ≠ ·) := List.nodup_range
  rw [List.nodup_iff_pairwise_ne, List.pairwise_map, arcsOf, List.pairwise_flatMap]
  constructor
  · intro i _
    refine List.pairwise_filterMap.2 (hrange.imp fun {j j'} hne c hc c' hc' heq => hne ?_)
    obtain ⟨call, -, rfl⟩ := Option.map_eq_some_iff.1 hc
    obtain ⟨call', -, rfl⟩ := Option.map_eq_some_iff.1 hc'
    exact congrArg Prod.snd heq
  · refine hrange.imp fun {i i'} hne c hc c' hc' heq => hne ?_
    obtain ⟨j, -, hcall⟩ := List.mem_filterMap.1 hc
    obtain ⟨j', -, hcall'⟩ := List.mem_filterMap.1 hc'
    obtain ⟨call, -, rfl⟩ := Option.map_eq_some_iff.1 hcall
    obtain ⟨call', -, rfl⟩ := Option.map_eq_some_iff.1 hcall'
    exact congrArg Prod.fst heq

/-- The graph with the calls that edges make, in place of its own. -/
def withCalls (g : CallGraph) (edges : List Projection) : CallGraph :=
  { g with
    calls := g.arcsOf edges
    inRange := fun _ => inRange_of_mem_arcsOf
    apart := g.nodup_arcsOf edges }

/-- The node of a method. -/
def nodeOf (p : Program) (entries : List MethodId) (m : MethodId) : CallNode :=
  let method := p.methodAt m
  ⟨m, (p.classAt method.owner).name, method.ref.subsignature.name, method.ref.text,
    method.body?.isSome, entries.contains m⟩

/-- The call graph of a solution, without contexts. -/
def ofSolution (r : Solution) : CallGraph :=
  let methodOf m := (r.state.elements.method m).method
  let entries := r.state.calls.entries.toList.map methodOf
  -- A method is reachable once for each of its contexts.
  let methods := (r.reachableCsMethods.map methodOf).eraseDups
  (ofMethods (methods.map (nodeOf r.program entries)) (by
    rw [List.map_map]
    exact (List.map_id methods).symm ▸ nodup_eraseDups _)).withCalls (projections r)

/-! ## Restriction -/

/-- Positions from which calls lead directly to a position. -/
def sourcesOf (g : CallGraph) (i : Nat) : List Nat :=
  (g.calls.filter (·.target = i)).map (·.source)

/-- Positions from which calls lead to a method that is chosen. -/
def leadingTo (g : CallGraph) (chosen : CallNode → Bool) : List Nat :=
  reach g.sourcesOf (g.calls.length + g.methods.length + 1) g.indices
    (g.indices.filter fun i => chosen (g.nodeAt i))

section Part

variable (g : CallGraph) (keep : Nat → Bool)

/-- The positions that are kept, in order. -/
def kept : List Nat := g.indices.filter keep

theorem mem_kept {i : Nat} : i ∈ g.kept keep ↔ i < g.methods.length ∧ keep i = true := by
  rw [kept, List.mem_filter, mem_indices]

/-- The calls between positions that are kept. -/
theorem mem_kept_of_arc {c : CallArc}
    (h : c ∈ g.calls.filter fun c => keep c.source && keep c.target) :
    c.source ∈ g.kept keep ∧ c.target ∈ g.kept keep := by
  obtain ⟨hc, hkeep⟩ := List.mem_filter.1 h
  rw [Bool.and_eq_true] at hkeep
  obtain ⟨hsource, htarget⟩ := g.inRange c hc
  exact ⟨(g.mem_kept keep).2 ⟨hsource, hkeep.1⟩, (g.mem_kept keep).2 ⟨htarget, hkeep.2⟩⟩

/-- The methods that are kept stay apart. -/
theorem nodup_kept : ((g.kept keep).map fun i => (g.nodeAt i).id).Nodup := by
  have hkept : (g.kept keep).Pairwise (· ≠ ·) := List.nodup_range.sublist List.filter_sublist
  refine List.pairwise_map.2 (hkept.imp_of_mem fun hi hj hne heq => hne ?_)
  exact g.eq_of_id_nodeAt ((g.mem_kept keep).1 hi).1 ((g.mem_kept keep).1 hj).1 heq

/-- The part of the graph at the positions that are kept. The methods that are left close up, so calls and
the table get new positions. -/
def part : CallGraph where
  methods := (g.kept keep).map g.nodeAt
  calls := (g.calls.filter fun c => keep c.source && keep c.target).map fun c =>
    ⟨(g.kept keep).idxOf c.source, (g.kept keep).idxOf c.target, c.call⟩
  positions := (((g.kept keep).map g.nodeAt).map (·.id)).zipIdx
  isPosition := lookup_zipIdx (by
    rw [List.map_map]
    exact g.nodup_kept keep)
  inRange := by
    intro c hc
    obtain ⟨c, hmem, rfl⟩ := List.mem_map.1 hc
    obtain ⟨hsource, htarget⟩ := g.mem_kept_of_arc keep hmem
    rw [List.length_map]
    exact ⟨List.idxOf_lt_length_iff.2 hsource, List.idxOf_lt_length_iff.2 htarget⟩
  apart := by
    have hcalls := (List.pairwise_map.1 g.apart).sublist
      (List.filter_sublist (p := fun c => keep c.source && keep c.target))
    rw [List.map_map]
    refine List.pairwise_map.2 (hcalls.imp_of_mem fun hc hc' hne heq => hne ?_)
    obtain ⟨hsource, htarget⟩ := g.mem_kept_of_arc keep hc
    obtain ⟨hsource', htarget'⟩ := g.mem_kept_of_arc keep hc'
    exact Prod.ext (eq_of_idxOf_eq hsource hsource' (congrArg Prod.fst heq))
      (eq_of_idxOf_eq htarget htarget' (congrArg Prod.snd heq))

end Part

/-- Restricts the graph to the chosen methods and their direct and indirect callers. -/
def restrict (g : CallGraph) (chosen : CallNode → Bool) : CallGraph :=
  let leading := g.leadingTo chosen
  g.part fun i => decide (i ∈ leading)

/-! ## Drawing -/

def dotAttributes (n : CallNode) : String :=
  if n.isEntry then "color=blue,shape=box"
  else if !n.isDefined then "color=red,shape=box"
  else "color=black,shape=box"

def dot (g : CallGraph) : String :=
  "digraph \x7b\n  rankdir=LR;\n"
    ++ String.join (g.methods.zipIdx.map fun n => Dot.node n.2 n.1.text (dotAttributes n.1))
    ++ String.join (g.calls.map fun c => Dot.labelledEdge c.source c.target c.call.text)
    ++ "\x7d"

end CallGraph

end PointsTo
