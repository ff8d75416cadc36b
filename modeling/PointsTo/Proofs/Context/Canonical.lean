import Mathlib.Data.List.Induction
import PointsTo.Proofs.Solver.Tables

/-! # Canonical elements

The tables of an analysis after any history of requests: elements of the four kinds are interned, and
objects are added to pointers. An identifier is given to one element only, and is the place of the element
among those of its kind in the order in which they were first asked for. Each pointer has a set of its
own, to which only additions to that pointer contribute.
-/

namespace PointsTo.Elements

/-! ## Elements of all kinds -/

/-- The kinds of elements. Each has a numbering of its own. -/
inductive Kind where
  | pointer
  | object
  | callSite
  | method
  deriving DecidableEq

/-- An element of some kind. -/
inductive Item where
  | pointer (p : Pointer)
  | object (o : CsObject)
  | callSite (s : CsCallSite)
  | method (m : CsMethod)
  deriving DecidableEq

/-- The identifier of an element of some kind. -/
inductive ItemId where
  | pointer (i : PointerId)
  | object (i : CsObjectId)
  | callSite (i : CsCallSiteId)
  | method (i : CsMethodId)
  deriving DecidableEq

def Item.kind : Item → Kind
  | pointer _ => .pointer
  | object _ => .object
  | callSite _ => .callSite
  | method _ => .method

def ItemId.kind : ItemId → Kind
  | pointer _ => .pointer
  | object _ => .object
  | callSite _ => .callSite
  | method _ => .method

/-- The position of an identifier in the table of its kind. -/
def ItemId.idx : ItemId → Nat
  | pointer i => i.idx
  | object i => i.idx
  | callSite i => i.idx
  | method i => i.idx

def intern (e : Elements) : Item → ItemId × Elements
  | .pointer p => (e.internPointer p).map .pointer id
  | .object o => (e.internObject o).map .object id
  | .callSite s => (e.internCallSite s).map .callSite id
  | .method m => (e.internMethod m).map .method id

def find? (e : Elements) : Item → Option ItemId
  | .pointer p => (e.findPointer? p).map .pointer
  | .object o => (e.findObject? o).map .object
  | .callSite s => (e.findCallSite? s).map .callSite
  | .method m => (e.findMethod? m).map .method

def get (e : Elements) : ItemId → Item
  | .pointer i => .pointer (e.pointer i)
  | .object i => .object (e.object i)
  | .callSite i => .callSite (e.callSite i)
  | .method i => .method (e.method i)

def items (e : Elements) : Kind → List Item
  | .pointer => e.pointers.items.toList.map .pointer
  | .object => e.objects.items.toList.map .object
  | .callSite => e.callSites.items.toList.map .callSite
  | .method => e.methods.items.toList.map .method

/-- The identifier is that of the element. -/
def Names (e : Elements) (i : ItemId) (x : Item) : Prop :=
  i.kind = x.kind ∧ (e.items x.kind)[i.idx]? = some x

variable {e f g : Elements} {i j : ItemId} {x y : Item} {k : Kind}

/-- An element is found under an identifier if the identifier names it. -/
theorem find?_eq_some_iff : e.find? x = some i ↔ e.Names i x := by
  obtain ⟨⟨n⟩⟩ | ⟨⟨n⟩⟩ | ⟨⟨n⟩⟩ | ⟨⟨n⟩⟩ := i <;> cases x <;>
    simp [find?, Names, items, findPointer?, findObject?, findCallSite?, findMethod?,
      ItemId.kind, Item.kind, ItemId.idx, Table.find?_eq_some_iff]

/-- There are as many items of the kind of pointers as there are pointers. -/
theorem length_items_pointer (e : Elements) : (e.items .pointer).length = e.pointers.size :=
  List.length_map _

/-- Interning adds the element to those of its kind, unless it was there before. -/
theorem items_intern : (e.intern x).2.items k =
    if x.kind = k ∧ x ∉ e.items k then e.items k ++ [x] else e.items k := by
  cases x <;> cases k <;>
    simp [intern, items, internPointer, internObject, internCallSite, internMethod, Item.kind,
      Table.toList_intern, apply_ite (List.map _)]

/-- The identifier that is given names the element. -/
theorem names_intern : (e.intern x).2.Names (e.intern x).1 x := by
  cases x <;>
    simp [intern, Names, items, internPointer, internObject, internCallSite, internMethod,
      Item.kind, ItemId.kind, ItemId.idx, Table.getElem?_intern_self]

/-- The tables give the element of an identifier. -/
theorem Names.get_eq (h : e.Names i x) : e.get i = x := by
  obtain ⟨hkind, hx⟩ := h
  cases i <;> cases x <;> cases hkind <;>
    simp only [items, Item.kind, ItemId.idx, List.getElem?_map, Array.getElem?_toList,
      Option.map_eq_some_iff] at hx
  all_goals
    obtain ⟨_, ha, heq⟩ := hx
    cases heq
    exact congrArg _ (Table.get_of_getElem? ha)

theorem Names.lt (h : e.Names i x) : i.idx < (e.items x.kind).length :=
  (List.getElem?_eq_some_iff.1 h.2).1

theorem Names.mem (h : e.Names i x) : x ∈ e.items x.kind := List.mem_of_getElem? h.2

/-- An element has one identifier at most. -/
theorem Names.unique (hi : e.Names i x) (hj : e.Names j x) : i = j :=
  Option.some.inj ((find?_eq_some_iff.2 hi).symm.trans (find?_eq_some_iff.2 hj))

/-! ## Later tables -/

/-- The second tables have all elements of the first ones, with the same identifiers. -/
def Extends (e f : Elements) : Prop := ∀ k, e.items k <+: f.items k

theorem Extends.refl (e : Elements) : e.Extends e := fun _ => List.prefix_rfl

theorem Extends.trans (hef : e.Extends f) (hfg : f.Extends g) : e.Extends g := fun k =>
  (hef k).trans (hfg k)

/-- Identifiers keep their meaning when the tables are extended. -/
theorem Extends.names (hef : e.Extends f) (h : e.Names i x) : f.Names i x := by
  obtain ⟨later, hlater⟩ := hef x.kind
  refine ⟨h.1, ?_⟩
  rw [← hlater, List.getElem?_append_left h.lt]
  exact h.2

/-- Adding an element extends the tables. -/
theorem extends_intern (e : Elements) (x : Item) : e.Extends (e.intern x).2 := fun k => by
  rw [items_intern]
  split
  · exact List.prefix_append _ _
  · exact List.prefix_rfl

@[simp] theorem items_addObjects (e : Elements) (i : PointerId) (objects : ObjectSet) :
    (e.addObjects i objects).items = e.items := by
  funext k
  cases k <;> rfl

/-! ## Sets of objects -/

/-- There is one set for each pointer. -/
def OneSetEach (e : Elements) : Prop := e.sets.stored.size = e.pointers.size

theorem pointsTo_intern (e : Elements) (x : Item) : (e.intern x).2.pointsTo = e.pointsTo := by
  cases x with
  | pointer p => exact e.pointsTo_internPointer p
  | _ => rfl

/-- A new pointer has a set of its own. -/
theorem OneSetEach.intern (h : e.OneSetEach) (x : Item) : (e.intern x).2.OneSetEach := by
  cases x with
  | pointer p =>
      have hle : e.pointers.size ≤ (e.pointers.intern p).2.size :=
        (e.pointers.extends_intern p).size_le
      rw [OneSetEach] at h
      show (e.sets.grow (e.pointers.intern p).2.size).stored.size = (e.pointers.intern p).2.size
      rw [Family.size_grow]
      omega
  | _ => exact h

/-- Objects for a pointer that is there go into the set of the pointer. -/
theorem OneSetEach.addObjects (h : e.OneSetEach) {i : PointerId} (hi : i.idx < e.pointers.size)
    (objects : ObjectSet) : (e.addObjects i objects).OneSetEach := by
  rw [OneSetEach] at h
  exact (Family.size_update_of_lt _ (h ▸ hi)).trans h

/-- A pointer that is not there has no objects. -/
theorem OneSetEach.pointsTo_eq_empty (h : e.OneSetEach) {i : PointerId}
    (hi : e.pointers.size ≤ i.idx) : e.pointsTo i = .empty := by
  rw [← h] at hi
  exact Family.get_of_size_le _ hi

/-- A pointer has the objects that it had and those that are added to it. -/
theorem contains_pointsTo_addObjects {i j : PointerId} {objects : ObjectSet} {o : CsObjectId} :
    ((e.addObjects i objects).pointsTo j).contains o = true ↔
      (e.pointsTo j).contains o = true ∨ j = i ∧ objects.contains o = true := by
  cases i
  cases j
  simp only [pointsTo, addObjects, Family.get_update, PointerId.mk.injEq]
  split
  · rename_i heq
    simp [heq]
  · rename_i hne
    simp [hne]

/-! ## Histories -/

/-- What is asked of the tables. -/
inductive Request where
  /-- The identifier of an element, which is added if it is new. -/
  | intern (x : Item)
  /-- To add objects to those of a pointer. -/
  | add (i : PointerId) (objects : ObjectSet)

def Request.item? : Request → Option Item
  | intern x => some x
  | add _ _ => none

def apply (e : Elements) : Request → Elements
  | .intern x => (e.intern x).2
  | .add i objects => e.addObjects i objects

def after (rs : List Request) : Elements := rs.foldl apply .empty

/-- The answer to a request for the identifier of an element. -/
def answer (before : List Request) (x : Item) : ItemId := ((after before).intern x).1

/-- The elements of a kind that were asked for, each once, in the order of their first requests. -/
def requested (rs : List Request) (k : Kind) : List Item :=
  ((rs.filterMap Request.item?).filter (·.kind = k)).eraseDups

/-- Histories in which objects are only added to pointers that are there. -/
inductive Legal : List Request → Prop
  | nil : Legal []
  | intern {rs : List Request} (h : Legal rs) (x : Item) : Legal (rs ++ [.intern x])
  | add {rs : List Request} (h : Legal rs) {i : PointerId} (hi : i.idx < (after rs).pointers.size)
      (objects : ObjectSet) : Legal (rs ++ [.add i objects])

variable {rs before before' : List Request}

/-- A longer history ends with its last request. -/
@[simp] theorem after_concat (rs : List Request) (r : Request) :
    after (rs ++ [r]) = (after rs).apply r := by
  rw [after, List.foldl_append]
  rfl

/-- What comes first in a legal history is a legal one. -/
theorem Legal.of_prefix (h : Legal rs) (hbefore : before <+: rs) : Legal before := by
  induction h with
  | nil => rw [List.prefix_nil.1 hbefore]; exact .nil
  | intern h x ih =>
      rcases List.prefix_concat_iff.1 hbefore with rfl | hbefore
      · exact h.intern x
      · exact ih hbefore
  | add h hi objects ih =>
      rcases List.prefix_concat_iff.1 hbefore with rfl | hbefore
      · exact h.add hi objects
      · exact ih hbefore

/-- A list without duplicates gets a new item at the end unless it is in the list. -/
theorem eraseDups_concat {α : Type} [DecidableEq α] (l : List α) (a : α) :
    (l ++ [a]).eraseDups = if a ∈ l then l.eraseDups else l.eraseDups ++ [a] := by
  rw [List.eraseDups_append]
  split <;> simp [List.removeAll, List.eraseDups_cons, *]

/-- The elements that were asked for are those of the requests for an identifier. -/
theorem mem_filterMap_item? {x : Item} : x ∈ rs.filterMap Request.item? ↔ .intern x ∈ rs := by
  rw [List.mem_filterMap]
  constructor
  · rintro ⟨r, hr, hx⟩
    cases r <;> cases hx
    exact hr
  · exact fun h => ⟨_, h, rfl⟩

theorem mem_requested {x : Item} {k : Kind} : x ∈ requested rs k ↔ .intern x ∈ rs ∧ x.kind = k := by
  rw [requested, List.mem_eraseDups, List.mem_filter, mem_filterMap_item?, decide_eq_true_eq]

/-- A request for an element that is new adds it to those of its kind. -/
theorem requested_intern (rs : List Request) (x : Item) (k : Kind) :
    requested (rs ++ [.intern x]) k =
      if x.kind = k ∧ x ∉ requested rs k then requested rs k ++ [x] else requested rs k := by
  have hitem : [Request.intern x].filterMap Request.item? = [x] := rfl
  have hkind : [x].filter (·.kind = k) = if x.kind = k then [x] else [] := by
    simp [List.filter_cons]
  simp only [requested, List.filterMap_append, hitem, List.filter_append, hkind]
  by_cases hk : x.kind = k
  · simp only [hk, if_true, eraseDups_concat, true_and, List.mem_eraseDups, ite_not]
  · simp [hk]

theorem requested_add (rs : List Request) (i : PointerId) (objects : ObjectSet) (k : Kind) :
    requested (rs ++ [.add i objects]) k = requested rs k := by
  have hitem : [Request.add i objects].filterMap Request.item? = [] := rfl
  rw [requested, List.filterMap_append, hitem, List.append_nil, requested]

/-- A table has what was asked for. -/
theorem items_after (rs : List Request) (k : Kind) : (after rs).items k = requested rs k := by
  induction rs using List.reverseRecOn with
  | nil => cases k <;> rfl
  | append_singleton rs r ih =>
      rw [after_concat]
      cases r with
      | intern x =>
          rw [apply, items_intern, ih, requested_intern]
      | add i objects =>
          rw [apply, items_addObjects, ih, requested_add]

/-- Every request extends the tables. -/
theorem extends_apply (e : Elements) (r : Request) : e.Extends (e.apply r) := by
  cases r with
  | intern x => exact e.extends_intern x
  | add i objects =>
      intro k
      simp only [apply, items_addObjects, List.prefix_rfl]

/-- Tables only grow in the course of a history. -/
theorem extends_after (h : before <+: rs) : (after before).Extends (after rs) := by
  obtain ⟨later, rfl⟩ := h
  rw [after, after, List.foldl_append]
  exact List.foldlRecOn later apply (.refl _) fun e he r _ => he.trans (e.extends_apply r)

/-- From a request on, the tables have the element with the identifier of the answer. -/
theorem names_answer (h : before ++ [.intern x] <+: rs) : (after rs).Names (answer before x) x := by
  refine (extends_after h).names ?_
  rw [after_concat]
  exact names_intern

/-- After a legal history each pointer has one set. -/
theorem Legal.oneSetEach (h : Legal rs) : (after rs).OneSetEach := by
  induction h with
  | nil => rfl
  | intern _ x ih => rw [after_concat]; exact ih.intern x
  | add _ hi objects ih => rw [after_concat]; exact ih.addObjects hi objects

/-- The objects of a pointer are those that were added to it. -/
theorem contains_pointsTo_after {i : PointerId} {o : CsObjectId} :
    ((after rs).pointsTo i).contains o = true ↔
      ∃ objects, .add i objects ∈ rs ∧ objects.contains o = true := by
  -- By induction on the history from its end, since the last request is applied to the tables after the
  -- others.
  induction rs using List.reverseRecOn with
  | nil =>
      rw [show (after []).pointsTo i = .empty from Family.get_empty i.idx]
      simp
  | append_singleton rs r ih =>
      rw [after_concat]
      cases r with
      | intern x =>
          rw [apply, pointsTo_intern, ih]
          simp
      | add j objects =>
          rw [apply, contains_pointsTo_addObjects, ih]
          simp only [List.mem_append, List.mem_singleton, Request.add.injEq]
          constructor
          · rintro (⟨set, hmem, ho⟩ | ⟨rfl, ho⟩)
            · exact ⟨set, Or.inl hmem, ho⟩
            · exact ⟨objects, Or.inr ⟨rfl, rfl⟩, ho⟩
          · rintro ⟨set, hmem | ⟨rfl, rfl⟩, ho⟩
            · exact Or.inl ⟨set, hmem, ho⟩
            · exact Or.inr ⟨rfl, ho⟩

/-- What a history makes of the tables. -/
structure Canonical (rs : List Request) : Prop where
  /-- Two requests have the same answer if they are for the same element, and only then. -/
  answer_eq_iff : ∀ {before before' : List Request} {x y : Item}, before ++ [.intern x] <+: rs →
    before' ++ [.intern y] <+: rs → (answer before x = answer before' y ↔ x = y)
  /-- The element of an answer is the one that was asked for, whatever was asked since. -/
  get_answer : ∀ {before : List Request} {x : Item}, before ++ [.intern x] <+: rs →
    (after rs).get (answer before x) = x
  /-- Elements are found if they were asked for, with the answer that was given then. -/
  find?_eq_some_iff : ∀ (x : Item) (i : ItemId), (after rs).find? x = some i ↔
    ∃ before, before ++ [.intern x] <+: rs ∧ answer before x = i
  /-- The tables have the elements that were asked for, in the order of their first requests. -/
  items : ∀ k, (after rs).items k = requested rs k
  /-- Identifiers are positions in this order, counted from zero. -/
  position : ∀ {before : List Request} {x : Item}, before ++ [.intern x] <+: rs →
    (answer before x).kind = x.kind ∧ (requested rs x.kind)[(answer before x).idx]? = some x
  /-- A new element has the next identifier of its kind. -/
  next : ∀ {before : List Request} {x : Item}, before ++ [.intern x] <+: rs → .intern x ∉ before →
    (answer before x).idx = (requested before x.kind).length
  /-- The pointers of a variable are listed in the order in which they were made. -/
  pointersOf : ∀ v, (after rs).pointersOf v =
    (after rs).pointerIds.filter fun i => ((after rs).pointer i).varId? = some v
  /-- There is a set for each pointer, and no other one. -/
  oneSetEach : (after rs).OneSetEach
  /-- A new pointer has no objects. -/
  empty : ∀ {before : List Request} {p : Pointer}, before ++ [.intern (.pointer p)] <+: rs →
    .intern (.pointer p) ∉ before → ∃ i, answer before (.pointer p) = .pointer i ∧
      (after (before ++ [.intern (.pointer p)])).pointsTo i = .empty
  /-- To ask for an element changes no set. -/
  unchanged : ∀ {before : List Request} {x : Item}, before ++ [.intern x] <+: rs →
    (after (before ++ [.intern x])).pointsTo = (after before).pointsTo
  /-- The objects of a pointer are those that were added to it. -/
  contains_iff : ∀ i o, ((after rs).pointsTo i).contains o = true ↔
    ∃ objects, .add i objects ∈ rs ∧ objects.contains o = true

/-- An element that is new is numbered by how many of its kind there were. -/
theorem idx_answer_of_not_mem {x : Item} (h : .intern x ∉ before) :
    (answer before x).idx = (requested before x.kind).length := by
  have hx : x ∉ requested before x.kind := fun hx => h (mem_requested.1 hx).1
  have hitem := (names_answer (List.prefix_refl (before ++ [.intern x]))).2
  rw [items_after, requested_intern, if_pos ⟨rfl, hx⟩] at hitem
  -- the new element is at the end, since it is nowhere before
  have hlast : ¬ (answer before x).idx < (requested before x.kind).length := fun hlt => by
    rw [List.getElem?_append_left hlt] at hitem
    exact hx (List.mem_of_getElem? hitem)
  have hlt := (List.getElem?_eq_some_iff.1 hitem).1
  rw [List.length_append, List.length_singleton] at hlt
  omega

/-- Each request of a history comes after some others. -/
theorem exists_prefix_of_mem {r : Request} (h : r ∈ rs) : ∃ before, before ++ [r] <+: rs := by
  obtain ⟨before, later, rfl⟩ := List.append_of_mem h
  exact ⟨before, later, by simp⟩

/-- Two requests for an element have the same answer if they are for the same one, and identifiers keep
their meaning; new elements are numbered in order, each kind for itself; and pointers have one set each,
which is empty at first and has what was added to the pointer. -/
theorem canonical_of_legal (h : Legal rs) : Canonical rs where
  -- An identifier names one element and an element has one identifier, before and after later requests.
  answer_eq_iff {before before' x y} hx hy := by
    constructor
    · intro heq
      rw [← (names_answer hx).get_eq, heq, (names_answer hy).get_eq]
    · rintro rfl
      exact (names_answer hx).unique (names_answer hy)
  get_answer hx := (names_answer hx).get_eq
  find?_eq_some_iff x i := by
    rw [find?_eq_some_iff]
    constructor
    · intro hi
      have hmem := hi.mem
      rw [items_after, mem_requested] at hmem
      obtain ⟨before, hbefore⟩ := exists_prefix_of_mem hmem.1
      exact ⟨before, hbefore, (names_answer hbefore).unique hi⟩
    · rintro ⟨before, hbefore, rfl⟩
      exact names_answer hbefore
  items := items_after rs
  position hx := by
    obtain ⟨hkind, hitem⟩ := names_answer hx
    exact ⟨hkind, by rwa [items_after] at hitem⟩
  next _ hnew := idx_answer_of_not_mem hnew
  pointersOf := (after rs).pointersOf_eq
  oneSetEach := h.oneSetEach
  -- The new pointer has no set yet, because there were as many sets as pointers before it.
  empty {before p} hp hnew := by
    refine ⟨_, rfl, ?_⟩
    rw [after_concat, apply, pointsTo_intern]
    have hbefore := h.of_prefix ((List.prefix_append _ _).trans hp)
    have hidx := idx_answer_of_not_mem hnew
    rw [← items_after] at hidx
    exact hbefore.oneSetEach.pointsTo_eq_empty
      (Nat.le_of_eq (hidx.trans (after before).length_items_pointer).symm)
  unchanged {before x} _ := by rw [after_concat, apply, pointsTo_intern]
  contains_iff _ _ := contains_pointsTo_after

/-- A history with two pointers of one variable, a field of an object, and objects that are added. -/
def Request.sample : List Request :=
  [.intern (.pointer (.var [] ⟨0⟩)), .intern (.object ⟨[], ⟨0⟩, ⟨0⟩⟩), .add ⟨0⟩ (.singleton ⟨0⟩),
    .intern (.pointer (.var [.callSite ⟨0⟩] ⟨0⟩)), .intern (.pointer (.instanceField ⟨0⟩ ⟨0⟩)),
    .intern (.pointer (.var [] ⟨0⟩)), .add ⟨2⟩ (.singleton ⟨0⟩)]

/-- Objects are added to the first pointer after it was asked for. -/
theorem Legal.sample : Legal Request.sample :=
  ((((((Legal.nil.intern _).intern _).add (by decide) _).intern _).intern _).intern _).add
    (by decide) _

/-- The history asks for the first pointer again and gets the same identifier. -/
theorem canonical_of_legal_sample : Legal Request.sample ∧ Canonical Request.sample ∧
    answer (Request.sample.take 5) (.pointer (.var [] ⟨0⟩)) = .pointer ⟨0⟩ ∧
    (after Request.sample).pointersOf ⟨0⟩ = [⟨0⟩, ⟨1⟩] :=
  ⟨Legal.sample, canonical_of_legal Legal.sample, by decide, by decide⟩

end PointsTo.Elements
