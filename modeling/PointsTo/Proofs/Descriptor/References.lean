import PointsTo.Proofs.Descriptor.RoundTrip
import PointsTo.Proofs.Program.Consistency

/-! # Method references are read back

A method reference is cut at its separators from the left: the class ends at the first semicolon, the name
at the first opening parenthesis behind it, the parameters at the first closing one. So a text can be read
exactly if it is the text of a reference whose parts keep clear of the separators behind them and whose
types can be read back. A method of a program is found under its own text if its reference is of this kind.
-/

namespace PointsTo

namespace MethodRef

/-- Each part of the reference keeps clear of the separator behind it, and the types can be read back. -/
structure IsReadable (r : MethodRef) : Prop where
  className : r.className ≠ "" ∧ ';' ∉ r.className.toList
  name : r.subsignature.name ≠ "" ∧ '(' ∉ r.subsignature.name.toList
  params : Ty.parseList (String.join (r.subsignature.params.map Ty.descriptor)) =
    .ok r.subsignature.params
  paramsClear : ∀ t ∈ r.subsignature.params, ')' ∉ t.descriptor.toList
  result : Ty.parse r.subsignature.result.descriptor = .ok r.subsignature.result
  resultClear : '\n' ∉ r.subsignature.result.descriptor.toList

/-! ## Parts between separators -/

/-- The parts with the separators between them. -/
def Parts.chars (x : Parts) : List Char :=
  'L' :: x.className ++ ';' :: '-' :: '>' :: (x.name ++ '(' :: (x.params ++ ')' :: x.result))

/-- The parts are not empty, apart from the parameters, and they keep clear of the separators behind
them. -/
structure Parts.IsClear (x : Parts) : Prop where
  className : x.className ≠ [] ∧ ';' ∉ x.className
  name : x.name ≠ [] ∧ '(' ∉ x.name
  params : ')' ∉ x.params
  result : x.result ≠ [] ∧ '\n' ∉ x.result

/-- The class of a reference is what stands between its first letter and the first semicolon, and an
arrow follows. -/
theorem splitClass?_eq_some_iff {cs owner rest : List Char} :
    splitClass? cs = some (owner, rest) ↔
      (owner ≠ [] ∧ ';' ∉ owner) ∧ 'L' :: owner ++ ';' :: '-' :: '>' :: rest = cs := by
  constructor
  · intro h
    unfold splitClass? at h
    -- Every other branch of the match gives nothing.
    split at h
    · split at h
      · cases h
      · rename_i hdrop hne
        cases h
        obtain ⟨-, hnot, hcs⟩ := cut_of_dropWhile hdrop
        exact ⟨⟨hne, hnot⟩, congrArg ('L' :: ·) hcs⟩
      · cases h
    · cases h
  · rintro ⟨⟨hne, hnot⟩, rfl⟩
    rw [List.cons_append, splitClass?, takeWhile_cut hnot, dropWhile_cut hnot]
    cases owner with
    | nil => exact absurd rfl hne
    | cons c owner => rfl

/-- A text is cut into parts exactly if it is made of them, and they keep clear of the separators. -/
theorem split?_eq_some_iff {cs : List Char} {x : Parts} :
    split? cs = some x ↔ x.IsClear ∧ x.chars = cs := by
  constructor
  · intro h
    -- Each separator is looked for in what the one before left over, so the text comes together from
    -- the back.
    obtain ⟨⟨owner, rest⟩, hclass, hrest⟩ := Option.bind_eq_some_iff.1 h
    obtain ⟨howner, rfl⟩ := splitClass?_eq_some_iff.1 hclass
    dsimp only at hrest
    split at hrest
    · cases hrest
    rename_i hname
    split at hrest
    · rename_i hopen
      obtain ⟨-, hnameClear, hcs⟩ := cut_of_dropWhile hopen
      split at hrest
      · rename_i hclose
        obtain ⟨-, hparams, hcs'⟩ := cut_of_dropWhile hclose
        split at hrest
        · cases hrest
        · rename_i hresult
          cases hrest
          rw [not_or] at hresult
          refine ⟨⟨howner, ⟨hname, hnameClear⟩, hparams, hresult⟩, ?_⟩
          rw [Parts.chars, hcs', hcs]
      · cases hrest
    · cases hrest
  -- Every part ends at its separator, since the separator does not occur in it.
  · rintro ⟨⟨howner, ⟨hname, hnameClear⟩, hparams, hresult⟩, rfl⟩
    have hclass : splitClass? x.chars =
        some (x.className, x.name ++ '(' :: (x.params ++ ')' :: x.result)) :=
      splitClass?_eq_some_iff.2 ⟨howner, rfl⟩
    refine Option.bind_eq_some_iff.2 ⟨_, hclass, ?_⟩
    dsimp only
    rw [takeWhile_cut hnameClear, dropWhile_cut hnameClear, if_neg hname]
    dsimp only
    rw [takeWhile_cut hparams, dropWhile_cut hparams]
    dsimp only
    rw [if_neg (not_or.2 hresult)]

/-! ## References -/

variable {r : MethodRef}

/-- The parts of a reference as they are written. -/
def parts (r : MethodRef) : Parts :=
  ⟨r.className.toList, r.subsignature.name.toList, r.subsignature.params.flatMap Ty.chars,
    r.subsignature.result.chars⟩

theorem toList_text (r : MethodRef) : r.text.toList = r.parts.chars := by
  simp [text, Subsignature.text, parts, Parts.chars, Ty.descriptor, List.flatMap_map]

/-- Texts of types are read as the types that they are written for, if these can be read back. -/
theorem parseList_ofList {cs : List Char} {ts : List Ty} : Ty.parseList (String.ofList cs) = .ok ts ↔
    (∀ t ∈ ts, t.IsOver Element.IsDelimited) ∧ ts.flatMap Ty.chars = cs := by
  rw [Ty.parseList, String.toList_ofList, Ty.parseListChars_eq_ok_iff]

/-- Reading a list of characters as a type inverts its printing. -/
theorem parse_ofList {cs : List Char} {t : Ty} : Ty.parse (String.ofList cs) = .ok t ↔
    t.IsOver Element.IsNamed ∧ t.chars = cs := by
  rw [Ty.parse, String.toList_ofList, Ty.parseChars_eq_ok_iff]

/-- A reference is made of the parts that a text is cut into, and of the types that they are read as. -/
theorem parse_eq_ok_iff_split? {s : String} : parse s = .ok r ↔ split? s.toList = some r.parts ∧
    (∀ t ∈ r.subsignature.params, t.IsOver Element.IsDelimited) ∧
      r.subsignature.result.IsOver Element.IsNamed := by
  rw [parse]
  constructor
  · intro h
    split at h
    · cases h
    rename_i x hx
    cases hts : Ty.parseList (String.ofList x.params) with
    | error e => simp [hts, bind, Except.bind] at h
    | ok ts =>
        cases ht : Ty.parse (String.ofList x.result) with
        | error e => simp [hts, ht, bind, Except.bind] at h
        | ok t =>
            obtain ⟨hdelimited, hparts⟩ := parseList_ofList.1 hts
            obtain ⟨hnamed, hpart⟩ := parse_ofList.1 ht
            rw [hts, ht] at h
            cases h
            refine ⟨?_, hdelimited, hnamed⟩
            rw [hx, parts, hparts, hpart, String.toList_ofList, String.toList_ofList]
  · rintro ⟨hsplit, hdelimited, hnamed⟩
    rw [hsplit]
    dsimp only [parts]
    rw [parseList_ofList.2 ⟨hdelimited, rfl⟩, parse_ofList.2 ⟨hnamed, rfl⟩]
    simp [bind, Except.bind, pure, Except.pure]

/-- A reference is readable exactly if its parts are clear and its types can be read back. -/
theorem isReadable_iff : r.IsReadable ↔ r.parts.IsClear ∧
    (∀ t ∈ r.subsignature.params, t.IsOver Element.IsDelimited) ∧
      r.subsignature.result.IsOver Element.IsNamed := by
  have hempty (s : String) : s.toList ≠ [] ↔ s ≠ "" := not_congr String.toList_eq_nil_iff
  have hparams : Ty.parseList (String.join (r.subsignature.params.map Ty.descriptor)) =
      .ok r.subsignature.params ↔ ∀ t ∈ r.subsignature.params, t.IsOver Element.IsDelimited := by
    rw [Ty.parseList, Ty.parseListChars_eq_ok_iff, Ty.toList_join_descriptors, and_iff_left rfl]
  have hresult : Ty.parse r.subsignature.result.descriptor = .ok r.subsignature.result ↔
      r.subsignature.result.IsOver Element.IsNamed := by
    rw [Ty.descriptor, parse_ofList, and_iff_left rfl]
  constructor
  · intro h
    refine ⟨⟨⟨(hempty _).2 h.className.1, h.className.2⟩, ⟨(hempty _).2 h.name.1, h.name.2⟩, ?_,
      Ty.chars_ne_nil _, ?_⟩, hparams.1 h.params, hresult.1 h.result⟩
    · intro hmem
      obtain ⟨t, ht, hclose⟩ := List.mem_flatMap.1 hmem
      refine h.paramsClear t ht ?_
      rw [Ty.descriptor, String.toList_ofList]
      exact hclose
    · have hclear := h.resultClear
      rw [Ty.descriptor, String.toList_ofList] at hclear
      exact hclear
  · rintro ⟨hclear, hdelimited, hnamed⟩
    refine ⟨⟨(hempty _).1 hclear.className.1, hclear.className.2⟩,
      ⟨(hempty _).1 hclear.name.1, hclear.name.2⟩, hparams.2 hdelimited, fun t ht hclose => ?_,
      hresult.2 hnamed, ?_⟩
    · rw [Ty.descriptor, String.toList_ofList] at hclose
      exact hclear.params (List.mem_flatMap.2 ⟨t, ht, hclose⟩)
    · rw [Ty.descriptor, String.toList_ofList]
      exact hclear.result.2

/-- A text is read as a reference exactly if it is the text of the reference, and the reference can be
read. -/
theorem parse_eq_ok_iff {s : String} : parse s = .ok r ↔ r.IsReadable ∧ r.text = s := by
  rw [parse_eq_ok_iff_split?, split?_eq_some_iff, isReadable_iff, ← String.toList_inj, toList_text]
  tauto

end MethodRef

/-! ## Methods under their own texts -/

/-- A method is the only one that its reference leads to. -/
theorem Program.findMethod?_eq_some_iff {p : Program} (hrooted : p.Rooted) (hdeclared : p.Declared)
    {r : MethodRef} {m : MethodId} :
    p.findMethod? r = some m ↔ m.idx < p.methods.size ∧ (p.methodAt m).ref = r := by
  constructor
  · intro h
    obtain ⟨c, hc, hm⟩ := Option.bind_eq_some_iff.1 h
    obtain ⟨hlt, howner, hsub⟩ := (hdeclared.method _ _ _).1 hm
    have hname : (p.methodAt m).ref.className = r.className := by
      rw [(hdeclared.methodOwner m hlt).2, howner, ((hrooted.find _ _).1 hc).2]
    cases r
    cases hname
    cases hsub
    exact ⟨hlt, rfl⟩
  · rintro ⟨hlt, rfl⟩
    obtain ⟨howner, hname⟩ := hdeclared.methodOwner m hlt
    have hclass := (hrooted.find _ _).2 ⟨howner, hname.symm⟩
    exact Option.bind_eq_some_iff.2 ⟨_, hclass, (hdeclared.method _ _ _).2 ⟨hlt, rfl, rfl⟩⟩

/-- A text is read as a method reference exactly if it is the text of the reference, and the reference
can be read. So a method of a loaded program is found under its own text exactly if its reference can be
read. -/
theorem MethodRef.references_read_back :
    (∀ (s : String) (r : MethodRef), parse s = .ok r ↔ r.IsReadable ∧ r.text = s) ∧
    ∀ (d : ProgramDef) (p : Program), (Program.build d).1 = .ok p → ∀ m ∈ p.methodIds,
      (∃ r, parse (p.methodText m) = .ok r ∧ p.findMethod? r = some m) ↔
        (p.methodAt m).ref.IsReadable := by
  refine ⟨fun s r => parse_eq_ok_iff, fun d p hp m hm => ?_⟩
  have hunderway := Program.build_underway hp
  have hfound (r : MethodRef) :=
    Program.findMethod?_eq_some_iff hunderway.rooted hunderway.declared (r := r) (m := m)
  constructor
  · rintro ⟨r, hr, hback⟩
    rw [((hfound r).1 hback).2]
    exact (parse_eq_ok_iff.1 hr).1
  · intro hreadable
    refine ⟨_, parse_eq_ok_iff.2 ⟨hreadable, rfl⟩, (hfound _).2 ⟨?_, rfl⟩⟩
    obtain ⟨i, hi, rfl⟩ := List.mem_map.1 hm
    exact List.mem_range.1 hi

/-- A class and a method with separators in their names that end other parts. -/
def ProgramDef.punctuated : ProgramDef :=
  ⟨none, [⟨"é(", none, [], false, false, [],
    [⟨"a;)", [⟨"x", "L[(;"⟩, ⟨"y", "[[I"⟩], "[Lb;c;", false, false, true, [], []⟩]⟩]⟩

/-- Separators that end other parts may stand in names. -/
theorem MethodRef.references_read_back_punctuated :
    let r : MethodRef := ⟨"é(", ⟨"a;)", [.ofClass "[(", .array 2 .int], .array 1 (.object "b;c")⟩⟩
    parse "Lé(;->a;)(L[(;[[I)[Lb;c;" = .ok r ∧
      ∃ p, (Program.build .punctuated).1 = .ok p ∧ ⟨0⟩ ∈ p.methodIds ∧
        (p.methodAt ⟨0⟩).ref.IsReadable ∧
          ∃ r, parse (p.methodText ⟨0⟩) = .ok r ∧ p.findMethod? r = some ⟨0⟩ := by
  intro r
  obtain ⟨hread, hfound⟩ := references_read_back
  have hreadable : r.IsReadable := by
    refine isReadable_iff.2 ⟨⟨by decide, by decide, by decide, by decide⟩, ?_, ?_⟩
    · simp [r, Ty.IsOver, Ty.ofClass, Element.IsDelimited]
    · simp [r, Ty.IsOver, Element.IsNamed]
  have hrun : ∃ p, (Program.build .punctuated).1 = .ok p ∧ ⟨0⟩ ∈ p.methodIds ∧
      (p.methodAt ⟨0⟩).ref = r := by
    decide +kernel
  obtain ⟨p, hp, hm, href⟩ := hrun
  rw [← href] at hreadable
  refine ⟨(hread _ _).2 ⟨href ▸ hreadable, by decide⟩, p, hp, hm, hreadable, ?_⟩
  exact (hfound _ p hp ⟨0⟩ hm).2 hreadable

end PointsTo
