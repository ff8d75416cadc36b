import Mathlib.Data.List.Basic
import PointsTo.Proofs.Descriptor.RoundTrip

/-! # Descriptors alone and in rows

Alone, a class reaches up to the last character of the text. In a row it ends at the first semicolon. So a
type means the same in both places if its class has no semicolon in its name. A row of several descriptors
is taken for one class if it starts and ends with classes, and what stands between is taken for a part of
the name.
-/

namespace PointsTo

/-- An innermost type ends with a semicolon if it is a class. -/
theorem Element.getLast?_chars (e : Element) :
    e.chars.getLast? = some ';' ↔ ∃ name, e = object name := by
  cases e with
  | object name => exact iff_of_true List.getLast?_concat ⟨name, rfl⟩
  | _ => simp [chars]

/-- An innermost type starts with the letter of classes if it is a class. -/
theorem Element.head?_chars (e : Element) : e.chars.head? = some 'L' ↔ ∃ name, e = object name := by
  rcases e.chars_cases with ⟨name, rfl⟩ | ⟨c, hc, -, hclass, -⟩
  · exact iff_of_true rfl ⟨name, rfl⟩
  · refine iff_of_false ?_ ?_
    · rw [hc]
      exact fun h => hclass (Option.some.inj h)
    · rintro ⟨name, rfl⟩
      exact hclass (List.cons.inj hc).1.symm

namespace Ty

/-- Instances of a class, or arrays of them. -/
def IsOfClass (t : Ty) : Prop := ∃ n name, t = ofDims n (.object name)

/-- Instances of classes and their arrays are told by the innermost type. -/
theorem isOfClass_ofDims {n : Nat} {e : Element} :
    (ofDims n e).IsOfClass ↔ ∃ name, e = .object name := by
  constructor
  · rintro ⟨m, name, heq⟩
    refine ⟨name, ?_⟩
    unfold ofDims at heq
    split at heq <;> split at heq <;> cases heq <;> rfl
  · rintro ⟨name, rfl⟩
    exact ⟨n, name, rfl⟩

theorem not_isOfClass_void : ¬ void.IsOfClass := by
  rintro ⟨n, name, heq⟩
  unfold ofDims at heq
  split at heq <;> cases heq

/-- Types of other kinds can be told from what follows them. -/
theorem IsOver.isDelimited {t : Ty} (h : t.IsOver Element.IsNamed) (hclass : ¬ t.IsOfClass) :
    t.IsOver Element.IsDelimited := by
  rcases h.cases with rfl | ⟨n, e, rfl, hn, -⟩
  · trivial
  · refine isOver_ofDims hn ?_
    cases e with
    | object name => exact absurd ⟨n, name, rfl⟩ hclass
    | _ => trivial

/-! ## Where classes start and end -/

section Ends

variable {P : Element → Prop} {t : Ty} (h : t.IsOver P)

include h

/-- Only the descriptors of classes end with a semicolon. -/
theorem getLast?_chars : t.chars.getLast? = some ';' ↔ t.IsOfClass := by
  rcases h.cases with rfl | ⟨n, e, rfl, -⟩
  · exact iff_of_false (by decide) not_isOfClass_void
  · rw [isOfClass_ofDims, ← e.getLast?_chars, chars_ofDims,
      List.getLast?_append_of_ne_nil _ e.chars_ne_nil]

/-- Only the descriptors of classes have an `L` behind their brackets. -/
theorem head?_dropWhile_chars (rest : List Char) :
    ((t.chars ++ rest).dropWhile (· == '[')).head? = some 'L' ↔ t.IsOfClass := by
  rcases h.cases with rfl | ⟨n, e, rfl, -⟩
  · refine iff_of_false ?_ not_isOfClass_void
    rw [chars, List.singleton_append, List.dropWhile_cons_of_neg (by decide), List.head?_cons]
    decide
  · obtain ⟨c, cs, hchars, hbracket, -⟩ := e.chars_eq_cons
    rw [isOfClass_ofDims, ← e.head?_chars, chars_ofDims, List.append_assoc, hchars, List.cons_append,
      dropWhile_brackets hbracket, List.head?_cons, List.head?_cons]

end Ends

/-- The first and the last of some types are of classes. -/
def StartAndEndWithClasses (ts : List Ty) : Prop :=
  (∃ t ∈ ts.head?, t.IsOfClass) ∧ ∃ t ∈ ts.getLast?, t.IsOfClass

/-- A row ends as the last of its types does. -/
theorem getLast?_flatMap_chars {ts : List Ty} {last : Ty} (h : last ∈ ts.getLast?) :
    (ts.flatMap chars).getLast? = last.chars.getLast? := by
  obtain ⟨before, rfl⟩ := List.getLast?_eq_some_iff.1 h
  rw [List.flatMap_append, List.flatMap_singleton,
    List.getLast?_append_of_ne_nil _ last.chars_ne_nil]

/-- A row that is the descriptor of a class starts and ends with classes. -/
theorem startAndEndWithClasses_of_chars {ts : List Ty} {t : Ty}
    (hts : ∀ t ∈ ts, t.IsOver Element.IsDelimited) (ht : t.IsOver Element.IsNamed)
    (hclass : t.IsOfClass) (heq : ts.flatMap chars = t.chars) : StartAndEndWithClasses ts := by
  have hne : ts ≠ [] := by
    rintro rfl
    exact t.chars_ne_nil heq.symm
  obtain ⟨first, rest, rfl⟩ := List.exists_cons_of_ne_nil hne
  constructor
  · have hhead := (head?_dropWhile_chars ht []).2 hclass
    rw [List.append_nil, ← heq, List.flatMap_cons,
      head?_dropWhile_chars (hts first List.mem_cons_self)] at hhead
    exact ⟨first, rfl, hhead⟩
  · have hlast := (getLast?_chars ht).2 hclass
    have hmem := List.getLast?_eq_some_getLast hne
    rw [← heq, getLast?_flatMap_chars hmem, getLast?_chars (hts _ (List.getLast_mem hne))] at hlast
    exact ⟨_, hmem, hlast⟩

/-- A row that starts and ends with classes is the descriptor of one class: it has the brackets of the first
of them, and everything up to the last semicolon belongs to its name. -/
theorem parseChars_of_startAndEndWithClasses {ts : List Ty}
    (hts : ∀ t ∈ ts, t.IsOver Element.IsDelimited) (h : StartAndEndWithClasses ts) :
    ∃ t, parseChars (ts.flatMap chars) = .ok t := by
  obtain ⟨⟨first, hfirst, n, name, rfl⟩, last, hlast, hclass⟩ := h
  obtain ⟨rest, rfl⟩ := List.head?_eq_some_iff.1 hfirst
  obtain ⟨hn, hname, -⟩ := of_isOver_ofDims (List.forall_mem_cons.1 hts).1
  -- The name of the first class runs up to the semicolon, and the rest of the row follows.
  have hchars : (ofDims n (.object name) :: rest).flatMap chars =
      (List.replicate n '[' ++ ['L']) ++ (name.toList ++ ';' :: rest.flatMap chars) := by
    simp [chars_ofDims, Element.chars]
  have hends : (name.toList ++ ';' :: rest.flatMap chars).getLast? = some ';' := by
    rw [← List.getLast?_append_of_ne_nil (List.replicate n '[' ++ ['L']) (by simp), ← hchars,
      getLast?_flatMap_chars hlast]
    exact (getLast?_chars (hts last (List.mem_of_getLast? hlast))).2 hclass
  obtain ⟨between, hbetween⟩ := List.getLast?_eq_some_iff.1 hends
  have hnamed : String.ofList between ≠ "" := by
    intro hnil
    obtain rfl : between = [] := by simpa using hnil
    -- the name of the first class would be behind its semicolon
    cases hname' : name.toList with
    | nil => exact hname (String.toList_eq_nil_iff.1 hname')
    | cons c cs => simp [hname'] at hbetween
  have hrow : (ofDims n (.object name) :: rest).flatMap chars =
      (ofDims n (.object (String.ofList between))).chars := by
    rw [hchars, hbetween, chars_ofDims]
    simp [Element.chars]
  rw [hrow]
  exact ⟨_, parseChars_ofDims hn hnamed⟩

/-! ## The main result -/

/-- A text that is read as a type is read as a row of this one type exactly if no class has a semicolon in
its name. A text that is read as a row is read as one type exactly if there is only one type in the row, or
if the row starts and ends with classes. -/
theorem alone_and_in_row (s : String) :
    (∀ t, parse s = .ok t → (parseList s = .ok [t] ↔ t.IsOver Element.IsDelimited)) ∧
    ∀ ts, parseList s = .ok ts →
      ((∃ t, parse s = .ok t) ↔ (∃ t, ts = [t]) ∨ StartAndEndWithClasses ts) := by
  have hrow {t : Ty} (ht : t.chars = s.toList) :
      parseList s = .ok [t] ↔ t.IsOver Element.IsDelimited := by
    rw [parseList, parseListChars_eq_ok_iff, List.forall_mem_singleton, List.flatMap_singleton,
      and_iff_left ht]
  refine ⟨fun t ht => hrow (parseChars_eq_ok_iff.1 ht).2, fun ts hs => ?_⟩
  obtain ⟨hts, hchars⟩ := parseListChars_eq_ok_iff.1 hs
  constructor
  · rintro ⟨t, ht⟩
    obtain ⟨hnamed, htext⟩ := parseChars_eq_ok_iff.1 ht
    by_cases hclass : t.IsOfClass
    · exact Or.inr (startAndEndWithClasses_of_chars hts hnamed hclass (hchars.trans htext.symm))
    · have hone := (hrow htext).2 (hnamed.isDelimited hclass)
      exact Or.inl ⟨t, Except.ok.inj (hs.symm.trans hone)⟩
  · rintro (⟨t, rfl⟩ | hends)
    · rw [List.flatMap_singleton] at hchars
      have hnamed := (hts t List.mem_cons_self).mono fun _ => Element.IsDelimited.isNamed
      exact ⟨t, parseChars_eq_ok_iff.2 ⟨hnamed, hchars⟩⟩
    · rw [parse, ← hchars]
      exact parseChars_of_startAndEndWithClasses hts hends

/-- One class, and a row that is taken for one. -/
theorem alone_and_in_row_classes :
    parse "[LA;" = .ok (array 1 (.object "A")) ∧ parseList "[LA;" = .ok [array 1 (.object "A")] ∧
      parseList "[LA;ILB;" = .ok [array 1 (.object "A"), scalar .int, ofClass "B"] ∧
      ∃ t, parse "[LA;ILB;" = .ok t := by
  have hparse : parse "[LA;" = .ok (array 1 (.object "A")) := rfl
  have hlist : parseList "[LA;ILB;" = .ok [array 1 (.object "A"), scalar .int, ofClass "B"] :=
    parseListChars_eq_ok_iff.2 ⟨by simp [IsOver, ofClass, Element.IsDelimited], by decide⟩
  have hdelimited : (array 1 (.object "A")).IsOver Element.IsDelimited := by
    simp [IsOver, Element.IsDelimited]
  have hends : StartAndEndWithClasses [array 1 (.object "A"), scalar .int, ofClass "B"] :=
    ⟨⟨_, rfl, 1, "A", rfl⟩, ⟨_, rfl, 0, "B", rfl⟩⟩
  exact ⟨hparse, ((alone_and_in_row _).1 _ hparse).2 hdelimited, hlist,
    ((alone_and_in_row _).2 _ hlist).2 (Or.inr hends)⟩

/-- Two classes in a row are also one class with a semicolon in its name. -/
theorem two_classes_read_as_one :
    parse "LA;LB;" = .ok (ofClass "A;LB") ∧ parseList "LA;LB;" = .ok [ofClass "A", ofClass "B"] :=
  ⟨rfl, parseListChars_eq_ok_iff.2 ⟨by simp [IsOver, ofClass, Element.IsDelimited], by decide⟩⟩

end Ty

end PointsTo
