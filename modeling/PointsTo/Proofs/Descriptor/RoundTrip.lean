import Mathlib.Data.List.TakeWhile
import PointsTo.Descriptor.Ty

/-! # Descriptors are read back

A text that can be read as a type is the descriptor of that type, so reading loses nothing and a type has
only one descriptor. Types can be read back if their classes have names and their arrays do not have too
many dimensions. In a row of descriptors a class ends at the first semicolon, so its name must not contain
one; everything else may stand in a name, also the letters and brackets that other descriptors start with.
-/

namespace PointsTo

/-! ## Types that can be read back -/

namespace Element

/-- A class has a name. -/
def IsNamed : Element → Prop
  | object name => name ≠ ""
  | _ => True

/-- A class has a name that a semicolon can end. -/
def IsDelimited : Element → Prop
  | object name => name ≠ "" ∧ ';' ∉ name.toList
  | _ => True

theorem IsDelimited.isNamed {e : Element} (h : e.IsDelimited) : e.IsNamed := by
  cases e with
  | object name => exact h.1
  | _ => trivial

end Element

/-- No value, or values of a type that is as it is said, or arrays of them with 1 to 254 dimensions. -/
def Ty.IsOver (P : Element → Prop) : Ty → Prop
  | void => True
  | scalar e => P e
  | array n e => (1 ≤ n ∧ n ≤ 254) ∧ P e

/-! ## Texts up to a separator -/

/-- What is left behind the first part starts with the separator. -/
theorem cut_of_dropWhile {sep c : Char} {cs after : List Char}
    (h : cs.dropWhile (· != sep) = c :: after) :
    c = sep ∧ sep ∉ cs.takeWhile (· != sep) ∧ cs.takeWhile (· != sep) ++ sep :: after = cs := by
  have hc : c = sep := by
    have hhead := List.head?_dropWhile_not (· != sep) cs
    rw [h] at hhead
    simpa using hhead
  subst hc
  refine ⟨rfl, fun hmem => ?_, ?_⟩
  · simpa using List.mem_takeWhile_imp hmem
  · rw [← h, List.takeWhile_append_dropWhile]

section Cut

variable {sep : Char} {before : List Char} (hnot : sep ∉ before) (after : List Char)

include hnot

theorem ne_of_mem_before : ∀ c ∈ before, (c != sep) = true := fun c hc => by
  rw [bne_iff_ne]
  rintro rfl
  exact hnot hc

theorem takeWhile_cut : (before ++ sep :: after).takeWhile (· != sep) = before := by
  rw [List.takeWhile_append_of_pos (ne_of_mem_before hnot), List.takeWhile_cons_of_neg (by simp),
    List.append_nil]

theorem dropWhile_cut : (before ++ sep :: after).dropWhile (· != sep) = sep :: after := by
  rw [List.dropWhile_append_of_pos (ne_of_mem_before hnot), List.dropWhile_cons_of_neg (by simp)]

end Cut

/-! ## Innermost types -/

namespace Element

/-- The descriptor of what is no class is a letter. -/
theorem chars_cases (e : Element) : (∃ name, e = object name) ∨
    ∃ c, e.chars = [c] ∧ c ≠ '[' ∧ c ≠ 'L' ∧ c ≠ 'V' ∧ c.toNat < 0x80 := by
  cases e with
  | object name => exact Or.inl ⟨name, rfl⟩
  | _ => exact Or.inr ⟨_, rfl, by decide, by decide, by decide, by decide⟩

/-- No descriptor starts as another dimension or as void does. -/
theorem chars_eq_cons (e : Element) : ∃ c cs, e.chars = c :: cs ∧ c ≠ '[' ∧ c ≠ 'V' ∧
    c.toNat < 0x80 := by
  rcases e.chars_cases with ⟨name, rfl⟩ | ⟨c, hc, hbracket, -, hvoid, hascii⟩
  · exact ⟨'L', _, rfl, by decide, by decide, by decide⟩
  · exact ⟨c, [], hc, hbracket, hvoid, hascii⟩

theorem chars_ne_nil (e : Element) : e.chars ≠ [] := by
  obtain ⟨c, cs, hchars, -⟩ := e.chars_eq_cons
  rw [hchars]
  exact List.cons_ne_nil _ _

/-- An innermost type with a name is read back. -/
theorem ofChars?_chars {e : Element} (h : e.IsNamed) : ofChars? e.chars = some e := by
  cases e with
  | object name =>
      obtain ⟨c, cs, hname⟩ : ∃ c cs, name.toList = c :: cs := by
        refine List.exists_cons_of_ne_nil fun hnil => h ?_
        rw [← String.ofList_toList (s := name), hnil]
      have hbody : (c :: (cs ++ [';'])).getLast? = some ';' := by
        rw [← List.cons_append, List.getLast?_concat]
      have hdrop : String.ofList (c :: (cs ++ [';'])).dropLast = name := by
        rw [← List.cons_append, List.dropLast_concat, ← hname, String.ofList_toList]
      rw [chars, hname, List.cons_append, List.cons_append, ofChars?, if_pos ⟨by simp, hbody⟩, hdrop]
  | _ => rfl

/-- What is read as an innermost type is its descriptor. -/
theorem of_ofChars? {cs : List Char} {e : Element} (h : ofChars? cs = some e) :
    e.IsNamed ∧ e.chars = cs := by
  unfold ofChars? at h
  -- One case for each letter of a primitive type, and one for a class.
  split at h
  case h_9 c cs =>
    obtain ⟨⟨hne, hlast⟩, heq⟩ := Option.ite_none_right_eq_some.1 h
    obtain rfl := Option.some.inj heq
    obtain ⟨name, hbody⟩ := List.getLast?_eq_some_iff.1 hlast
    rw [hbody, List.dropLast_concat]
    refine ⟨fun hnil => hne ?_, ?_⟩
    · -- the semicolon alone would be left
      obtain rfl : name = [] := by simpa using hnil
      exact (List.cons.inj hbody).2
    · rw [chars, String.toList_ofList, List.cons_append]
  case h_10 => cases h
  all_goals
    obtain rfl := Option.some.inj h
    exact ⟨trivial, rfl⟩

end Element

namespace Ty

/-! ## Single descriptors -/

section Brackets

variable {n : Nat} {c : Char} {cs : List Char} (hc : c ≠ '[')

include hc

theorem takeWhile_brackets :
    (List.replicate n '[' ++ c :: cs).takeWhile (· == '[') = List.replicate n '[' := by
  rw [List.takeWhile_append_of_pos fun b hb => by simp [List.eq_of_mem_replicate hb],
    List.takeWhile_cons_of_neg (by simpa using hc), List.append_nil]

theorem dropWhile_brackets :
    (List.replicate n '[' ++ c :: cs).dropWhile (· == '[') = c :: cs := by
  rw [List.dropWhile_append_of_pos fun b hb => by simp [List.eq_of_mem_replicate hb],
    List.dropWhile_cons_of_neg (by simpa using hc)]

end Brackets

/-- Every text starts with some number of brackets. -/
theorem replicate_append_dropWhile (cs : List Char) :
    List.replicate (cs.takeWhile (· == '[')).length '[' ++ cs.dropWhile (· == '[') = cs := by
  have hbrackets : cs.takeWhile (· == '[') =
      List.replicate (cs.takeWhile (· == '[')).length '[' :=
    List.eq_replicate_of_mem fun b hb => by simpa using List.mem_takeWhile_imp hb
  rw [← hbrackets, List.takeWhile_append_dropWhile]

/-- No type is written as nothing. -/
theorem chars_ne_nil (t : Ty) : t.chars ≠ [] := by
  cases t with
  | void => exact List.cons_ne_nil _ _
  | scalar e => exact e.chars_ne_nil
  | array n e => exact List.append_ne_nil_of_right_ne_nil _ e.chars_ne_nil

/-- The type of a descriptor that starts with `n` brackets. -/
def ofDims (n : Nat) (e : Element) : Ty := if n = 0 then scalar e else array n e

/-- Dimensions are written as brackets before the innermost type. -/
theorem chars_ofDims (n : Nat) (e : Element) : (ofDims n e).chars = List.replicate n '[' ++ e.chars := by
  rw [ofDims]
  split
  · rename_i hn
    subst hn
    rfl
  · rfl

/-- With at most 254 brackets, what is said about the innermost type is said about the type. -/
theorem isOver_ofDims {P : Element → Prop} {n : Nat} {e : Element} (hn : n ≤ 254) (he : P e) :
    (ofDims n e).IsOver P := by
  rw [ofDims]
  split
  · exact he
  · exact ⟨⟨by omega, hn⟩, he⟩

/-- What is said about a type bounds its brackets and is said about its innermost type. -/
theorem of_isOver_ofDims {P : Element → Prop} {n : Nat} {e : Element} (h : (ofDims n e).IsOver P) :
    n ≤ 254 ∧ P e := by
  rw [ofDims] at h
  split at h
  · exact ⟨by omega, h⟩
  · exact ⟨h.1.2, h.2⟩

/-- A type that can be read back is void, or it is made of its dimensions and its innermost type. -/
theorem IsOver.cases {P : Element → Prop} {t : Ty} (h : t.IsOver P) :
    t = void ∨ ∃ n e, t = ofDims n e ∧ n ≤ 254 ∧ P e := by
  cases t with
  | void => exact Or.inl rfl
  | scalar e => exact Or.inr ⟨0, e, rfl, by omega, h⟩
  | array n e =>
      refine Or.inr ⟨n, e, ?_, h.1.2, h.2⟩
      rw [ofDims, if_neg (by have := h.1.1; omega)]

/-- What is said about types may be weakened. -/
theorem IsOver.mono {P Q : Element → Prop} (hPQ : ∀ e, P e → Q e) {t : Ty} (h : t.IsOver P) :
    t.IsOver Q := by
  rcases h.cases with rfl | ⟨n, e, rfl, hn, he⟩
  · trivial
  · exact isOver_ofDims hn (hPQ e he)

/-- Brackets are counted before anything behind them is looked at. -/
theorem parseChars_chars_ofDims (n : Nat) (e : Element) :
    parseChars (ofDims n e).chars =
      if maxDims < n then .error (.badType (ofDims n e).descriptor)
      else match Element.ofChars? e.chars with
        | none => .error (.badType (ofDims n e).descriptor)
        | some e => .ok (ofDims n e) := by
  obtain ⟨c, cs, hchars, hbracket, hvoid, hascii⟩ := e.chars_eq_cons
  have hne : List.replicate n '[' ++ c :: cs ≠ ['V'] := by
    intro heq
    cases n with
    | zero => exact hvoid (List.cons.inj heq).1
    | succ n => exact absurd (List.cons.inj heq).1 (by decide)
  rw [descriptor, chars_ofDims, hchars, parseChars, if_neg hne]
  simp only [takeWhile_brackets hbracket, dropWhile_brackets hbracket, List.length_replicate]
  rw [if_neg (by omega)]
  rfl

/-- A type with at most 254 brackets and a name is read back. -/
theorem parseChars_ofDims {n : Nat} {e : Element} (hn : n ≤ 254) (he : e.IsNamed) :
    parseChars (ofDims n e).chars = .ok (ofDims n e) := by
  rw [parseChars_chars_ofDims, if_neg (by rw [maxDims]; omega), Element.ofChars?_chars he]

/-- A text is read as a type exactly if it is the descriptor of the type, and the type can be read
back. -/
theorem parseChars_eq_ok_iff {cs : List Char} {t : Ty} :
    parseChars cs = .ok t ↔ t.IsOver Element.IsNamed ∧ t.chars = cs := by
  constructor
  · intro h
    unfold parseChars at h
    split at h
    · rename_i hvoid
      cases h
      exact ⟨trivial, hvoid.symm⟩
    -- The text is its brackets and what follows them, whatever it is read as.
    · have hcs := replicate_append_dropWhile cs
      dsimp only at h
      split at h
      · cases h
      · rename_i c rest hdrop
        rw [hdrop] at hcs
        split at h
        · cases h
        split at h
        · cases h
        rename_i hdims
        rw [maxDims] at hdims
        split at h
        · cases h
        rename_i e he
        obtain ⟨hnamed, hchars⟩ := Element.of_ofChars? he
        cases h
        refine ⟨isOver_ofDims (by omega) hnamed, ?_⟩
        rw [← ofDims, chars_ofDims, hchars, hcs]
  · rintro ⟨h, rfl⟩
    rcases h.cases with rfl | ⟨n, e, rfl, hn, he⟩
    · rfl
    · exact parseChars_ofDims hn he

/-! ## Rows of descriptors -/

/-- A descriptor that is no class ends after its letter. -/
theorem splitFirst?_letter {n : Nat} {c : Char} (hbracket : c ≠ '[') (hclass : c ≠ 'L')
    (rest : List Char) : splitFirst? (List.replicate n '[' ++ c :: rest) =
      some (List.replicate n '[' ++ [c], rest) := by
  unfold splitFirst?
  rw [dropWhile_brackets hbracket, takeWhile_brackets hbracket]
  split
  · rename_i h
    cases h
  · rename_i h
    exact absurd (List.cons.inj h).1 hclass
  · rename_i h
    cases h
    rfl

/-- A class ends at the first semicolon. -/
theorem splitFirst?_class {n : Nat} {cs first rest : List Char} :
    splitFirst? (List.replicate n '[' ++ 'L' :: cs) = some (first, rest) ↔
      ∃ name, ';' ∉ name ∧ cs = name ++ ';' :: rest ∧
        first = List.replicate n '[' ++ 'L' :: name ++ [';'] := by
  simp only [splitFirst?, dropWhile_brackets (c := 'L') (by decide),
    takeWhile_brackets (c := 'L') (by decide)]
  constructor
  · intro h
    split at h
    · cases h
    · rename_i hafter
      obtain ⟨rfl, hnot, hcs⟩ := cut_of_dropWhile hafter
      cases h
      exact ⟨_, hnot, hcs.symm, rfl⟩
  · rintro ⟨name, hnot, rfl, rfl⟩
    rw [dropWhile_cut hnot, takeWhile_cut hnot]

/-- A type that can be told from what follows it is the first of a row. -/
theorem splitFirst?_append {t : Ty} (h : t.IsOver Element.IsDelimited) (rest : List Char) :
    splitFirst? (t.chars ++ rest) = some (t.chars, rest) := by
  rcases h.cases with rfl | ⟨n, e, rfl, -, he⟩
  · exact splitFirst?_letter (n := 0) (by decide) (by decide) rest
  · rw [chars_ofDims, List.append_assoc]
    rcases e.chars_cases with ⟨name, rfl⟩ | ⟨c, hc, hbracket, hclass, -⟩
    · refine splitFirst?_class.2 ⟨name.toList, he.2, ?_, ?_⟩
      · exact List.append_assoc _ [';'] rest
      · exact (List.append_assoc _ ('L' :: name.toList) [';']).symm
    · rw [hc]
      exact splitFirst?_letter hbracket hclass rest

/-- The first type of a row can be told from what follows it. -/
theorem isOver_of_splitFirst? {t : Ty} (h : t.IsOver Element.IsNamed) {rest : List Char}
    (hsplit : splitFirst? (t.chars ++ rest) = some (t.chars, rest)) :
    t.IsOver Element.IsDelimited := by
  rcases h.cases with rfl | ⟨n, e, rfl, hn, he⟩
  · trivial
  · refine isOver_ofDims hn ?_
    cases e with
    | object name =>
        rw [chars_ofDims, List.append_assoc] at hsplit
        obtain ⟨name', hnot, -, heq⟩ := splitFirst?_class.1 hsplit
        rw [List.append_assoc] at heq
        -- both descriptors end with a semicolon
        obtain rfl : name.toList = name' :=
          List.append_cancel_right (List.cons.inj (List.append_cancel_left heq)).2
        exact ⟨he, hnot⟩
    | _ => trivial

/-- A row is read by reading its first descriptor and then the rest. -/
theorem parseListChars_eq_ok_iff_of_splitFirst? {whole : String} {cs first rest : List Char}
    {ts : List Ty} (h : splitFirst? cs = some (first, rest)) :
    parseListChars whole cs = .ok ts ↔ ∃ t ts', parseChars first = .ok t ∧
      parseListChars whole rest = .ok ts' ∧ t :: ts' = ts := by
  have hne : cs ≠ [] := by
    rintro rfl
    cases h
  rw [parseListChars, if_neg hne]
  split
  · rename_i hnone
    cases hnone.symm.trans h
  · rename_i heq
    cases heq.symm.trans h
    cases parseChars first with
    | error e => simp [bind, Except.bind]
    | ok t =>
        cases parseListChars whole rest with
        | error e => simp [bind, Except.bind]
        | ok ts' => simp [bind, Except.bind, pure, Except.pure]

/-- A text is read as a row of types exactly if it is the row of their descriptors, and each of them can
be read back and told from the next one. -/
theorem parseListChars_eq_ok_iff {whole : String} {cs : List Char} {ts : List Ty} :
    parseListChars whole cs = .ok ts ↔
      (∀ t ∈ ts, t.IsOver Element.IsDelimited) ∧ ts.flatMap chars = cs := by
  constructor
  · intro h
    -- By induction on the cuts that reading makes.
    induction cs using parseListChars.induct generalizing ts with
    | case1 =>
        rw [parseListChars, if_pos rfl] at h
        cases h
        exact ⟨by simp, rfl⟩
    | case2 cs hne hnone =>
        rw [parseListChars, if_neg hne] at h
        split at h
        · cases h
        · rename_i heq
          cases hnone.symm.trans heq
    | case3 cs hne first rest hsplit ih =>
        obtain ⟨t, ts', ht, hts', rfl⟩ := (parseListChars_eq_ok_iff_of_splitFirst? hsplit).1 h
        obtain ⟨hnamed, rfl⟩ := parseChars_eq_ok_iff.1 ht
        obtain ⟨hdelimited, rfl⟩ := ih hts'
        have hcs := append_of_splitFirst? hsplit
        rw [← hcs] at hsplit
        exact ⟨List.forall_mem_cons.2 ⟨isOver_of_splitFirst? hnamed hsplit, hdelimited⟩, hcs⟩
  · rintro ⟨h, rfl⟩
    induction ts with
    | nil => simp [parseListChars]
    | cons t ts ih =>
        obtain ⟨ht, hts⟩ := List.forall_mem_cons.1 h
        have hparse : parseChars t.chars = .ok t :=
          parseChars_eq_ok_iff.2 ⟨ht.mono fun _ => Element.IsDelimited.isNamed, rfl⟩
        rw [List.flatMap_cons, parseListChars_eq_ok_iff_of_splitFirst? (splitFirst?_append ht _)]
        exact ⟨t, ts, hparse, ih hts, rfl⟩

/-! ## The main result -/

theorem toList_join_descriptors (ts : List Ty) :
    (String.join (ts.map descriptor)).toList = ts.flatMap chars := by
  rw [String.toList_join, List.flatMap_map]
  simp only [descriptor, String.toList_ofList]

/-- A string is read as a type exactly if it is its descriptor and the type is named. -/
theorem parse_eq_ok_iff {s : String} {t : Ty} :
    parse s = .ok t ↔ t.IsOver Element.IsNamed ∧ t.descriptor = s := by
  rw [parse, parseChars_eq_ok_iff, ← String.toList_inj, descriptor, String.toList_ofList]

/-- What a text is read as is told by the text. -/
theorem eq_iff_of_parse {s : String} {t u : Ty} (ht : t.IsOver Element.IsNamed)
    (h : parse s = .ok u) : u = t ↔ s = t.descriptor := by
  constructor
  · rintro rfl
    exact (parse_eq_ok_iff.1 h).2.symm
  · rintro rfl
    exact Except.ok.inj (h.symm.trans (parse_eq_ok_iff.2 ⟨ht, rfl⟩))

/-- A string is read as a row exactly if it is made of the descriptors and each can be told from the
next. -/
theorem parseList_eq_ok_iff {s : String} {ts : List Ty} : parseList s = .ok ts ↔
    (∀ t ∈ ts, t.IsOver Element.IsDelimited) ∧ String.join (ts.map descriptor) = s := by
  rw [parseList, parseListChars_eq_ok_iff, ← String.toList_inj, toList_join_descriptors]

/-- A text is read as a type exactly if it is the descriptor of the type, where classes have names and
arrays have 1 to 254 dimensions. It is read as a row of types exactly if it is the row of their
descriptors, where in addition no name contains a semicolon. -/
theorem descriptors_read_back :
    (∀ (s : String) (t : Ty), parse s = .ok t ↔ t.IsOver Element.IsNamed ∧ t.descriptor = s) ∧
    ∀ (s : String) (ts : List Ty), parseList s = .ok ts ↔
      (∀ t ∈ ts, t.IsOver Element.IsDelimited) ∧ String.join (ts.map descriptor) = s :=
  ⟨fun _ _ => parse_eq_ok_iff, fun _ _ => parseList_eq_ok_iff⟩

/-- Brackets, letters of other descriptors and characters beyond ASCII in names. -/
theorem descriptors_read_back_names :
    parse "[[LLé[;I;" = .ok (array 2 (.object "Lé[;I")) ∧
      parseList "[[LLé[;I[L[V;V" =
        .ok [array 2 (.object "Lé["), scalar .int, array 1 (.object "[V"), void] := by
  obtain ⟨hone, hrow⟩ := descriptors_read_back
  refine ⟨(hone _ _).2 ⟨?_, by decide⟩, (hrow _ _).2 ⟨?_, by decide⟩⟩
  · simp [IsOver, Element.IsNamed]
  · simp [IsOver, Element.IsDelimited]

end Ty

end PointsTo
