import PointsTo.Proofs.Json.RoundTrip
import PointsTo.Solver.Options

/-! # Options are read back

A policy is read from `ci`, or from a decimal number and the name of a kind. The number is the bound, with
any number of leading zeros; a bound of zero is no context. The text of a policy that was read is read as
this policy again, and so are options that were written as a document.
-/

namespace PointsTo

namespace Selector

/-! ## What texts name -/

/-- The text names a kind of policies with a bound. -/
inductive Kind : String → (Nat → Selector) → Prop where
  | callSite : Kind "-call" callSite
  | object : Kind "-obj" object
  | type : Kind "-type" type

/-- The text names the policy. -/
inductive Names : String → Selector → Prop where
  | insensitive : Names "ci" insensitive
  | bounded {digits : List Char} {suffix : String} {family : Nat → Selector} (nonempty : digits ≠ [])
      (decimal : ∀ c ∈ digits, c.isDigit = true) (fits : Nat.ofDigitChars 10 digits 0 < boundLimit)
      (kind : Kind suffix family) : Names (String.ofList digits ++ suffix)
        (if Nat.ofDigitChars 10 digits 0 = 0 then .insensitive else family (Nat.ofDigitChars 10 digits 0))

/-- The policy has a text: its bound, if it has one, is positive and fits into a word. -/
def IsNamed : Selector → Prop
  | insensitive => True
  | callSite k | object k | type k => 0 < k ∧ k < boundLimit

variable {s : String} {sel : Selector} {family : Nat → Selector}

/-- The reader of decimals is the one of the library. -/
theorem decimal_eq (digits : List Char) : decimal digits = Nat.ofDigitChars 10 digits 0 :=
  Nat.ofDigitChars_eq_foldl.symm

/-- The characters after the number are those of a kind of policies. -/
theorem family?_eq_some_iff {cs : List Char} :
    family? cs = some family ↔ ∃ suffix, Kind suffix family ∧ suffix.toList = cs := by
  constructor
  · intro h
    unfold family? at h
    split at h
    · cases h
      exact ⟨_, .callSite, rfl⟩
    · cases h
      exact ⟨_, .object, rfl⟩
    · cases h
      exact ⟨_, .type, rfl⟩
    · cases h
  · rintro ⟨suffix, hkind, rfl⟩
    cases hkind <;> rfl

/-- The bound ends where the name of the kind starts. -/
theorem Kind.exists_toList_eq_cons {suffix : String} (h : Kind suffix family) :
    ∃ cs, suffix.toList = '-' :: cs := by
  cases h <;> exact ⟨_, rfl⟩

/-- A text is read as a policy exactly if it names this policy. -/
theorem parse?_eq_some_iff : parse? s = some sel ↔ Names s sel := by
  constructor
  · intro h
    unfold parse? at h
    -- the text splits at its first character that is no digit; what is in front is a number in range
    split at h
    · rename_i hci
      cases h
      rw [hci]
      exact .insensitive
    · dsimp only at h
      split at h
      · cases h
      · rename_i hfamily
        obtain ⟨suffix, hkind, hsuffix⟩ := family?_eq_some_iff.1 hfamily
        split at h
        · cases h
        · rename_i hbound
          rw [not_or, decimal_eq, Nat.not_le] at hbound
          have hnames := Names.bounded hbound.1 (List.all_eq_true.1 List.all_takeWhile) hbound.2 hkind
          have htext : String.ofList (s.toList.takeWhile Char.isDigit) ++ suffix = s := by
            rw [← String.toList_inj, String.toList_append, String.toList_ofList, hsuffix,
              List.takeWhile_append_dropWhile]
          rw [htext] at hnames
          rw [decimal_eq] at h
          split at h
          · rename_i hzero
            cases h
            rwa [if_pos hzero] at hnames
          · rename_i hpos
            cases h
            rwa [if_neg hpos] at hnames
  · intro h
    cases h with
    | insensitive => rfl
    | @bounded digits suffix family nonempty hdigits fits kind =>
        -- no suffix of a kind begins with a digit, so the number ends where the suffix begins
        obtain ⟨cs, hcs⟩ := kind.exists_toList_eq_cons
        have htext : (String.ofList digits ++ suffix).toList = digits ++ suffix.toList := by
          rw [String.toList_append, String.toList_ofList]
        have htake : (String.ofList digits ++ suffix).toList.takeWhile Char.isDigit = digits := by
          rw [htext, List.takeWhile_append_of_pos hdigits, hcs]
          exact List.append_nil digits
        have hdrop : (String.ofList digits ++ suffix).toList.dropWhile Char.isDigit = suffix.toList := by
          rw [htext, List.dropWhile_append_of_pos hdigits, hcs]
          rfl
        have hci : String.ofList digits ++ suffix ≠ "ci" := by
          intro hci
          rw [hci] at htake
          exact nonempty htake.symm
        rw [parse?, if_neg hci, htake, hdrop, family?_eq_some_iff.2 ⟨suffix, kind, rfl⟩]
        dsimp only
        rw [decimal_eq, if_neg (not_or.2 ⟨nonempty, Nat.not_le.2 fits⟩)]
        split <;> rfl

/-! ## Texts of policies -/

/-- The text of a bound and a kind names the policy with this bound. -/
theorem Kind.names {suffix : String} (h : Kind suffix family) {k : Nat} (hk : 0 < k ∧ k < boundLimit) :
    Names (toString k ++ suffix) (family k) := by
  have hvalue : Nat.ofDigitChars 10 (Nat.toDigits 10 k) 0 = k := Nat.ofDigitChars_ten_toDigits
  have hnames := Names.bounded Nat.toDigits_ne_nil
    (fun c hc => Nat.isDigit_of_mem_toDigits (by decide) (by decide) hc) (hvalue.symm ▸ hk.2) h
  rwa [hvalue, if_neg (Nat.ne_of_gt hk.1), ← Nat.toString_eq_ofList_toDigits] at hnames

/-- The text of a policy names it. -/
theorem IsNamed.names_text (h : sel.IsNamed) : Names sel.text sel := by
  cases sel with
  | insensitive => exact .insensitive
  | callSite k => exact Kind.callSite.names h
  | object k => exact Kind.object.names h
  | type k => exact Kind.type.names h

/-- Whatever a text names has a text of its own. -/
theorem Names.isNamed (h : Names s sel) : sel.IsNamed := by
  cases h with
  | insensitive => trivial
  | @bounded digits suffix family nonempty hdigits fits kind =>
      split
      · trivial
      · rename_i hpos
        cases kind <;> exact ⟨Nat.pos_of_ne_zero hpos, fits⟩

end Selector

/-! ## Options -/

namespace Options

variable {o : Options}

/-- Options are written with words only. -/
theorem isPlain_toJson (o : Options) : ∀ t ∈ o.toJson.tokens, t.IsPlain := by
  obtain ⟨sel, entry, mock⟩ := o
  cases entry <;>
    simp [toJson, Json.record, Json.str, Json.tokens, Json.tokensAfterMember, Json.Token.IsPlain]

/-- The fields of the document of options are found again. -/
theorem ofJson?_toJson (h : o.selector.IsNamed) : ofJson? o.toJson = some o := by
  obtain ⟨sel, entry, mock⟩ := o
  have hsel : selector? (.str sel.text) = some sel := Selector.parse?_eq_some_iff.2 h.names_text
  have hentry : Json.nullable? Json.text? (entry.elim .null .str) = some entry := by
    cases entry <;> rfl
  have hrecord : Json.Record.ofJson? ["cs", "entry", "mock-main-args"] true (toJson ⟨sel, entry, mock⟩) =
      some [some (.str sel.text), some (entry.elim .null .str), some (.bool mock)] := by
    rfl
  rw [ofJson?, hrecord]
  simp [Json.optional?, hsel, hentry, Json.bool?]

/-- The options are read back from their text. -/
theorem parse?_text (h : o.selector.IsNamed) : parse? o.text = some o := by
  rw [parse?, text, Json.parse?_compress o.isPlain_toJson, Option.bind_eq_bind, Option.bind_some,
    ofJson?_toJson h]

end Options

/-! ## The main result -/

/-- A policy without a bound, or with a positive one that fits into a word, is read back from its text. A
text is read as a policy exactly if it is `ci`, or digits with a value that fits into a word and the name of
a kind; a value of zero stands for no context. So the text of a policy that was read is read as the same
policy. Options with such a policy are read back from the document that is written for them. -/
theorem Options.read_back :
    (∀ sel : Selector, sel.IsNamed → Selector.parse? sel.text = some sel) ∧
    (∀ s sel, Selector.parse? s = some sel → Selector.parse? sel.text = some sel) ∧
    (∀ s sel, Selector.parse? s = some sel ↔ Selector.Names s sel) ∧
    ∀ o : Options, o.selector.IsNamed → parse? o.text = some o := by
  refine ⟨fun sel h => ?_, fun s sel h => ?_, fun s sel => Selector.parse?_eq_some_iff, fun o => parse?_text⟩
  · exact Selector.parse?_eq_some_iff.2 h.names_text
  · exact Selector.parse?_eq_some_iff.2 (Selector.parse?_eq_some_iff.1 h).isNamed.names_text

/-- The greatest bound and an entry that has to be escaped; leading zeros, and a bound of zero. -/
theorem Options.read_back_escaped :
    let o : Options := ⟨.object (Selector.boundLimit - 1), some "L\"\\\n\x01é😀", true⟩
    o.selector.IsNamed ∧ parse? o.text = some o ∧ Selector.parse? o.selector.text = some o.selector ∧
      Selector.Names "007-type" (.type 7) ∧ Selector.parse? "7-type" = some (.type 7) ∧
      Selector.Names "00-call" .insensitive ∧ Selector.parse? "ci" = some .insensitive := by
  intro o
  obtain ⟨hpolicy, hagain, hnames, hoptions⟩ := read_back
  have hnamed : o.selector.IsNamed := ⟨by decide, by decide⟩
  have hseven : Selector.parse? "007-type" = some (.type 7) := by decide +kernel
  have hzero : Selector.parse? "00-call" = some .insensitive := by decide +kernel
  exact ⟨hnamed, hoptions o hnamed, hpolicy _ hnamed, (hnames _ _).1 hseven, hagain _ _ hseven,
    (hnames _ _).1 hzero, hagain _ _ hzero⟩

end PointsTo
