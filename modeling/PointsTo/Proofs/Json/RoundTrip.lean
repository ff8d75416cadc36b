import PointsTo.Json.Printer
import PointsTo.Json.Reader

/-! # Documents are read back

A document on one line is a row of tokens without blanks. The scanner cuts the line into these tokens, and
the reader makes the document of them again. Only a number needs to look at what comes behind it, so the
documents here are those without numbers; their strings have to denote texts.
-/

namespace PointsTo.Json

namespace Token

/-! ## String literals -/

/-- The piece stands for the character, whatever comes behind it. -/
def Piece.Spells (p : Piece) (c : Char) : Prop :=
  ∀ ps, join? (p :: ps) = (join? ps).map (c :: ·)

/-- A character that needs no escape spells itself. -/
theorem spells_char (c : Char) : (Piece.char c).Spells c := fun _ => rfl

/-- A code unit that is not half of a pair stands for a character of its own. -/
theorem spells_unit {c : Char} (h : c.toNat < 0xD800) : (Piece.unit c.toNat).Spells c := by
  have hhigh : isHighSurrogate c.toNat = false := by
    simp only [isHighSurrogate, Bool.and_eq_false_iff, decide_eq_false_iff_not]
    omega
  have hlow : isLowSurrogate c.toNat = false := by
    simp only [isLowSurrogate, Bool.and_eq_false_iff, decide_eq_false_iff_not]
    omega
  intro ps
  -- the reader looks whether a second code unit follows
  cases ps with
  | nil => simp [join?, hhigh, hlow]
  | cons p ps => cases p <;> simp [join?, hhigh, hlow]

/-- A control character is written with two hexadecimal digits. -/
theorem hex4?_hexDigit : ∀ n < 0x20, hex4? '0' '0' (hexDigit (n / 16)) (hexDigit (n % 16)) = some n := by
  decide

/-- A character is written as one piece that stands for it. -/
theorem string?_escapeChar (c : Char) : ∃ p : Piece, p.Spells c ∧
    ∀ rest, string? (escapeChar c ++ rest) = (string? rest).map fun q => (p :: q.1, q.2) := by
  unfold escapeChar
  split
  case h_8 hquote hbackslash _ _ _ _ _ =>
    split
    · rename_i hcontrol
      refine ⟨.unit c.toNat, spells_unit (by omega), fun rest => ?_⟩
      simp only [List.cons_append, List.nil_append, string?, hex4?_hexDigit _ hcontrol]
      cases string? rest <;> rfl
    · rename_i hplain
      refine ⟨.char c, spells_char c, fun rest => ?_⟩
      rw [List.singleton_append, string?]
      · have hne : (c == '\\') = false := beq_false_of_ne hbackslash
        simp only [hne, hplain, decide_false, Bool.or_self, Bool.false_eq_true, if_false]
        cases string? rest <;> rfl
      · exact hquote
      · exact fun _ _ _ _ _ hc _ => hbackslash hc
      · exact fun _ _ hc _ => hbackslash hc
  all_goals
    refine ⟨.char _, spells_char _, fun rest => ?_⟩
    cases h : string? rest <;> simp [string?, shortEscape?, h]

/-- The pieces of a literal denote what the literal was written for. -/
theorem string?_literal (cs rest : List Char) : ∃ ps,
    string? (cs.flatMap escapeChar ++ '"' :: rest) = some (ps, rest) ∧ join? ps = some cs := by
  induction cs with
  | nil => exact ⟨[], rfl, rfl⟩
  | cons c cs ih =>
      obtain ⟨ps, hread, hjoin⟩ := ih
      obtain ⟨p, hspells, hpiece⟩ := string?_escapeChar c
      refine ⟨p :: ps, ?_, ?_⟩
      · rw [List.flatMap_cons, List.append_assoc, hpiece, hread]
        rfl
      · rw [hspells, hjoin]
        rfl

/-! ## Tokens -/

def chars : Token → List Char
  | openBrace => ['\x7b']
  | closeBrace => ['\x7d']
  | openBracket => ['[']
  | closeBracket => [']']
  | colon => [':']
  | comma => [',']
  | null => "null".toList
  | bool true => "true".toList
  | bool false => "false".toList
  | number spelling => spelling.toList
  | text t => (literal (t.getD "")).toList

/-- The token is no number, and denotes a text if it is a string. -/
def IsPlain : Token → Prop
  | number _ => False
  | text t => t ≠ none
  | _ => True

/-- A literal has its characters between quotes, each escaped if it has to be. -/
theorem toList_literal (s : String) :
    (literal s).toList = '"' :: (s.toList.flatMap escapeChar ++ ['"']) := by
  simp [literal]

/-- A plain token does not start with a blank. -/
theorem exists_chars_eq_cons {t : Token} (h : t.IsPlain) :
    ∃ c cs, t.chars = c :: cs ∧ isBlank c = false := by
  cases t with
  | number spelling => exact h.elim
  | text t => exact ⟨_, _, toList_literal _, rfl⟩
  | bool b => cases b <;> exact ⟨_, _, rfl, rfl⟩
  | _ => exact ⟨_, _, rfl, rfl⟩

/-- A plain token ends where it was written to end, whatever comes behind it. -/
theorem next?_chars {t : Token} (h : t.IsPlain) (rest : List Char) :
    next? (t.chars ++ rest) = some (t, rest) := by
  cases t with
  | number spelling => exact h.elim
  | text t =>
      cases t with
      | none => exact absurd rfl h
      | some s =>
          obtain ⟨ps, hread, hjoin⟩ := string?_literal s.toList rest
          rw [chars, toList_literal, List.cons_append, List.append_assoc, Option.getD_some,
            List.singleton_append]
          show (string? _).map (fun q => (text ((join? q.1).map String.ofList), q.2)) = _
          rw [hread, Option.map_some, hjoin, Option.map_some, String.ofList_toList]
  | bool b => cases b <;> rfl
  | _ => rfl

/-- The scanner cuts a row of plain tokens where they end. -/
theorem scanFrom_chars {ts : List Token} (h : ∀ t ∈ ts, t.IsPlain) {fuel : Nat}
    (hfuel : (ts.flatMap chars).length ≤ fuel) : scanFrom fuel (ts.flatMap chars) = some ts := by
  induction ts generalizing fuel with
  | nil => cases fuel <;> rfl
  | cons t ts ih =>
      obtain ⟨ht, hts⟩ := List.forall_mem_cons.1 h
      obtain ⟨c, cs, hcs, hblank⟩ := exists_chars_eq_cons ht
      have hnext := next?_chars ht (ts.flatMap chars)
      rw [List.flatMap_cons, hcs] at hfuel ⊢
      rw [hcs] at hnext
      cases fuel with
      | zero => cases hfuel
      | succ fuel =>
          have hrest : (ts.flatMap chars).length ≤ fuel := by
            simp only [List.cons_append, List.length_cons, List.length_append] at hfuel
            omega
          rw [List.cons_append] at hnext ⊢
          rw [scanFrom, hblank, hnext, if_neg Bool.false_ne_true, Option.bind_eq_bind, Option.bind_some]
          dsimp only
          rw [ih hts hrest]
          rfl

end Token

/-! ## Documents -/

mutual

def tokens : Json → List Token
  | null => [.null]
  | bool b => [.bool b]
  | number spelling => [.number spelling]
  | text t => [.text t]
  | array [] => [.openBracket, .closeBracket]
  | array (j :: js) => .openBracket :: (tokens j ++ (tokensAfterItem js ++ [.closeBracket]))
  | object [] => [.openBrace, .closeBrace]
  | object ((k, j) :: ms) =>
    .openBrace :: .text k :: .colon :: (tokens j ++ (tokensAfterMember ms ++ [.closeBrace]))

/-- The tokens of the items behind another one. -/
def tokensAfterItem : List Json → List Token
  | [] => []
  | j :: js => .comma :: (tokens j ++ tokensAfterItem js)

/-- The tokens of the members behind another one. -/
def tokensAfterMember : List (JsonText × Json) → List Token
  | [] => []
  | (k, j) :: ms => .comma :: .text k :: .colon :: (tokens j ++ tokensAfterMember ms)

end

/-- Strings with a separator are the first one, and then each other one behind a separator. -/
theorem toList_intercalate_cons (sep s : String) (ss : List String) :
    (String.intercalate sep (s :: ss)).toList = s.toList ++ ss.flatMap fun t => sep.toList ++ t.toList := by
  induction ss generalizing s with
  | nil => simp
  | cons t ss ih =>
      rw [String.intercalate_cons_cons, String.toList_append, String.toList_append, ih t,
        List.flatMap_cons, List.append_assoc, List.append_assoc]

mutual

/-- A document is written as the row of its tokens. -/
theorem toList_compress : (j : Json) → j.compress.toList = j.tokens.flatMap Token.chars
  | null => by simp [compress, tokens, Token.chars]
  | bool true => by simp [compress, tokens, Token.chars]
  | bool false => by simp [compress, tokens, Token.chars]
  | number spelling => by simp [compress, tokens, Token.chars]
  | text t => by simp [compress, tokens, Token.chars]
  | array [] => by simp [compress, compressItems, tokens, Token.chars]
  | array (j :: js) => by
      rw [compress, String.toList_append, String.toList_append, compressItems, toList_intercalate_cons,
        toList_compress j, toList_compressItems js]
      simp [tokens, Token.chars]
  | object [] => by simp [compress, compressMembers, tokens, Token.chars]
  | object ((k, j) :: ms) => by
      rw [compress, String.toList_append, String.toList_append, compressMembers, toList_intercalate_cons,
        String.toList_append, toList_compress j, toList_compressMembers ms]
      simp [tokens, Token.chars]

/-- Items behind the first one are written as their tokens. -/
theorem toList_compressItems : (js : List Json) →
    ((compressItems js).flatMap fun s => ",".toList ++ s.toList) =
      (tokensAfterItem js).flatMap Token.chars
  | [] => rfl
  | j :: js => by
      simp [compressItems, tokensAfterItem, Token.chars, toList_compress j, ← toList_compressItems js]

/-- Members behind the first one are written as their tokens. -/
theorem toList_compressMembers : (ms : List (JsonText × Json)) →
    ((compressMembers ms).flatMap fun s => ",".toList ++ s.toList) =
      (tokensAfterMember ms).flatMap Token.chars
  | [] => rfl
  | (k, j) :: ms => by
      simp [compressMembers, tokensAfterMember, Token.chars, toList_compress j,
        ← toList_compressMembers ms]

end

/-! ## The reader -/

open ReaderState

/-- Where an array may end, the reader takes the tokens of a document as its first item, because they do
not start with a closing bracket. -/
theorem foldlM_tokens_valueOrClose (j : Json) (rest : List Token) (stack : List Frame) :
    (j.tokens ++ rest).foldlM step ⟨.valueOrClose, stack⟩ =
      (j.tokens ++ rest).foldlM step ⟨.value, .array [] :: stack⟩ := by
  cases j with
  | array items => cases items <;> rw [tokens] <;> rfl
  | object members => cases members <;> rw [tokens] <;> rfl
  | _ => rfl

mutual

/-- Where a value is expected, the reader takes the tokens of a document as this value. -/
theorem foldlM_tokens : (j : Json) → (stack : List Frame) →
    j.tokens.foldlM step ⟨.value, stack⟩ = some (supply stack j)
  | null, _ => rfl
  | bool _, _ => rfl
  | number _, _ => rfl
  | text _, _ => rfl
  | array [], _ => rfl
  | array (j :: js), stack => by
      have hitems := foldlM_tokensAfterItem js [j] stack
      rw [tokens, List.foldlM_cons]
      show List.foldlM step ⟨.valueOrClose, stack⟩ _ = _
      rw [foldlM_tokens_valueOrClose, List.foldlM_append, foldlM_tokens j]
      show List.foldlM step ⟨.separator [j], stack⟩ _ = _
      rw [List.foldlM_append, hitems]
      show some (supply stack (array (js.reverse ++ [j]).reverse)) = _
      simp
  | object [], _ => rfl
  | object ((k, j) :: ms), stack => by
      have hmembers := foldlM_tokensAfterMember ms [(k, j)] stack
      rw [tokens, List.foldlM_cons]
      show List.foldlM step ⟨.value, .object [] k :: stack⟩ _ = _
      rw [List.foldlM_append, foldlM_tokens j]
      show List.foldlM step ⟨.memberSeparator [(k, j)], stack⟩ _ = _
      rw [List.foldlM_append, hmembers]
      show some (supply stack (object (ms.reverse ++ [(k, j)]).reverse)) = _
      simp

/-- Items are gathered in reverse. -/
theorem foldlM_tokensAfterItem : (js before : List Json) → (stack : List Frame) →
    (tokensAfterItem js).foldlM step ⟨.separator before, stack⟩ =
      some ⟨.separator (js.reverse ++ before), stack⟩
  | [], _, _ => rfl
  | j :: js, before, stack => by
      have hrest := foldlM_tokensAfterItem js (j :: before) stack
      rw [tokensAfterItem, List.foldlM_cons]
      show List.foldlM step ⟨.value, .array before :: stack⟩ _ = _
      rw [List.foldlM_append, foldlM_tokens j]
      refine hrest.trans ?_
      simp

/-- Members are gathered in reverse. -/
theorem foldlM_tokensAfterMember : (ms before : List (JsonText × Json)) → (stack : List Frame) →
    (tokensAfterMember ms).foldlM step ⟨.memberSeparator before, stack⟩ =
      some ⟨.memberSeparator (ms.reverse ++ before), stack⟩
  | [], _, _ => rfl
  | (k, j) :: ms, before, stack => by
      have hrest := foldlM_tokensAfterMember ms ((k, j) :: before) stack
      rw [tokensAfterMember, List.foldlM_cons]
      show List.foldlM step ⟨.value, .object before k :: stack⟩ _ = _
      rw [List.foldlM_append, foldlM_tokens j]
      refine hrest.trans ?_
      simp

end

/-! ## The main result -/

/-- A document of plain tokens is read back from what `compress` writes. -/
theorem parse?_compress {j : Json} (h : ∀ t ∈ j.tokens, t.IsPlain) : parse? j.compress = some j := by
  have hscan : Token.scan j.compress = some j.tokens := by
    rw [Token.scan, toList_compress]
    exact Token.scanFrom_chars h (Nat.le_refl _)
  rw [parse?, hscan, Option.bind_eq_bind, Option.bind_some, ofTokens?, foldlM_tokens]
  rfl

end PointsTo.Json
