import PointsTo.Json.Basic
import PointsTo.Json.Token

/-!
# Reading JSON documents

The reader is a pushdown automaton over tokens: a mode says what may come next, a stack holds the
containers that are still open. It takes any depth of nesting.
-/

namespace PointsTo.Json

/-- A container that is still open, its contents in reverse. -/
inductive Frame where
  | array (items : List Json)
  | object (members : List (JsonText × Json)) (key : JsonText)

/-- What the reader expects next. -/
inductive Mode where
  | value
  | valueOrClose
  | key (members : List (JsonText × Json))
  | keyOrClose
  | colon (members : List (JsonText × Json)) (key : JsonText)
  | separator (items : List Json)
  | memberSeparator (members : List (JsonText × Json))
  | done (j : Json)

/-- State of the reader. -/
structure ReaderState where
  mode : Mode
  stack : List Frame

namespace ReaderState

/-- A value is complete: it joins the innermost open container, or is the document. -/
def supply (stack : List Frame) (j : Json) : ReaderState :=
  match stack with
  | [] => ⟨.done j, []⟩
  | .array items :: stack => ⟨.separator (j :: items), stack⟩
  | .object members key :: stack => ⟨.memberSeparator ((key, j) :: members), stack⟩

/-- A token where a value is expected. -/
def openValue (stack : List Frame) : Token → Option ReaderState
  | .null => some (supply stack .null)
  | .bool b => some (supply stack (.bool b))
  | .number n => some (supply stack (.number n))
  | .text t => some (supply stack (.text t))
  | .openBracket => some ⟨.valueOrClose, stack⟩
  | .openBrace => some ⟨.keyOrClose, stack⟩
  | _ => none

/-- One token. -/
def step (s : ReaderState) (t : Token) : Option ReaderState :=
  match s.mode, t with
  | .value, t => openValue s.stack t
  | .valueOrClose, .closeBracket => some (supply s.stack (.array []))
  | .valueOrClose, t => openValue (.array [] :: s.stack) t
  | .separator items, .comma => some ⟨.value, .array items :: s.stack⟩
  | .separator items, .closeBracket => some (supply s.stack (.array items.reverse))
  | .keyOrClose, .closeBrace => some (supply s.stack (.object []))
  | .keyOrClose, .text k => some ⟨.colon [] k, s.stack⟩
  | .key members, .text k => some ⟨.colon members k, s.stack⟩
  | .colon members k, .colon => some ⟨.value, .object members k :: s.stack⟩
  | .memberSeparator members, .comma => some ⟨.key members, s.stack⟩
  | .memberSeparator members, .closeBrace => some (supply s.stack (.object members.reverse))
  | _, _ => none

end ReaderState

/-- The document that a list of tokens spells. -/
def ofTokens? (ts : List Token) : Option Json := do
  let s ← ts.foldlM ReaderState.step ⟨.value, []⟩
  match s.mode with
  | .done j => some j
  | _ => none

/-- Reads a document; nothing but blanks may surround it. -/
def parse? (s : String) : Option Json :=
  Token.scan s >>= ofTokens?

end PointsTo.Json
