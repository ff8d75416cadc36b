import PointsTo.Json.Basic

/-!
# Writing JSON documents

`compress` writes a document on one line, `pretty` with one member or item on a line and two blanks
of indentation. Only quotes, backslashes and control characters are escaped in strings.
-/

namespace PointsTo.Json

/-- Hexadecimal digit below sixteen, in lower case. -/
def hexDigit (n : Nat) : Char := Nat.digitChar n

/-- How a character is written in a string literal. -/
def escapeChar (c : Char) : List Char :=
  match c with
  | '"' => ['\\', '"']
  | '\\' => ['\\', '\\']
  | '\n' => ['\\', 'n']
  | '\r' => ['\\', 'r']
  | '\t' => ['\\', 't']
  | '\x08' => ['\\', 'b']
  | '\x0c' => ['\\', 'f']
  | c =>
    if c.toNat < 0x20 then
      ['\\', 'u', '0', '0', hexDigit (c.toNat / 16), hexDigit (c.toNat % 16)]
    else [c]

def literal (s : String) : String :=
  "\"" ++ String.ofList (s.toList.flatMap escapeChar) ++ "\""

mutual

/-- The document on one line, without blanks. -/
def compress : Json → String
  | .null => "null"
  | .bool true => "true"
  | .bool false => "false"
  | .number spelling => spelling
  | .text t => literal (t.getD "")
  | .array items => "[" ++ String.intercalate "," (compressItems items) ++ "]"
  | .object members => "\x7b" ++ String.intercalate "," (compressMembers members) ++ "\x7d"

/-- The items of an array, each on one line. -/
def compressItems : List Json → List String
  | [] => []
  | j :: js => compress j :: compressItems js

/-- The members of an object, each on one line. -/
def compressMembers : List (JsonText × Json) → List String
  | [] => []
  | (k, j) :: ms => (literal (k.getD "") ++ ":" ++ compress j) :: compressMembers ms

end

/-- A line break and the indentation of a level. -/
def newline (level : Nat) : String :=
  "\n" ++ String.ofList (List.replicate (2 * level) ' ')

/-- Parts between brackets, each on a line of its own. -/
def layout (opening closing : String) (level : Nat) : List String → String
  | [] => opening ++ closing
  | parts =>
    opening ++ newline (level + 1) ++ String.intercalate ("," ++ newline (level + 1)) parts
      ++ newline level ++ closing

mutual

/-- The document at a level of indentation. -/
def prettyAt (level : Nat) : Json → String
  | .array items => layout "[" "]" level (prettyItems (level + 1) items)
  | .object members => layout "\x7b" "\x7d" level (prettyMembers (level + 1) members)
  | j => compress j

/-- The items of an array at a level of indentation. -/
def prettyItems (level : Nat) : List Json → List String
  | [] => []
  | j :: js => prettyAt level j :: prettyItems level js

/-- The members of an object at a level of indentation. -/
def prettyMembers (level : Nat) : List (JsonText × Json) → List String
  | [] => []
  | (k, j) :: ms => (literal (k.getD "") ++ ": " ++ prettyAt level j) :: prettyMembers level ms

end

def pretty (j : Json) : String := prettyAt 0 j

end PointsTo.Json
