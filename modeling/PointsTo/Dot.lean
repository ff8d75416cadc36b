/-!
# Dot text

Lines of a directed graph in the dot format: one line for each node and each edge, with four blanks of
indentation.
-/

namespace PointsTo.Dot

/-- How a character is written in a label: quotes and backslashes are escaped, and a line break ends a
left-justified line. -/
def escapeChar (c : Char) : List Char :=
  match c with
  | '"' => ['\\', '"']
  | '\\' => ['\\', '\\']
  | '\n' => ['\\', 'l']
  | c => [c]

def label (s : String) : String :=
  "label = \"" ++ String.ofList (s.toList.flatMap escapeChar) ++ "\" "

def node (index : Nat) (text attributes : String) : String :=
  "    " ++ toString index ++ " [ " ++ label text ++ attributes ++ "]\n"

/-- The line of an edge without a label. -/
def edge (source target : Nat) (attributes : String) : String :=
  "    " ++ toString source ++ " -> " ++ toString target ++ " [ " ++ attributes ++ "]\n"

/-- The line of an edge with a label and no attributes. -/
def labelledEdge (source target : Nat) (text : String) : String :=
  edge source target (label text)

end PointsTo.Dot
