/-!
# JSON documents

The tree of a document as it was written: members keep their order and their repetitions, and a
number keeps its spelling. A string literal is well formed as soon as its escapes are, but only
those without a lone surrogate escape denote a text.
-/

namespace PointsTo

/-- Contents of a string literal: `none` if it names a surrogate without its partner, and therefore
denotes no text. -/
abbrev JsonText := Option String

/-- A JSON document. -/
inductive Json where
  | null
  | bool (b : Bool)
  | number (spelling : String)
  | text (t : JsonText)
  | array (items : List Json)
  | object (members : List (JsonText × Json))
  deriving Inhabited

namespace Json

/-- A string literal that denotes a text. -/
def str (s : String) : Json := .text (some s)

def nat (n : Nat) : Json := .number (toString n)

/-- An object with the given members, in order. -/
def record (members : List (String × Json)) : Json :=
  .object (members.map fun m => (some m.1, m.2))

mutual

/-- Number of containers on the longest path into the document. -/
def depth : Json → Nat
  | .array items => depthItems items + 1
  | .object members => depthMembers members + 1
  | _ => 0

/-- Greatest depth among the items of an array. -/
def depthItems : List Json → Nat
  | [] => 0
  | j :: js => max j.depth (depthItems js)

/-- Greatest depth among the values of an object. -/
def depthMembers : List (JsonText × Json) → Nat
  | [] => 0
  | (_, j) :: ms => max j.depth (depthMembers ms)

end

end Json

end PointsTo
