import PointsTo.Program.Ids

/-!
# Contexts

A context is a bounded history of call sites, objects or types that tells apart the analyses of one
method. Tokens are appended at the end, and only the last ones are kept.
-/

namespace PointsTo

/-- An abstract object, by its position in the heap. -/
structure ObjectId where
  idx : Nat
  deriving DecidableEq, Repr, Inhabited

/-- The identifier as it is shown: `o0` for the first object. -/
def ObjectId.text (o : ObjectId) : String := "o" ++ toString o.idx

/-- One token of a context. -/
inductive Token where
  | callSite (s : StmtId)
  | object (o : ObjectId)
  | type (c : ClassId)
  deriving DecidableEq, Repr

namespace Token

def text : Token → String
  | callSite s => s.text
  | object o => o.text
  | type c => c.text

def rank : Token → Nat
  | callSite _ => 0
  | object _ => 1
  | type _ => 2

/-- Position that the token names. -/
def idx : Token → Nat
  | callSite s => s.idx
  | object o => o.idx
  | type c => c.idx

/-- Order of tokens: call sites, then objects, then types, each by position. -/
def compare (a b : Token) : Ordering :=
  (Ord.compare a.rank b.rank).then (Ord.compare a.idx b.idx)

end Token

/-- A context, the most recent token last. -/
abbrev Context := List Token

namespace Context

/-- The last `k` tokens of a context, or all of them if there are fewer. -/
def lastK (c : Context) (k : Nat) : Context := c.drop (c.length - k)

/-- The context with one more token, of which at most `k` tokens are kept. -/
def extend (c : Context) (t : Token) (k : Nat) : Context :=
  if k = 0 then [] else c.lastK (k - 1) ++ [t]

/-- A context as text: `[s3, o0]`. -/
def text (c : Context) : String :=
  "[" ++ String.intercalate ", " (c.map (·.text)) ++ "]"

/-- Order of contexts: lexicographic, a proper beginning first. -/
def compare : Context → Context → Ordering
  | [], [] => .eq
  | [], _ :: _ => .lt
  | _ :: _, [] => .gt
  | a :: c, b :: d => (a.compare b).then (compare c d)

end Context

end PointsTo
