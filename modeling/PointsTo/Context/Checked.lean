import PointsTo.Context.Selector

/-!
# Checked cuts

The positions at which contexts are cut are differences of lengths and limits. A checked cut makes sure
of every number on the way: a difference is not negative, a sum is a word of 64 bits, and a slice starts
within the context. Otherwise there is no result.
-/

namespace PointsTo.Context

/-- The difference of two words, if it is not negative. -/
def minus? (m n : Nat) : Option Nat := if n ≤ m then some (m - n) else none

/-- The sum of two words, if it is a word. -/
def plus? (m n : Nat) : Option Nat := if m + n < Selector.boundLimit then some (m + n) else none

/-- The tokens from a position on, if it is not beyond the end. -/
def slice? (c : Context) (start : Nat) : Option Context :=
  if start ≤ c.length then some (c.drop start) else none

def lastK? (c : Context) (k : Nat) : Option Context :=
  if c.length ≤ k then some c else do c.slice? (← minus? c.length k)

def extend? (c : Context) (t : Token) (k : Nat) : Option Context :=
  if k = 0 then some []
  else do
    let keep := min c.length (← minus? k 1)
    -- the number of tokens that room is made for
    let _ ← plus? keep 1
    return (← c.slice? (← minus? c.length keep)) ++ [t]

end PointsTo.Context
