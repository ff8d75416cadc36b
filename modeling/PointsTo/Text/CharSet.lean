/-!
# Sets of characters

A set of characters is kept as ranges of code points, each with its first and its last one, in increasing
order; ranges neither overlap nor touch. `ofRanges` brings any ranges into that form. A range may run over
the surrogates, which are no characters, but it starts and ends with a character.
-/

namespace PointsTo

/-- A set of characters. -/
structure CharSet where
  ranges : List (Nat × Nat)
  deriving DecidableEq, Repr

namespace CharSet

/-- The last code point. -/
def lastCode : Nat := 0x10ffff

/-- Joins a range to the ranges before it, the last one first; none of those starts behind it. -/
def append (before : List (Nat × Nat)) (r : Nat × Nat) : List (Nat × Nat) :=
  match before with
  | [] => [r]
  | (lo, hi) :: rest => if r.1 ≤ hi + 1 then (lo, max hi r.2) :: rest else r :: (lo, hi) :: rest

/-- The characters in one of the ranges. -/
def ofRanges (rs : List (Nat × Nat)) : CharSet :=
  ⟨((rs.mergeSort fun a b => a.1 ≤ b.1).foldl append []).reverse⟩

def empty : CharSet := ⟨[]⟩

def all : CharSet := ⟨[(0, lastCode)]⟩

def single (c : Char) : CharSet := ⟨[(c.toNat, c.toNat)]⟩

def ascii : CharSet := ⟨[(0, 0x7f)]⟩

/-- The code point of a set that has only one. -/
def single? (s : CharSet) : Option Nat :=
  match s.ranges with
  | [(lo, hi)] => if lo = hi then some lo else none
  | _ => none

def hasCode (s : CharSet) (n : Nat) : Bool := s.ranges.any fun r => r.1 ≤ n && n ≤ r.2

def contains (s : CharSet) (c : Char) : Bool := s.hasCode c.toNat

/-- The characters of either set. -/
def union (s t : CharSet) : CharSet := ofRanges (s.ranges ++ t.ranges)

/-- The character behind one; surrogates are skipped. -/
def nextCode (n : Nat) : Nat := if n = 0xd7ff then 0xe000 else n + 1

/-- The character in front of one; surrogates are skipped. -/
def previousCode (n : Nat) : Nat := if n = 0xe000 then 0xd7ff else n - 1

/-- What lies between two ranges: from behind the end of the one to in front of the start of the other. If
there are only surrogates, it is the characters next to them. -/
def gap (last first : Nat) : Nat × Nat :=
  let lo := nextCode last
  let hi := previousCode first
  (min lo hi, max lo hi)

/-- What lies between ranges and behind them, after one that ends with `last`. -/
def gapsFrom (last : Nat) : List (Nat × Nat) → List (Nat × Nat)
  | [] => if last < lastCode then [(nextCode last, lastCode)] else []
  | (lo, hi) :: rest => gap last lo :: gapsFrom hi rest

def complement (s : CharSet) : CharSet :=
  match s.ranges with
  | [] => all
  | (lo, hi) :: rest => ⟨(if 0 < lo then [(0, previousCode lo)] else []) ++ gapsFrom hi rest⟩

/-- The characters of both ranges. -/
def overlap? (r t : Nat × Nat) : Option (Nat × Nat) :=
  if max r.1 t.1 ≤ min r.2 t.2 then some (max r.1 t.1, min r.2 t.2) else none

def inter (s t : CharSet) : CharSet := ⟨s.ranges.flatMap fun r => t.ranges.filterMap (overlap? r)⟩

/-- What is left of a range behind those that are taken away from it, in increasing order. -/
def remove (r : Nat × Nat) : List (Nat × Nat) → List (Nat × Nat)
  | [] => [r]
  | t :: ts =>
    if t.2 < r.1 then remove r ts
    else if r.2 < t.1 then [r]
    else
      (if r.1 < t.1 then [(r.1, previousCode t.1)] else [])
        ++ (if t.2 < r.2 then remove (nextCode t.2, r.2) ts else [])

/-- The characters of the first set that are not in the second. -/
def difference (s t : CharSet) : CharSet := ⟨s.ranges.flatMap fun r => remove r t.ranges⟩

/-- The characters of one of the sets only. -/
def symmDiff (s t : CharSet) : CharSet := (s.union t).difference (s.inter t)

def isEmpty (s : CharSet) : Bool := s.ranges.isEmpty

def isAscii (s : CharSet) : Bool := s.ranges.all fun r => r.2 ≤ 0x7f

end CharSet

end PointsTo
