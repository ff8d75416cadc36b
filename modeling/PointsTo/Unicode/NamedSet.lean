import PointsTo.Text.CharSet

/-!
# Tables of named sets

The sets of the character database are written as texts: a number has the digits `a` to `z`, the last of them
in upper case, and every range is given by two numbers, its distance from the range before and the number of
code points that follow its first one.
-/

namespace PointsTo.Unicode

/-- Reads a digit: the numbers that are complete, in reverse, and the one that is being read. -/
def readDigit (s : List Nat × Nat) (c : Char) : List Nat × Nat :=
  if c.isUpper then ((s.2 * 26 + (c.toNat - 'A'.toNat)) :: s.1, 0)
  else (s.1, s.2 * 26 + (c.toNat - 'a'.toNat))

/-- The numbers of a text, which is given line by line. -/
def numbers (code : List String) : List Nat :=
  ((code.flatMap String.toList).foldl readDigit ([], 0)).1.reverse

/-- The ranges that the numbers describe, from the code point `next` on. -/
def rangesFrom (next : Nat) : List Nat → List (Nat × Nat)
  | gap :: more :: rest =>
    (next + gap, next + gap + more) :: rangesFrom (next + gap + more + 1) rest
  | _ => []

/-- A set of characters with its names, in lower case and without marks between words. -/
structure NamedSet where
  names : List String
  code : List String

def NamedSet.set (s : NamedSet) : CharSet := ⟨rangesFrom 0 (numbers s.code)⟩

/-- The set of a name. -/
def find? (table : List NamedSet) (name : String) : Option CharSet :=
  (table.find? fun s => s.names.contains name).map NamedSet.set

end PointsTo.Unicode
