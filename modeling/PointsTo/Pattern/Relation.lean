/-!
# Relations between positions

The positions of a text are numbered from zero. A set of positions is a natural number with a bit for each of
them; a relation has for every position the set of those that it leads to, none of which is smaller.
-/

namespace PointsTo.Pattern

/-- A set of positions. -/
abbrev Positions := Nat

namespace Positions

/-- Of the `1 <<< e` positions from `first` on those that are below `n` and satisfy a condition, counted from
`first`. The two halves are looked at in turn. -/
def filterFrom (n : Nat) (p : Nat → Bool) : (e first : Nat) → Positions
  | 0, first => if first < n && p first then 1 else 0
  | e + 1, first =>
    if n ≤ first then 0
    else filterFrom n p e first ||| (filterFrom n p e (first + (1 <<< e)) <<< (1 <<< e))

/-- The positions below `n` that satisfy a condition. -/
def filter (n : Nat) (p : Nat → Bool) : Positions := filterFrom n p (n.log2 + 1) 0

/-- The positions of the first set that are not in the second. -/
def remove (s t : Positions) : Positions := s ^^^ (s &&& t)

/-- The least position of a set that is not empty. -/
def least (s : Positions) : Nat := (s ^^^ (s &&& (s - 1))).log2

end Positions

/-- A relation between the positions of a text. -/
structure Relation where
  rows : Array Positions

namespace Relation

/-- The relation that leads from a position to those that a function gives. -/
def ofFn (n : Nat) (f : Nat → Positions) : Relation := ⟨((List.range n).map f).toArray⟩

def size (r : Relation) : Nat := r.rows.size

/-- Where a position leads to. -/
def row (r : Relation) (i : Nat) : Positions := r.rows.getD i 0

/-- Adds to `reached` where the positions of a set lead to, for at most `fuel` of them. -/
def imageFrom (r : Relation) : (fuel : Nat) → (s reached : Positions) → Positions
  | 0, _, reached => reached
  | fuel + 1, s, reached =>
    if s = 0 then reached
    else
      let i := Positions.least s
      imageFrom r fuel (s ^^^ (1 <<< i)) (reached ||| r.row i)

/-- Where the positions of a set lead to. -/
def image (r : Relation) (s : Positions) : Positions := r.imageFrom r.size s 0

def identity (n : Nat) : Relation := ofFn n fun i => 1 <<< i

def union (r s : Relation) : Relation := ofFn r.size fun i => r.row i ||| s.row i

def comp (r s : Relation) : Relation := ofFn r.size fun i => s.image (r.row i)

/-- Adds to `reached` where the positions of a set lead to, for at most `fuel` of them, if `closed` takes any
number of steps from a position. A position that was reached adds nothing. -/
def closeFrom (closed : Nat → Positions) : (fuel : Nat) → (s reached : Positions) → Positions
  | 0, _, reached => reached
  | fuel + 1, s, reached =>
    let s := Positions.remove s reached
    if s = 0 then reached
    else
      let i := Positions.least s
      closeFrom closed fuel (s ^^^ (1 <<< i)) (reached ||| closed i)

/-- Any number of steps of the relation. Steps do not lead back, so the rows are closed from the last one
on. -/
def star (r : Relation) : Relation :=
  let n := r.size
  ⟨((List.range n).foldl (fun (closed : Array Positions) k =>
    let i := n - 1 - k
    closed.push (closeFrom (fun j => closed.getD (n - 1 - j) 0) n (r.row i) (1 <<< i))) #[]).reverse⟩

/-- The one relation, and then any number of steps of the other. -/
def compStar (r s : Relation) : Relation :=
  let closed := s.star
  ofFn r.size fun i => closeFrom closed.row r.size (r.row i) 0

/-- So many steps of the relation. -/
def power (r : Relation) (n : Nat) : Relation :=
  if h : n = 0 then identity r.size
  else
    let half := power r (n / 2)
    let even := half.comp half
    if n % 2 = 0 then even else even.comp r
termination_by n
decreasing_by omega

/-- At least and at most so many steps of the relation. -/
def times (r : Relation) (least : Nat) (greatest : Option Nat) : Relation :=
  let start := r.power least
  match greatest with
  | none => start.compStar r
  | some m => start.comp ((r.union (identity r.size)).power (m - least))

end Relation

end PointsTo.Pattern
