import PointsTo.Pattern.Escape

/-!
# Classes of characters

A class stands in brackets: characters, ranges, sets, and classes inside of it, which are united, and
operators between those unions, which are applied from the left. The nesting of a class is kept with its set.
-/

namespace PointsTo.Pattern

/-- A set of characters, and how deeply its description is nested. -/
structure NestedSet where
  set : CharSet
  depth : Nat
  deriving DecidableEq, Repr

/-- Items of a class that are united: their ranges, their number and the depth of the deepest one. -/
structure Items where
  ranges : List (Nat × Nat)
  count : Nat
  depth : Nat

namespace Items

def none : Items := ⟨[], 0, 0⟩

def add (u : Items) (s : NestedSet) : Items := ⟨s.set.ranges ++ u.ranges, u.count + 1, max u.depth s.depth⟩

/-- Union of the items; two items or more are one level. -/
def united (u : Items) : NestedSet :=
  ⟨.ofRanges u.ranges, if 2 ≤ u.count then u.depth + 1 else u.depth⟩

end Items

/-- An operator between sets. -/
inductive SetOp where
  | inter
  | difference
  | symmDiff
  deriving DecidableEq, Repr

/-- Applies an operator, to sets with both cases of their letters if the case does not count. -/
def SetOp.apply (f : Flags) (op : SetOp) (s t : NestedSet) : NestedSet :=
  let (a, b) := (f.fold s.set, f.fold t.set)
  let set := match op with
    | .inter => a.inter b
    | .difference => a.difference b
    | .symmDiff => a.symmDiff b
  ⟨set, max s.depth t.depth + 1⟩

/-- A class that is being read: its items since the last operator, and that operator with the set before it. -/
structure ClassFrame where
  negated : Bool
  items : Items
  pending : Option (NestedSet × SetOp)

namespace ClassFrame

def add (c : ClassFrame) (s : NestedSet) : ClassFrame := { c with items := c.items.add s }

def value (c : ClassFrame) (f : Flags) : NestedSet :=
  match c.pending with
  | some (s, op) => op.apply f s c.items.united
  | none => c.items.united

/-- Reads an operator. -/
def operator (c : ClassFrame) (f : Flags) (op : SetOp) : ClassFrame :=
  { c with items := .none, pending := some (c.value f, op) }

/-- The set of a complete class. -/
def close? (c : ClassFrame) (f : Flags) : Option NestedSet := do
  let v := c.value f
  return ⟨← f.negate? c.negated (f.fold v.set), v.depth + 1⟩

end ClassFrame

/-- The set of a single character, within ASCII unless sets go beyond. -/
def literalSet? (f : Flags) (c : Char) : Option CharSet :=
  if f.has .unicode || c.toNat < 0x80 then some (.single c) else none

/-- Reads an atom of a class. -/
def classAtom? (f : Flags) : List Char → Option (Atom × List Char)
  | [] => none
  | '\\' :: rest => escape? f rest
  | c :: rest => some (.literal c false, rest)

/-- The set of an atom; a condition is none. -/
def atomSet? (f : Flags) : Atom → Option CharSet
  | .literal c _ => literalSet? f c
  | .set s => some s
  | .look _ => none

/-- The set of a range between two atoms, which have to be characters. -/
def rangeSet? (f : Flags) : Atom → Atom → Option CharSet
  | .literal a _, .literal b _ => do
    let _ ← literalSet? f a
    let _ ← literalSet? f b
    if a ≤ b then some ⟨[(a.toNat, b.toNat)]⟩ else none
  | _, _ => none

/-- The first character that is neither a blank nor the first hash. -/
def peekFrom (seenHash : Bool) : List Char → Option Char
  | [] => none
  | c :: cs =>
    if isSpace c then peekFrom seenHash cs
    else if c = '#' && !seenHash then peekFrom true cs
    else some c

/-- The character that decides whether a hyphen stands for a range. -/
def peek (f : Flags) (cs : List Char) : Option Char :=
  if f.has .verbose then (peekFrom false cs).orElse fun _ => cs.head? else cs.head?

/-- Reads a range or a single atom. A hyphen in front of a closing bracket or of another hyphen does not make a
range. -/
def classItem? (f : Flags) (cs : List Char) : Option (CharSet × List Char) := do
  let (a, rest) ← classAtom? f cs
  match skip f rest with
  | [] => none
  | '-' :: after =>
    if peek f after = some ']' ∨ peek f after = some '-' then return (← atomSet? f a, '-' :: after)
    else
      let (b, rest) ← classAtom? f (skip f after)
      return (← rangeSet? f a b, rest)
  | rest => return (← atomSet? f a, rest)

/-- Reads the name of a class between colons, behind its opening bracket. -/
def className? : List Char → Option (Bool × CharSet × List Char)
  | ':' :: rest => do
    let (negated, rest) := match rest with
      | '^' :: rest => (true, rest)
      | rest => (false, rest)
    match rest.dropWhile (· != ':') with
    | ':' :: ']' :: after =>
      return (negated, ← namedClass? (String.ofList (rest.takeWhile (· != ':'))), after)
    | _ => none
  | _ => none

/-- Reads hyphens at the start of a class, inside of a comment or not. They stand for themselves. -/
def leadingHyphens (f : Flags) (inComment : Bool) (items : Items) : List Char → Items × List Char
  | [] => (items, [])
  | c :: cs =>
    match skipped? f inComment c with
    | some inComment => leadingHyphens f inComment items cs
    | none =>
      if c = '-' then leadingHyphens f false (items.add ⟨.single '-', 0⟩) cs else (items, c :: cs)

/-- Reads the start of a class behind its opening bracket. A closing bracket stands for itself if it comes
first. -/
def openClass (f : Flags) (cs : List Char) : ClassFrame × List Char :=
  let (negated, cs) := match skip f cs with
    | '^' :: rest => (true, skip f rest)
    | cs => (false, cs)
  let (items, cs) := leadingHyphens f false .none cs
  match items.count, cs with
  | 0, ']' :: rest => (⟨negated, items.add ⟨.single ']', 0⟩, none⟩, skip f rest)
  | _, cs => (⟨negated, items, none⟩, cs)

/-- Reads the rest of a class with the classes around it, the innermost first; at most `fuel` items. -/
def classFrom? (f : Flags) : (fuel : Nat) → ClassFrame → List ClassFrame → List Char →
    Option (NestedSet × List Char)
  | 0, _, _, _ => none
  | fuel + 1, frame, outer, cs =>
    match skip f cs with
    | [] => none
    | '[' :: rest =>
      match className? rest with
      | some (negated, set, rest) => do
        let set ← f.negate? negated (f.fold set)
        classFrom? f fuel (frame.add ⟨set, 0⟩) outer rest
      | none =>
        let (inner, rest) := openClass f rest
        classFrom? f fuel inner (frame :: outer) rest
    | ']' :: rest => do
      let s ← frame.close? f
      match outer with
      | [] => some (s, rest)
      | parent :: outer => classFrom? f fuel (parent.add s) outer rest
    | '&' :: '&' :: rest => classFrom? f fuel (frame.operator f .inter) outer rest
    | '-' :: '-' :: rest => classFrom? f fuel (frame.operator f .difference) outer rest
    | '~' :: '~' :: rest => classFrom? f fuel (frame.operator f .symmDiff) outer rest
    | cs => do
      let (set, rest) ← classItem? f cs
      classFrom? f fuel (frame.add ⟨set, 0⟩) outer rest

def class? (f : Flags) (fuel : Nat) (cs : List Char) : Option (NestedSet × List Char) :=
  let (frame, rest) := openClass f cs
  classFrom? f fuel frame [] rest

end PointsTo.Pattern
