import PointsTo.Pattern.CharClass
import PointsTo.Pattern.Size

/-!
# Reading patterns

Patterns are read from the left, with a stack of the groups that are still open. Flags hold up to the end of
the group in which they are set. A pattern is refused if it is nested too deeply or if its automata are too
large.
-/

namespace PointsTo.Pattern

/-- A part of a pattern, and how deeply it is nested. A directive only sets flags. -/
structure Part where
  pattern : Pattern
  depth : Nat
  isDirective : Bool

namespace Part

def flat (p : Pattern) : Part := ⟨p, 0, false⟩

/-- Depth of a level around parts. -/
def depthAround (ps : List Part) : Nat := (ps.map depth).foldl max 0 + 1

/-- Parts one after another; two or more are one level. -/
def sequence : List Part → Part
  | [] => flat .empty
  | [p] => p
  | ps => ⟨Pattern.sequence (ps.map pattern), depthAround ps, false⟩

/-- One of several parts; two or more are one level. -/
def oneOf : List Part → Part
  | [p] => p
  | ps => ⟨Pattern.oneOf (ps.map pattern), depthAround ps, false⟩

end Part

structure Frame where
  isCapture : Bool
  /-- Flags around the group. -/
  flags : Flags
  alternatives : List Part
  parts : List Part

namespace Frame

/-- A group of which nothing was read. -/
def blank (isCapture : Bool) (flags : Flags) : Frame := ⟨isCapture, flags, [], []⟩

def add (f : Frame) (p : Part) : Frame := { f with parts := p :: f.parts }

/-- Ends an alternative. -/
def split (f : Frame) : Frame :=
  { f with alternatives := .sequence f.parts.reverse :: f.alternatives, parts := [] }

/-- What is in the group. -/
def body (f : Frame) : Part := .oneOf f.split.alternatives.reverse

def close (f : Frame) : Part :=
  let p := f.body
  ⟨.group f.isCapture p.pattern, p.depth + 1, false⟩

/-- Repeats the last part, which must not be a directive. -/
def repeat? (f : Frame) (least : Nat) (greatest : Option Nat) (isLazy : Bool) : Option Frame :=
  match f.parts with
  | [] => none
  | p :: parts =>
    if p.isDirective then none
    else some { f with parts := ⟨.times p.pattern least greatest isLazy, p.depth + 1, false⟩ :: parts }

end Frame

/-- A pattern that is being read. -/
structure Reading where
  flags : Flags
  frame : Frame
  /-- Groups around the current one, the innermost first. -/
  outer : List Frame
  /-- Names of the groups so far. -/
  names : List String

def atomPattern? (f : Flags) : Atom → Option Pattern
  | .literal c isByte =>
    if f.has .unicode then some (.chars (f.fold (.single c)) false)
    else if c.toNat < 0x80 then some (.chars (f.fold (.single c)) true)
    else if isByte then none
    else some (.chars (.single c) true)
  | .set s => some (.chars s !f.has .unicode)
  | .look l => some (.look l)

/-- Reads digits, inside of a comment or not. -/
def takeDigits (f : Flags) (inComment : Bool) : List Char → List Char × List Char
  | [] => ([], [])
  | c :: cs =>
    match skipped? f inComment c with
    | some inComment => takeDigits f inComment cs
    | none =>
      if c.isDigit then
        let (ds, rest) := takeDigits f false cs
        (c :: ds, rest)
      else ([], c :: cs)

/-- Greatest number of a repetition. -/
def countLimit : Nat := 0xffffffff

/-- Reads a number between blanks. -/
def count? (f : Flags) (cs : List Char) : Option (Nat × List Char) :=
  let cs := cs.dropWhile isSpace
  let (ds, rest) := takeDigits f false cs
  let n := ds.foldl (fun n c => n * 10 + (c.toNat - '0'.toNat)) 0
  if ds.isEmpty ∨ countLimit < n then none else some (n, rest.dropWhile isSpace)

/-- A question mark at the front makes a repetition prefer few matches. -/
def lazyMark : List Char → Bool × List Char
  | '?' :: rest => (true, rest)
  | cs => (false, cs)

/-- Reads the numbers of a repetition behind its opening brace. -/
def counts? (f : Flags) (cs : List Char) : Option ((Nat × Option Nat) × List Char) := do
  let (least, rest) ← count? f (skip f cs)
  match rest with
  | '\x7d' :: rest => return ((least, some least), skip f rest)
  | ',' :: rest =>
    match skip f rest with
    | '\x7d' :: rest => return ((least, none), skip f rest)
    | rest =>
      let (greatest, rest) ← count? f rest
      match rest with
      | '\x7d' :: rest =>
        if greatest < least then none
        return ((least, some greatest), skip f rest)
      | _ => none
  | _ => none

/-- The character may start the name of a group. -/
def startsName (c : Char) : Bool := c = '_' || Unicode.letters.contains c

/-- The character may stand in the name of a group. -/
def continuesName (c : Char) : Bool :=
  startsName c || c = '.' || c = '[' || c = ']' || Unicode.numerals.contains c

/-- Reads the name of a group up to its angle. -/
def groupName? (cs : List Char) : Option (String × List Char) :=
  match cs.takeWhile (· != '>'), cs.dropWhile (· != '>') with
  | c :: name, '>' :: rest =>
    if startsName c && name.all continuesName then some (String.ofList (c :: name), rest) else none
  | _, _ => none

/-- Reads the changes of flags up to a colon or a closing parenthesis. A flag is given at most once, and there
is at most one hyphen, with a flag behind it. -/
def flagChanges? (changes : List (Flag × Bool)) (negated dangling : Bool) :
    List Char → Option (List (Flag × Bool) × Char × List Char)
  | [] => none
  | c :: cs =>
    if c = ':' ∨ c = ')' then if dangling then none else some (changes, c, cs)
    else if c = '-' then if negated then none else flagChanges? changes true true cs
    else
      match Flag.ofChar? c with
      | none => none
      | some x =>
        if changes.any (·.1 = x) then none
        else flagChanges? (changes ++ [(x, !negated)]) negated false cs

namespace Reading

def initial : Reading := ⟨.initial, .blank false .initial, [], []⟩

def add (r : Reading) (p : Part) : Reading := { r with frame := r.frame.add p }

def openGroup (r : Reading) (isCapture : Bool) (flags : Flags) : Reading :=
  { r with flags, frame := .blank isCapture r.flags, outer := r.frame :: r.outer }

/-- Opens a group with a name that no group before has. -/
def openNamed? (r : Reading) (cs : List Char) : Option (Reading × List Char) := do
  let (name, rest) ← groupName? cs
  if r.names.contains name then none
  return ({ r.openGroup true r.flags with names := name :: r.names }, rest)

/-- Sets flags for the rest of the group, or for a group that it opens. -/
def openFlags? (r : Reading) (cs : List Char) : Option (Reading × List Char) := do
  let (changes, mark, rest) ← flagChanges? [] false false cs
  let flags := r.flags.apply changes
  if mark = ':' then return (r.openGroup false flags, rest)
  else if changes.isEmpty then none
  else return ({ r.add ⟨.empty, 0, true⟩ with flags }, rest)

/-- Reads what follows an opening parenthesis. Conditions on what stands around a match are not known. -/
def open? (r : Reading) (cs : List Char) : Option (Reading × List Char) :=
  match skip r.flags cs with
  | '?' :: '=' :: _ => none
  | '?' :: '!' :: _ => none
  | '?' :: '<' :: '=' :: _ => none
  | '?' :: '<' :: '!' :: _ => none
  | '?' :: 'P' :: '<' :: rest => r.openNamed? rest
  | '?' :: '<' :: rest => r.openNamed? rest
  | '?' :: rest => r.openFlags? rest
  | rest => some (r.openGroup true r.flags, rest)

def close? (r : Reading) : Option Reading :=
  match r.outer with
  | [] => none
  | frame :: outer =>
    some { r with flags := r.frame.flags, frame := frame.add r.frame.close, outer }

/-- Repeats the last part of the current group; the rest of the pattern. -/
def repeat? (r : Reading) (least : Nat) (greatest : Option Nat) (rest : List Char) :
    Option (Reading × List Char) :=
  let (isLazy, rest) := lazyMark rest
  (r.frame.repeat? least greatest (isLazy != r.flags.has .swapGreed)).map fun frame =>
    ({ r with frame }, rest)

def atom? (r : Reading) (a : Atom) : Option Reading :=
  (atomPattern? r.flags a).map fun p => r.add (.flat p)

/-- The condition of a circumflex. -/
def startLook (r : Reading) : Look :=
  if r.flags.has .multiLine then .lineStart (r.flags.has .crlf) else .textStart

/-- The condition of a dollar sign. -/
def stopLook (r : Reading) : Look :=
  if r.flags.has .multiLine then .lineStop (r.flags.has .crlf) else .textStop

/-- Reads what starts with the character `c`, a class with at most `fuel` items; the rest of the pattern. -/
def next? (r : Reading) (fuel : Nat) (c : Char) (rest : List Char) : Option (Reading × List Char) :=
  match c with
  | '(' => r.open? rest
  | ')' => r.close?.map (·, rest)
  | '|' => some ({ r with frame := r.frame.split }, rest)
  | '[' => do
    let (s, rest) ← class? r.flags fuel rest
    return (r.add ⟨.chars s.set !r.flags.has .unicode, s.depth, false⟩, rest)
  | '?' => r.repeat? 0 (some 1) rest
  | '*' => r.repeat? 0 none rest
  | '+' => r.repeat? 1 none rest
  | '\x7b' => do
    let ((least, greatest), rest) ← counts? r.flags rest
    r.repeat? least greatest rest
  | '.' => do return (r.add (.flat (.chars (← r.flags.dot?) false)), rest)
  | '^' => (r.atom? (.look r.startLook)).map (·, rest)
  | '$' => (r.atom? (.look r.stopLook)).map (·, rest)
  | '\\' => do
    let (a, rest) ← escape? r.flags rest
    return (← r.atom? a, rest)
  | c => (r.atom? (.literal c false)).map (·, rest)

/-- Reads a pattern with at most `fuel` parts. -/
def readFrom? : (fuel : Nat) → Reading → List Char → Option Reading
  | 0, _, _ => none
  | fuel + 1, r, cs =>
    match skip r.flags cs with
    | [] => some r
    | c :: rest => do
      let (r, rest) ← r.next? fuel c rest
      readFrom? fuel r rest

end Reading

/-- Greatest number of levels of a pattern. -/
def depthLimit : Nat := 250

def parse? (s : String) : Option Pattern := do
  let cs := s.toList
  let r ← Reading.initial.readFrom? (cs.length + 1) cs
  if !r.outer.isEmpty then none
  let p := r.frame.body
  if p.depth ≤ depthLimit && p.pattern.isCompact then some p.pattern else none

end PointsTo.Pattern
