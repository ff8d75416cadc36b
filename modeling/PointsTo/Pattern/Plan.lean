import PointsTo.Pattern.Basic
import PointsTo.Text.Utf8

/-!
# Plans of patterns

A plan says how the automata of a pattern are laid out. It is a pattern in a normal form: texts are spelled by
their bytes, sequences and choices have no parts of their own kind, parts that match only the empty text are
left out of sequences, alternatives of one character each are a set, and what all alternatives start with stands
in front of the choice.
-/

namespace PointsTo.Pattern

/-- How an automaton for a pattern is laid out. -/
inductive Plan where
  /-- The bytes of a text. -/
  | text (bytes : List Nat)
  /-- A character of a set that does not have just one. -/
  | set (s : CharSet) (inAscii : Bool)
  | look (l : Look)
  /-- A group that is told apart from others. -/
  | capture (p : Plan)
  /-- Two parts or more, none of them a sequence; no two texts are next to each other. -/
  | sequence (ps : List Plan)
  /-- Two alternatives or more, none of them a choice. -/
  | choice (ps : List Plan)
  | repetition (p : Plan) (least : Nat) (greatest : Option Nat) (isLazy : Bool)

namespace Plan

/-! ## What plans match -/

mutual

/-- Only the empty text can be matched. -/
def isBlank : Plan → Bool
  | text bytes => bytes.isEmpty
  | set _ _ => false
  | look _ => true
  | capture p => p.isBlank
  | sequence ps => areBlank ps
  | choice ps => areBlank ps
  | repetition p _ _ _ => p.isBlank

/-- Only the empty text can be matched by each of the plans. -/
def areBlank : List Plan → Bool
  | [] => true
  | p :: ps => p.isBlank && areBlank ps

end

mutual

/-- The plan or a part of it has a property. -/
def any (f : Plan → Bool) : Plan → Bool
  | text bytes => f (text bytes)
  | set s inAscii => f (set s inAscii)
  | look l => f (look l)
  | capture p => f (capture p) || p.any f
  | sequence ps => f (sequence ps) || anyOf f ps
  | choice ps => f (choice ps) || anyOf f ps
  | repetition p least greatest isLazy => f (repetition p least greatest isLazy) || p.any f

/-- One of the plans or a part of it has a property. -/
def anyOf (f : Plan → Bool) : List Plan → Bool
  | [] => false
  | p :: ps => p.any f || anyOf f ps

end

/-- The plan is a set without characters. -/
def isVoid : Plan → Bool
  | set s _ => s.isEmpty
  | _ => false

/-- The plan is a condition on a position. -/
def isLook : Plan → Bool
  | look _ => true
  | _ => false

/-- The plan is a group that is told apart. -/
def isCapture : Plan → Bool
  | capture _ => true
  | _ => false

mutual

/-- A match has one character at least. -/
def isLong : Plan → Bool
  | text bytes => !bytes.isEmpty
  | set _ _ => true
  | look _ => false
  | capture p => p.isLong
  | sequence ps => isLongSequence ps
  | choice ps => isLongChoice ps
  | repetition p least _ _ => least != 0 && p.isLong

/-- A match of the plans, one after the other, has one character at least. -/
def isLongSequence : List Plan → Bool
  | [] => false
  | p :: ps => p.isLong || isLongSequence ps

/-- A match of one of the plans has one character at least. -/
def isLongChoice : List Plan → Bool
  | [] => true
  | p :: ps => p.isLong && isLongChoice ps

end

/-- There are matches, each with one character at least, as far as it can be seen from the parts. -/
def isProper (p : Plan) : Bool := p.isLong && !p.any isVoid

/-! ## Normal form -/

/-- The parts of a plan, one after the other. -/
def items : Plan → List Plan
  | text [] => []
  | sequence ps => ps
  | p => [p]

/-- Puts a part in front of others. Texts next to each other are one. -/
def cons : Plan → List Plan → List Plan
  | text bytes, text more :: ps => text (bytes ++ more) :: ps
  | p, ps => p :: ps

/-- The plan with the given parts. -/
def ofItems : List Plan → Plan
  | [] => text []
  | [p] => p
  | ps => sequence ps

def andThen (p q : Plan) : Plan := ofItems (p.items.foldr cons q.items)

/-- A character of a set. -/
def ofSet (s : CharSet) (inAscii : Bool) : Plan :=
  match s.single? with
  | some n => text (Text.utf8Bytes n)
  | none => set s (inAscii || s.isEmpty)

/-- The alternatives of a plan. -/
def alternatives : Plan → List Plan
  | choice ps => ps
  | p => [p]

/-- The code point of a plan for a single character. -/
def code? : Plan → Option Nat
  | text bytes => Text.utf8Code? bytes
  | _ => none

/-- The set of a plan for a character of a set. -/
def set? : Plan → Option CharSet
  | set s _ => some s
  | _ => none

/-- One of several plans. Single characters are a set, and so are sets, but not characters and sets. -/
def choose (ps : List Plan) : Plan :=
  match ps.flatMap alternatives with
  | [] => ofSet .empty true
  | [p] => p
  | ps =>
    match ps.mapM code?, ps.mapM set? with
    | some codes, _ => ofSet (.ofRanges (codes.map fun n => (n, n))) false
    | none, some sets => ofSet (.ofRanges (sets.flatMap CharSet.ranges)) false
    | none, none => choice ps

def sequence? : Plan → Option (List Plan)
  | sequence ps => some ps
  | _ => none

mutual

/-- Two plans are the same. Groups that are told apart never are. -/
def isSame : Plan → Plan → Bool
  | text bytes, text more => bytes == more
  | set s inAscii, set t inAscii' => s == t && inAscii == inAscii'
  | look l, look m => l == m
  | sequence ps, sequence qs => areSame ps qs
  | choice ps, choice qs => areSame ps qs
  | repetition p least greatest isLazy, repetition q least' greatest' isLazy' =>
    p.isSame q && least == least' && greatest == greatest' && isLazy == isLazy'
  | _, _ => false

/-- The plans of two lists are the same, one by one. -/
def areSame : List Plan → List Plan → Bool
  | [], [] => true
  | p :: ps, q :: qs => p.isSame q && areSame ps qs
  | _, _ => false

end

/-- What two sequences start with. -/
def commonFront : List Plan → List Plan → List Plan
  | p :: ps, q :: qs => if p.isSame q then p :: commonFront ps qs else []
  | _, _ => []

/-- One of several plans. If all of them are sequences, what they start with stands in front. The rests do not
start with the same part again, so that once is enough. -/
def oneOf (ps : List Plan) : Plan :=
  match ps with
  | [p] => p
  | _ =>
    match (ps.flatMap alternatives).mapM sequence? with
    | some (first :: others) =>
      let front := others.foldl commonFront first
      let rests := (first :: others).map fun ps => ofItems (ps.drop front.length)
      if front.isEmpty then choose ps else ofItems (front.foldr cons (choose rests).items)
    | _ => choose ps

/-- A repetition. Once is enough for a plan that matches only the empty text. -/
def repeated (p : Plan) (least : Nat) (greatest : Option Nat) (isLazy : Bool) : Plan :=
  let (least, greatest) :=
    if p.isBlank then (min least 1, some (min (greatest.getD 1) 1)) else (least, greatest)
  if greatest = some 0 then text []
  else if least = 1 ∧ greatest = some 1 then p
  else repetition p least greatest isLazy

end Plan

def plans : Pattern → List Plan
  | empty => [.text []]
  | chars s inAscii => [.ofSet s inAscii]
  | look l => [.look l]
  | group isCapture p => if isCapture then [.capture (.oneOf p.plans)] else [.oneOf p.plans]
  | seq p q => [(Plan.oneOf p.plans).andThen (.oneOf q.plans)]
  | alt p q => p.plans ++ q.plans
  | times p least greatest isLazy => [(Plan.oneOf p.plans).repeated least greatest isLazy]

def plan (p : Pattern) : Plan := .oneOf p.plans

end PointsTo.Pattern
