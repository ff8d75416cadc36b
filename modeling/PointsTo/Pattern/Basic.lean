import PointsTo.Text.CharSet

/-!
# Patterns

Regular expressions over texts, the way they are written. Whether a text matches does not depend on how
a pattern is grouped nor on how much a repetition prefers to take; how much space its automata take up does.
-/

namespace PointsTo

/-- What is asked of the two characters around a position, which may belong to words. -/
inductive WordLook where
  /-- One of the two does. -/
  | boundary
  /-- Both do, or none. -/
  | inside
  /-- Only the one after the position does. -/
  | start
  /-- Only the one before the position does. -/
  | stop
  /-- The one before the position does not. -/
  | startHalf
  /-- The one after the position does not. -/
  | stopHalf
  deriving DecidableEq, Repr

/-- A condition on a position. -/
inductive Look where
  /-- The start of the text. -/
  | textStart
  /-- The end of the text. -/
  | textStop
  /-- The start of a line. Lines end with a line feed; with `crlf` also with a carriage return or both. -/
  | lineStart (crlf : Bool)
  /-- The end of a line. -/
  | lineStop (crlf : Bool)
  /-- A condition on words, whose characters are those of the set. -/
  | word (kind : WordLook) (characters : CharSet)
  deriving DecidableEq, Repr

/-- A regular expression. -/
inductive Pattern where
  /-- Matches nothing but the empty text. -/
  | empty
  /-- A character of a set; `inAscii` if it is written where sets are within ASCII. -/
  | chars (s : CharSet) (inAscii : Bool)
  | look (l : Look)
  /-- What stands in parentheses; `isCapture` if the group is told apart from others. -/
  | group (isCapture : Bool) (p : Pattern)
  | seq (p q : Pattern)
  | alt (p q : Pattern)
  /-- At least and at most so many times; without an upper bound any number of times. With `isLazy` few times
  are preferred to many. -/
  | times (p : Pattern) (least : Nat) (greatest : Option Nat) (isLazy : Bool)
  deriving DecidableEq, Repr

namespace Pattern

def sequence (ps : List Pattern) : Pattern :=
  match ps.reverse with
  | [] => empty
  | p :: before => before.foldl (fun q p => seq p q) p

def oneOf (ps : List Pattern) : Pattern :=
  match ps.reverse with
  | [] => empty
  | p :: before => before.foldl (fun q p => alt p q) p

end Pattern

end PointsTo
