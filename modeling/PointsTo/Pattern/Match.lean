import PointsTo.Pattern.Basic
import PointsTo.Pattern.Relation

/-!
# Matching

A pattern is matched by following all its ways through the text at once: `ends` takes the positions where a
match may start to those where one may end. What is repeated is followed from every position on its own, as
the relation `steps` between the starts and the ends of its matches.
-/

namespace PointsTo

/-- The condition holds at a position: the number of characters in front of it. -/
def Look.holdsAt (text : Array Char) (l : Look) (i : Nat) : Bool :=
  let before := if i = 0 then none else text[i - 1]?
  let after := text[i]?
  match l with
  | .textStart => i = 0
  | .textStop => i = text.size
  | .lineStart crlf =>
    before = none || before = some '\n' || (crlf && before = some '\r' && after != some '\n')
  | .lineStop false => after = none || after = some '\n'
  | .lineStop true =>
    after = none || after = some '\r' || (after = some '\n' && before != some '\r')
  | .word kind characters =>
    let isBefore := before.any characters.contains
    let isAfter := after.any characters.contains
    match kind with
    | .boundary => isBefore != isAfter
    | .inside => isBefore == isAfter
    | .start => !isBefore && isAfter
    | .stop => isBefore && !isAfter
    | .startHalf => !isBefore
    | .stopHalf => !isAfter

namespace Pattern

/-- Positions whose next character is in the set. -/
def charPositions (text : Array Char) (s : CharSet) : Positions :=
  .filter text.size fun i => (text[i]?).any s.contains

def lookPositions (text : Array Char) (l : Look) : Positions :=
  .filter (text.size + 1) (l.holdsAt text)

/-- The matches of a pattern, as the relation between their starts and their ends. -/
def steps (text : Array Char) : Pattern → Relation
  | empty => .identity (text.size + 1)
  | chars s _ =>
    let found := charPositions text s
    -- A character leads from its position to the one behind it.
    .ofFn (text.size + 1) fun i => (found &&& (1 <<< i)) <<< 1
  | look l =>
    let found := lookPositions text l
    .ofFn (text.size + 1) fun i => found &&& (1 <<< i)
  | group _ p => steps text p
  | seq p q => (steps text p).comp (steps text q)
  | alt p q => (steps text p).union (steps text q)
  | times p least greatest _ => (steps text p).times least greatest

/-- Positions at which a match may end that starts at one of the given positions. -/
def ends (text : Array Char) : Pattern → Positions → Positions
  | empty, s => s
  | chars cs _, s => (s &&& charPositions text cs) <<< 1
  | look l, s => s &&& lookPositions text l
  | group _ p, s => ends text p s
  | seq p q, s =>
    let s := ends text p s
    if s = 0 then 0 else ends text q s
  | alt p q, s => ends text p s ||| ends text q s
  | times p least greatest _, s => ((steps text p).times least greatest).image s

/-- The pattern matches some part of the text. -/
def isMatch (p : Pattern) (s : String) : Bool :=
  let text := s.toList.toArray
  p.ends text (.filter (text.size + 1) fun _ => true) != 0

end Pattern

end PointsTo
