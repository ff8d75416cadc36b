import Std.Data.HashMap
import PointsTo.Pattern.Space
import PointsTo.Text.CharSet
import PointsTo.Text.Utf8

/-!
# States for sets of characters

A set of characters beyond ASCII takes a state for each byte of the encodings of its characters. States are
shared: those that are alike are made once, as long as they are remembered. The memory has a fixed number of
slots, in which a new state takes the place of an old one. Which slot it is depends on the numbers of the states
that it leads to, so that the space for a set is not the same everywhere in an automaton.
-/

namespace PointsTo.Pattern

/-- The direction in which an automaton reads. -/
inductive Direction where
  | forward
  | backward
  deriving DecidableEq, Repr

/-- The encodings of a set of characters. -/
def encodings (s : CharSet) : List Text.ByteRanges :=
  s.ranges.flatMap fun r => Text.byteRanges r.1 r.2

/-- A range of bytes, and the state that it leads to. -/
structure Arc where
  first : Nat
  last : Nat
  next : Nat
  deriving DecidableEq, Repr

/-- Start of a hash. -/
def hashStart : UInt64 := 14695981039346656037

/-- Adds a number to a hash. -/
def hashStep (h : UInt64) (n : Nat) : UInt64 := (h ^^^ n.toUInt64) * 1099511628211

/-- The slot for a key. -/
def slotOf (slots : Nat) (key : List Nat) : Nat := (key.foldl hashStep hashStart).toNat % slots

/-- An automaton that is being made, and the states that are remembered, each under its slot with what tells it
from others. -/
structure Sharing where
  space : Space
  memory : Std.HashMap Nat (List Arc × Nat)

namespace Sharing

/-- Nothing is remembered. -/
def start (s : Space) : Sharing := ⟨s, ∅⟩

/-- Makes a state with the given arcs and so much space for links, and remembers it in a slot. -/
def add (m : Sharing) (slot links : Nat) (arcs : List Arc) : Nat × Sharing :=
  (m.space.states, ⟨m.space.add 1 links, m.memory.insert slot (arcs, m.space.states)⟩)

/-- The number of a state with the given arcs, which may be remembered in one of `slots` slots under a key. A
state that is not remembered is made. -/
def intern (m : Sharing) (slots links : Nat) (key : List Nat) (arcs : List Arc) : Nat × Sharing :=
  let slot := slotOf slots key
  match m.memory[slot]? with
  | some (known, n) => if known = arcs then (n, m) else m.add slot links arcs
  | none => m.add slot links arcs

end Sharing

/-! ## Forwards: encodings with the same rest share its states -/

/-- Number of slots for states with several arcs. -/
def nodeSlots : Nat := 10000

/-- The rests of encodings, one group for each first byte range. -/
def branches : List Text.ByteRanges → List ((Nat × Nat) × List Text.ByteRanges)
  | [] => []
  | [] :: es => branches es
  | (b :: e) :: es =>
    match branches es with
    | (c, rests) :: others => if b = c then (b, e :: rests) :: others else (b, [e]) :: (c, rests) :: others
    | [] => [(b, [e])]

/-- The number of the state that reads one of the encodings, which have fewer than `depth` bytes, and then leads
to the state `stop`. The states behind it are made first. -/
def nodeState (stop : Nat) : (depth : Nat) → List Text.ByteRanges → Sharing → Nat × Sharing
  | 0, _, m => (stop, m)
  | depth + 1, es, m =>
    if es = [[]] then (stop, m)
    else
      let (arcs, m) := (branches es).foldl (fun (arcs, m) ((first, last), rests) =>
        let (next, m) := nodeState stop depth rests m
        (⟨first, last, next⟩ :: arcs, m)) ([], m)
      let arcs := arcs.reverse
      m.intern nodeSlots (arcs.length * transitionSize)
        (arcs.flatMap fun a => [a.first, a.last, a.next]) arcs

/-- States that read one of the encodings forwards. -/
def forwardBlock (es : List Text.ByteRanges) : Block :=
  ⟨fun s => (nodeState s.states 5 es (.start (s.add 1 0))).2.space.checked?⟩

/-! ## Backwards: encodings with the same start share its states -/

/-- Number of slots for states with a single arc. -/
def arcSlots : Nat := 1000

/-- The number of the state that reads the bytes of an encoding backwards and then leads to the state `stop`. -/
def chainState (stop : Nat) (e : Text.ByteRanges) (m : Sharing) : Nat × Sharing :=
  e.foldl (fun (next, m) (first, last) =>
    m.intern arcSlots 0 [next, first, last] [⟨first, last, next⟩]) (stop, m)

/-- States that read one of the encodings backwards. The first state leads to one for each encoding. -/
def backwardBlock (es : List Text.ByteRanges) : Block :=
  ⟨fun s =>
    let stop := s.states + 1
    let m := es.foldl (fun m e => (chainState stop e m).2) (Sharing.start (s.add 2 (es.length * branchSize)))
    m.space.checked?⟩

def setBlock (d : Direction) (s : CharSet) : Block :=
  if s.isAscii then .all [.state, .sparse s.ranges.length]
  else
    let es := encodings s
    match d with
    | .forward => forwardBlock es
    | .backward => backwardBlock es

end PointsTo.Pattern
