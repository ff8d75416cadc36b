/-!
# Space of automata

An automaton is made state by state. A state takes up the same space whatever it does; to that come its
branches, if it leads to several others, and its transitions, if it tells bytes apart. A block makes a part of
an automaton behind the states that are there, as long as the space is within the limit.
-/

namespace PointsTo.Pattern

def stateSize : Nat := 32

/-- Space of a branch of a state that leads to several others. -/
def branchSize : Nat := 4

/-- Space of a transition of a state that tells bytes apart. -/
def transitionSize : Nat := 8

/-- Greatest space of an automaton. -/
def sizeLimit : Nat := 10485760

/-- What an automaton takes up. -/
structure Space where
  /-- Number of its states. -/
  states : Nat
  /-- Space of their branches and transitions. -/
  links : Nat
  deriving DecidableEq, Repr

namespace Space

def empty : Space := ⟨0, 0⟩

def size (s : Space) : Nat := stateSize * s.states + s.links

/-- More states, and more space for links. -/
def add (s : Space) (states links : Nat) : Space := ⟨s.states + states, s.links + links⟩

/-- The space, if it is within the limit. -/
def checked? (s : Space) : Option Space := if s.size ≤ sizeLimit then some s else none

end Space

/-- A part of an automaton, by what it adds to the space. -/
structure Block where
  build? : Space → Option Space

namespace Block

/-- So many states with so much space for links. -/
def states (n links : Nat) : Block := ⟨fun s => (s.add n links).checked?⟩

/-- A state that leads to so many others. -/
def branch (n : Nat) : Block := states 1 (n * branchSize)

/-- A state that tells so many ranges of bytes apart. -/
def sparse (n : Nat) : Block := states 1 (n * transitionSize)

/-- A state of any other kind. -/
def state : Block := states 1 0

def all (bs : List Block) : Block := ⟨fun s => bs.foldlM (fun s b => b.build? s) s⟩

/-- Makes a block so many times, behind a space that is within the limit. -/
def timesFrom (b : Block) : Nat → Space → Option Space
  | 0, s => some s
  | n + 1, s =>
    match b.build? s with
    | none => none
    | some s => timesFrom b n s

/-- A block so many times. -/
def times (b : Block) (n : Nat) : Block := ⟨b.timesFrom n⟩

end Block

end PointsTo.Pattern
