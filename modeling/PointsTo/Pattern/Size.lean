import PointsTo.Pattern.Opening
import PointsTo.Pattern.SetBlock

/-!
# Size of patterns

A pattern stands for two automata over the bytes of texts, one that reads forwards and one that reads
backwards. A pattern is refused if one of its automata takes up too much space, unless a few texts can be
searched for in place of it. The automaton that reads forwards remembers where groups start and end.
-/

namespace PointsTo.Pattern

/-! ## Texts -/

/-- Cuts a list of texts at those that are empty. Of empty texts at the start there is one. -/
def cutAtEmpty : List (List Nat) → List (List (List Nat))
  | [] => [[]]
  | [] :: ws => [] :: cutAtEmpty ws
  | w :: ws =>
    match cutAtEmpty ws with
    | chunk :: chunks => (w :: chunk) :: chunks
    | [] => [[w]]

/-- Leaves out empty texts at the start behind the first one. -/
def dropEmpty : List (List Nat) → List (List Nat)
  | [] :: [] :: ws => dropEmpty ([] :: ws)
  | ws => ws

/-- The first bytes of texts, each of them once. -/
def heads (ws : List (List Nat)) : List Nat := (ws.filterMap List.head?).eraseDups

/-- States for texts that share their beginnings, none longer than `fuel`: one for the choice, and one for the
next bytes of those texts between which none ends here. -/
def textStates : (fuel : Nat) → List (List Nat) → Space → Space
  | 0, _, s => s
  | fuel + 1, ws, s =>
    if ws.all List.isEmpty then s
    else
      let chunks := cutAtEmpty (dropEmpty ws)
      let used := chunks.filter (!·.isEmpty)
      let s := s.add 1 ((used.length + chunks.length - 1) * branchSize)
      used.foldl (fun s chunk =>
        let hs := heads chunk
        hs.foldl (fun s h => textStates fuel
            (chunk.filterMap fun w => if w.head? = some h then some w.tail else none) s)
          (s.add 1 (if hs.length = 1 then 0 else hs.length * transitionSize))) s

/-- States for one of several texts. All of them lead to the same state. -/
def textsBlock (d : Direction) (ws : List (List Nat)) : Block :=
  let ws := if d = .forward then ws else ws.map List.reverse
  let t := textStates ((ws.map List.length).foldl max 0) ws ⟨1, 0⟩
  .states t.states t.links

/-! ## Plans -/

namespace Plan

/-- The bytes of a text. -/
def text? : Plan → Option (List Nat)
  | text [] => none
  | text bytes => some bytes
  | _ => none

mutual

/-- A match can only start at the start of the text, or, backwards, at its end. -/
def isTied (d : Direction) : Plan → Bool
  | look .textStart => d = .forward
  | look .textStop => d = .backward
  | capture p => p.isTied d
  | sequence ps => isTiedSequence d ps
  | choice ps => isTiedChoice d ps
  | repetition p least _ _ => least != 0 && p.isTied d
  | _ => false

/-- The plan of a sequence that comes first, or one behind plans that match only the empty text, is tied. -/
def isTiedSequence (d : Direction) : List Plan → Bool
  | [] => false
  | p :: ps =>
    match d with
    | .forward => p.isTied d || (p.isBlank && isTiedSequence d ps)
    | .backward => isTiedSequence d ps || (areBlank ps && p.isTied d)

/-- All the plans are tied. -/
def isTiedChoice (d : Direction) : List Plan → Bool
  | [] => true
  | p :: ps => p.isTied d && isTiedChoice d ps

end

/-- States for a choice. Two alternatives are made before the state that leads to all of them and the one to
which they lead. -/
def choiceBlock (bs : List Block) : Block :=
  .all (bs.take 2 ++ [.branch bs.length, .state] ++ bs.drop 2)

/-- States for a repetition of a plan with the given states. -/
def repetitionBlock (isProper : Bool) (b : Block) (least : Nat) : Option Nat → Block
  | none =>
    if least ≠ 0 then .all [b.times least, .branch 2]
    else if isProper then .all [.branch 2, b]
    else .all [b, .branch 2, .branch 2, .state]
  | some greatest =>
    if least = 0 ∧ greatest = 1 then .all [.branch 2, b, .state]
    else
      let start := if least = 0 then .state else b.times least
      if least = greatest then start
      else .all [start, .state, (Block.all [.branch 2, b]).times (greatest - least)]

mutual

def block (d : Direction) : Plan → Block
  | text bytes => .states (max bytes.length 1) 0
  | set s _ => setBlock d s
  | look _ => .state
  | capture p => if d = .forward then .all [.state, p.block d, .state] else p.block d
  | sequence ps => .all (if d = .forward then blocks d ps else (blocks d ps).reverse)
  | choice ps =>
    match ps.mapM text? with
    | some ws => textsBlock d ws
    | none => choiceBlock (blocks d ps)
  | repetition p least greatest _ => repetitionBlock p.isProper (p.block d) least greatest

def blocks (d : Direction) : List Plan → List Block
  | [] => []
  | p :: ps => p.block d :: blocks d ps

end

/-- States for the way to the start of a match: none, or any number of bytes. -/
def leadBlock (d : Direction) (p : Plan) : Block :=
  if p.isTied d then .state else .all [.branch 2, .state, .sparse 1]

/-- The states of an automaton for the plan. The whole match counts as a group, and there is a state for its
end. -/
def automaton (d : Direction) (p : Plan) : Block :=
  .all [p.leadBlock d, (capture p).block d, .state]

/-- The space of an automaton for the plan, if it is within the limit. -/
def space? (d : Direction) (p : Plan) : Option Space := (p.automaton d).build? .empty

end Plan

/-- The pattern needs no automata, or they are within the limit. -/
def isCompact (p : Pattern) : Bool :=
  let plan := p.plan
  plan.isPlain || ((plan.space? .backward).isSome && (plan.space? .forward).isSome)

end PointsTo.Pattern
