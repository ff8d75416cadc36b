import PointsTo.Pattern.Plan

/-!
# Openings of matches

The openings of a pattern are texts such that every match starts with one of them. They are kept in the order
in which matches are preferred, and only if there are few of them and they are short. An opening is whole if
it is a match by itself; if all openings are whole, they can be searched for as they are, without an automaton.
-/

namespace PointsTo.Pattern

/-- What a match starts with. -/
structure Opening where
  bytes : List Nat
  /-- The match ends here. -/
  isWhole : Bool
  deriving DecidableEq, Repr

namespace Opening

/-- The opening of the empty match. -/
def blank : Opening := ⟨[], true⟩

/-- The opening of a longer match. -/
def continued (o : Opening) : Opening := { o with isWhole := false }

/-- At most so many bytes of the opening. -/
def cut (n : Nat) (o : Opening) : Opening :=
  if o.bytes.length ≤ n then o else ⟨o.bytes.take n, false⟩

/-- One opening after another, unless something may stand between them: then only the first is known. -/
def appendAll (o : Opening) (ps : List Opening) : List Opening :=
  if o.isWhole then ps.map fun p => ⟨o.bytes ++ p.bytes, p.isWhole⟩ else [o]

/-- Joins openings next to each other with the same bytes. -/
def merge : List Opening → List Opening
  | [] => []
  | o :: os =>
    match merge os with
    | [] => [o]
    | p :: ps => if o.bytes = p.bytes then ⟨o.bytes, o.isWhole && p.isWhole⟩ :: ps else o :: p :: ps

/-- Leaves out openings that start with one before them, whose matches are preferred. -/
def reduce (os : List Opening) : List Opening :=
  (os.foldl (fun kept o => if kept.any (·.bytes.isPrefixOf o.bytes) then kept else o :: kept) []).reverse

/-- What two texts start with. -/
def commonFront : List Nat → List Nat → List Nat
  | b :: bs, c :: cs => if b = c then b :: commonFront bs cs else []
  | _, _ => []

/-- What all openings start with. -/
def front : List Opening → List Nat
  | [] => []
  | o :: os => os.foldl (fun bytes p => commonFront bytes p.bytes) o.bytes

end Opening

/-- The openings of a pattern, if they are known. -/
abbrev Openings := Option (List Opening)

namespace Openings

/-- Greatest number of openings. -/
def countLimit : Nat := 250

/-- Greatest number of bytes of an opening. -/
def lengthLimit : Nat := 100

/-- Greatest number of characters of a set that are told apart. -/
def setLimit : Nat := 10

/-- Greatest number of repetitions that are followed. -/
def repeatLimit : Nat := 10

/-- Number of bytes that are kept of openings when there are too many of them. -/
def shortLength : Nat := 4

/-- All openings are those of longer matches, so that nothing can be added to them. -/
def areContinued : Openings → Bool
  | none => true
  | some os => os.all (!·.isWhole)

def continued (o : Openings) : Openings := o.map (·.map Opening.continued)

/-- The bytes of the openings that are within the limit. -/
def limited (o : Openings) : Openings := o.map (·.map (Opening.cut lengthLimit))

/-- The openings of a pattern with something behind it of which none are known. An opening that is empty does
not tell anything then. -/
def beforeUnknown (os : List Opening) : Openings :=
  if os.any (·.bytes.isEmpty) then none else some (os.map Opening.continued)

/-- The openings of one pattern after another. -/
def cross (o p : Openings) : Openings :=
  match o, p with
  | none, _ => none
  | some os, none => beforeUnknown os
  | some os, some ps =>
    if countLimit < os.length * ps.length then beforeUnknown os
    else limited (some (Opening.merge (os.flatMap (·.appendAll ps))))

/-- The openings of one of two patterns. Openings are cut to make them fewer. -/
def union (o p : Openings) : Openings :=
  match o, p with
  | some os, some ps =>
    if os.length + ps.length ≤ countLimit then some (Opening.merge (os ++ ps))
    else
      let os := Opening.merge (os.map (Opening.cut shortLength))
      let ps := Opening.merge (ps.map (Opening.cut shortLength))
      if os.length + ps.length ≤ countLimit then some (Opening.merge (os ++ ps)) else none
  | _, _ => none

/-- The openings of a pattern that stands so many times one after another. -/
def power (o : Openings) : Nat → Openings → Openings
  | 0, before => before
  | n + 1, before => if before.areContinued then before else power o n (before.cross o)

/-- The openings of a repetition of a pattern. -/
def repeated (o : Openings) (least : Nat) (greatest : Option Nat) (isLazy : Bool) : Openings :=
  if least = 0 then
    let once := if greatest = some 1 then o else o.continued
    if isLazy then union (some [.blank]) once else union once (some [.blank])
  else
    let start := power o (min least repeatLimit) (some [.blank])
    if greatest = some least ∧ least ≤ repeatLimit then start else start.continued

/-- The characters of a set. -/
def ofSet (s : CharSet) : Openings :=
  if setLimit < s.ranges.foldl (fun n r => n + (r.2 - r.1 + 1)) 0 then none
  else
    some (s.ranges.flatMap fun r =>
      (List.range (r.2 - r.1 + 1)).map fun k => ⟨Text.utf8Bytes (r.1 + k), true⟩)

mutual

/-- The openings of a plan. Conditions are taken to hold. -/
def ofPlan : Plan → Openings
  | .text bytes => limited (some [⟨bytes, true⟩])
  | .set s _ => ofSet s
  | .look _ => some [.blank]
  | .capture p => ofPlan p
  | .sequence ps => ofSequence (some [.blank]) ps
  | .choice ps => ofChoice (some []) ps
  | .repetition p least greatest isLazy => (ofPlan p).repeated least greatest isLazy

/-- The openings of plans one after another behind those that are known. -/
def ofSequence (before : Openings) : List Plan → Openings
  | [] => before
  | p :: ps => if before.areContinued then before else ofSequence (before.cross (ofPlan p)) ps

/-- The openings of one of several plans besides those that are known. -/
def ofChoice (before : Openings) : List Plan → Openings
  | [] => before
  | p :: ps => if before.isNone then none else ofChoice (before.union (ofPlan p)) ps

end

/-! ## A better choice of openings -/

/-- Characters that are frequent in texts. -/
def frequentChars : List Char := "\n\r (),-./0129:_abcdefghilmnoprstuvxy|".toList

/-- A text rarely has the first byte of an encoding. -/
def isRare (b : Nat) : Bool := b < 0x80 && !frequentChars.any (·.toNat = b)

/-- Numbers of bytes to cut openings to, and how many openings may be left as they are. -/
def attempts : List (Nat × Nat) := [(5, 10), (4, 10), (3, 64), (2, 64), (1, 10)]

/-- Cuts openings until there are few of them. -/
def shortened (os : List Opening) : List (Nat × Nat) → List Opening
  | [] => os
  | (length, count) :: rest =>
    if os.length ≤ count then os else shortened (Opening.reduce (os.map (Opening.cut length))) rest

/-- Number of openings that can be searched for one by one. -/
def fastCount : Nat := 16

/-- Greatest number of openings that can be searched for at once. -/
def searchCount : Nat := 64

/-- Openings that are as good to search for: few, long, and the start of few other texts. Openings that are all
whole are kept, unless there are short ones instead. -/
def improved : Openings → Openings
  | none => none
  | some all =>
    if all.any (·.bytes.isEmpty) then none
    else
      let os := Opening.reduce all
      let front := Opening.front os
      if 1 < all.length && front.length ≤ 3 && front.head?.any isRare then
        -- A rare first byte tells as much as more bytes would.
        some (Opening.merge (os.map (Opening.cut 1)))
      else
        let isFast := os.all Opening.isWhole && os.length ≤ fastCount
        let os :=
          if 4 < front.length || (1 < front.length && !isFast) then
            Opening.merge (os.map (Opening.cut front.length))
          else os
        let short := shortened os attempts
        if os.all Opening.isWhole
            && (short.any (·.bytes.length ≤ 2) || searchCount < short.length) then some os
        else some short

/-- There are openings, and all of them are whole. -/
def areWhole : Openings → Bool
  | none => false
  | some os => !os.isEmpty && os.all Opening.isWhole

end Openings

/-- The matches of the plan are a few texts, which can be searched for without an automaton. -/
def Plan.isPlain (p : Plan) : Bool :=
  !p.any Plan.isCapture && !p.any Plan.isLook && (Openings.ofPlan p).improved.areWhole

end PointsTo.Pattern
