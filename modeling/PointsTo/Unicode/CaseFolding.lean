import PointsTo.Unicode.NamedSet

/-!
# Case folding

Characters that differ in nothing but their case form an orbit. A set is closed under case folding if it
contains an orbit as soon as it contains one of its characters.
-/

namespace PointsTo.Unicode

/-- Orbits of case folding: the distance of the first member from the first one of the orbit before, the
distances between the members, and a zero. -/
def foldingCode : List String :=
  ["cNbGABbGABbGABbGABbGABbGABbGABbGABbGABbGABbGmkLABbGABbGABbGABbGABbGABbGABbGABbGkIABbGABbGABb",
   "GABbGABbGABbGABbGAdNbcPbGALbGABbGABbGABbGABbGABbGmfUABbGABbGABbGABbGABbGABbGABbGABbGABbGABbG",
   "ABbGABbGABbGABbGABbGABbGABbGACbGABbGABbGABbGABbGABbGABbGABlgXAbGeRABBACBACBACBACBACBACBACBAC",
   "BACBACBACBACBACBACBACBACBACBACBACBACBACBACBACBAEBACBACBADBACBACBACBACBACBACBACBADBACBACBACBA",
   "CBACBACBACBACBACBACBACBACBACBACBACBACBACBACBACBACBACBACBADBACBACBADhNABiCABBACBAChYABBAChXAB",
   "hXABBADdBABhUABhVABBAChXABhZABdTABiDABiBABBACgHABckyZABiDABiFABfAABiGABBACBACBACiKABBACiKADB",
   "ACiKABBACiJABiJABBACBACiLABBAEBADcEAFBBADBBADBBADBACBACBACBACBACBACBACBADBACBACBACBACBACBACB",
   "ACBACBADBBADBAEBACBACBACBACBACBACBACBACBACBACBACBACBACBACBACBACBACBACBACBAEBACBACBACBACBACBA",
   "CBACBACBAIpzFABBADpzCABpzZABpzZABBADcRABcTABBACBACBACBACBACpyTABpyQABpySAKckpRAFckpNADckqPAB",
   "ckoEABckpGAEckpGABpxFABckpDAFpxLAMpwPAFckpFAFckoGAWcknLABcknIAgLdGbGkpXAbRBACBAEBAFfAABfAABf",
   "AACeMAHbMACbLABbLABbLACcMACcLABcLABksHABbGABbGbEABbGABbGABbGcMABbGABbGABbGZbJACbGcCABbGACbGA",
   "BbGABbGABbGWABbGbWACbFBABbGABbGABbGPABbGABbGABbGldDABbGABbGAFkrRAbFIAJBACBACBACBACBACBACBACB",
   "ACBACBACBACBAEHAFBADBAGdCABdCABdCABdCABdCABdCABdCABdCABdCABdCABdCABdCABdCABdCABdCABdCABbGABb",
   "GABbGjfIABbGABbGjfHABbGABbGABbGABbGABbGABbGABbGABbGABbGABbGjeYABbGABbGABbGjeWABbGjeWBABbGABb",
   "GABbGABbGABbGABbGABbGABbGjeQABbGABbGABbGABbGABbGAbXBACBjdSACBACBACBACBACBACBACBACBACBACBACBA",
   "CBACBACBACBAKBACBACBACBACBACBACBACBACBACBACBACBACBACBACBACBACBACBACBACBACBACBACBACBACBACBACB",
   "ACPABBACBACBACBACBACBACBADBACBACBACBACBACBACBACBACBACBACBACBACBACBACBACBACBACBACBACBACBACBAC",
   "BACBACBACBACBACBACBACBACBACBACBACBACBACBACBACBACBACBACBACBACBACBACBACBACBACBADbWABbWABbWABbW",
   "ABbWABbWABbWABbWABbWABbWABbWABbWABbWABbWABbWABbWABbWABbWABbWABbWABbWABbWABbWABbWABbWABbWABbW",
   "ABbWABbWABbWABbWABbWABbWABbWABbWABbWABbWABbWAehEktKABktKABktKABktKABktKABktKABktKABktKABktKA",
   "BktKABktKABktKABktKABktKABktKABktKABktKABktKABktKABktKABktKABktKABktKABktKABktKABktKABktKABk",
   "tKABktKABktKABktKABktKABktKABktKABktKABktKABktKABktKACktKAGktKADelSABelSABelSABelSABelSABelS",
   "ABelSABelSABelSABelSABelSABelSABelSABelSABelSABelSABelSABelSABelSABelSABelSABelSABelSABelSAB",
   "elSABelSABelSABelSABelSABelSABelSABelSABelSABelSABelSABelSABelSABelSABelSABelSABelSABelSABel",
   "SADelSABelSABelSAzXcfmUABcfmUABcfmUABcfmUABcfmUABcfmUABcfmUABcfmUABcfmUABcfmUABcfmUABcfmUABc",
   "fmUABcfmUABcfmUABcfmUABcfmUABcfmUABcfmUABcfmUABcfmUABcfmUABcfmUABcfmUABcfmUABcfmUABcfmUABcfm",
   "UABcfmUABcfmUABcfmUABcfmUABcfmUABcfmUABcfmUABcfmUABcfmUABcfmUABcfmUABcfmUABcfmUABcfmUABcfmUA",
   "BcfmUABcfmUABcfmUABcfmUABcfmUABcfmUABcfmUABcfmUABcfmUABcfmUABcfmUABcfmUABcfmUABcfmUABcfmUABc",
   "fmUABcfmUABcfmUABcfmUABcfmUABcfmUABcfmUABcfmUABcfmUABcfmUABcfmUABcfmUABcfmUABcfmUABcfmUABcfm",
   "UABcfmUABcfmUABcfmUABcfmUABcfmUABcfmUABIABIABIABIABIABIAdgLcaeKBABBAjGcagYAEfqSARcaiYAeKBACB",
   "ACBACBACBACBACBACBACBACBACBACBACBACBACBACBACBACBACBACBACBACBACBACBACBACBACBACBACBACBACBACBAC",
   "BACBACBACBACBACBACBACBACBACBACBACBACBACBACBACBACBcGACBACBACBACBACBACBACBACBACBACBACBACBACBAC",
   "BACBACBACBACBACBACBACBACBACBACBACBACBAMBACBACBACBACBACBACBACBACBACBACBACBACBACBACBACBACBACBA",
   "CBACBACBACBACBACBACBACBACBACBACBACBACBACBACBACBACBACBACBACBACBACBACBACBACBACBACBACBACBACBACI",
   "ABIABIABIABIABIABIABIAJIABIABIABIABIABIALIABIABIABIABIABIABIABIAJIABIABIABIABIABIABIABIAJIAB",
   "IABIABIABIABIAMIACIACIACIAJIABIABIABIABIABIABIABIAJcWABcWABdIABdIABdIABdIABdWABdWABeYABeYABe",
   "IABeIABeWABeWADIABIABIABIABIABIABIABIAJIABIABIABIABIABIABIABIAJIABIABIABIABIABIABIABIAJIABIA",
   "CJAQJANIABIAPIABIAEHAOJAmHbCAbUQABQABQABQABQABQABQABQABQABQABQABQABQABQABQABQAUBAbfNbAABbAAB",
   "bAABbAABbAABbAABbAABbAABbAABbAABbAABbAABbAABbAABbAABbAABbAABbAABbAABbAABbAABbAABbAABbAABbAAB",
   "bAAcsVbWABbWABbWABbWABbWABbWABbWABbWABbWABbWABbWABbWABbWABbWABbWABbWABbWABbWABbWABbWABbWABbW",
   "ABbWABbWABbWABbWABbWABbWABbWABbWABbWABbWABbWABbWABbWABbWABbWABbWABbWABbWABbWABbWABbWABbWABbW",
   "ABbWABbWABbWAbXBAHBACBACBAHBADBALBACBACBACBACBACBACBACBACBACBACBACBACBACBACBACBACBACBACBACBA",
   "CBACBACBACBACBACBACBACBACBACBACBACBACBACBACBACBACBACBACBACBACBACBACBACBACBACBACBACBACBACBAJB",
   "ACBAFBAbtyKBACBACBACBACBAEBACBACBACBACBACBACBACBACBACBACBACBACBACBACBACBACBAUBACBACBACBACBAC",
   "BACBACBACBACBACBACBACBACBAfGBACBACBACBACBACBACBAEBACBACBACBACBACBACBACBACBACBACBACBACBACBACB",
   "ACBACBACBACBACBACBACBACBACBACBACBACBACBACBACBACBALBACBADBACBACBACBACBAFBAFBACBACbWACBACBACBA",
   "CBACBACBACBACBACBACBALbjSABBACBACBACBACBACBACBACBAFBACBADBAEBAGBACBACBAbBBAbflWBAboMbGABbGAB",
   "bGABbGABbGABbGABbGABbGABbGABbGABbGABbGABbGABbGABbGABbGABbGABbGABbGABbGABbGABbGABbGABbGABbGAB",
   "bGAbvAbOABbOABbOABbOABbOABbOABbOABbOABbOABbOABbOABbOABbOABbOABbOABbOABbOABbOABbOABbOABbOABbO",
   "ABbOABbOABbOABbOABbOABbOABbOABbOABbOABbOABbOABbOABbOABbOABbOABbOABbOABbOAfHbOABbOABbOABbOABb",
   "OABbOABbOABbOABbOABbOABbOABbOABbOABbOABbOABbOABbOABbOABbOABbOABbOABbOABbOABbOABbOABbOABbOABb",
   "OABbOABbOABbOABbOABbOABbOABbOABbOAgBbNABbNABbNABbNABbNABbNABbNABbNABbNABbNABbNACbNABbNABbNAB",
   "bNABbNABbNABbNABbNABbNABbNABbNABbNABbNABbNABbNACbNABbNABbNABbNABbNABbNABbNACbNABbNAcqDcMABcM",
   "ABcMABcMABcMABcMABcMABcMABcMABcMABcMABcMABcMABcMABcMABcMABcMABcMABcMABcMABcMABcMABcMABcMABcM",
   "ABcMABcMABcMABcMABcMABcMABcMABcMABcMABcMABcMABcMABcMABcMABcMABcMABcMABcMABcMABcMABcMABcMABcM",
   "ABcMABcMABcMAgCbGABbGABbGABbGABbGABbGABbGABbGABbGABbGABbGABbGABbGABbGABbGABbGABbGABbGABbGABb",
   "GABbGABbGAegPbGABbGABbGABbGABbGABbGABbGABbGABbGABbGABbGABbGABbGABbGABbGABbGABbGABbGABbGABbGA",
   "BbGABbGABbGABbGABbGABbGABbGABbGABbGABbGABbGABbGAbgjXbGABbGABbGABbGABbGABbGABbGABbGABbGABbGAB",
   "bGABbGABbGABbGABbGABbGABbGABbGABbGABbGABbGABbGABbGABbGABbGABbGABbGABbGABbGABbGABbGABbGAbulLb",
   "IABbIABbIABbIABbIABbIABbIABbIABbIABbIABbIABbIABbIABbIABbIABbIABbIABbIABbIABbIABbIABbIABbIABb",
   "IABbIABbIABbIABbIABbIABbIABbIABbIABbIABbIA"]

/-- Reads a number of the orbits: those that are complete, in reverse, the members of the current one, the
last first, and its first member. -/
def readMember (s : List (List Nat) × List Nat × Nat) (n : Nat) : List (List Nat) × List Nat × Nat :=
  let (done, current, first) := s
  match current with
  | [] => (done, [first + n], first + n)
  | last :: _ => if n = 0 then (current :: done, [], first) else (done, (last + n) :: current, first)

/-- The orbits of case folding. -/
def orbits : List (List Nat) := ((numbers foldingCode).foldl readMember ([], [], 0)).1

/-- The least set around a set that is closed under case folding. -/
def foldCase (s : CharSet) : CharSet :=
  let added := orbits.filter fun orbit => orbit.any s.hasCode
  .ofRanges (s.ranges ++ added.flatten.map fun n => (n, n))

/-- The least set around a set that contains an ASCII letter in both cases or not at all. -/
def foldAsciiCase (s : CharSet) : CharSet :=
  let lower := s.inter ⟨[('a'.toNat, 'z'.toNat)]⟩
  let upper := s.inter ⟨[('A'.toNat, 'Z'.toNat)]⟩
  .ofRanges (s.ranges ++ lower.ranges.map (fun r => (r.1 - 32, r.2 - 32))
    ++ upper.ranges.map fun r => (r.1 + 32, r.2 + 32))

end PointsTo.Unicode
