/-!
# Byte ranges of UTF-8

The encodings of a range of code points are the products of a few lists of byte ranges, one list for each
stretch of code points in which the bytes vary independently.
-/

namespace PointsTo.Text

/-- Ranges of the bytes of an encoding, one for each byte. -/
abbrev ByteRanges := List (Nat × Nat)

/-- The bytes of the encoding of a code point. -/
def utf8Bytes (n : Nat) : List Nat :=
  if n < 0x80 then [n]
  else if n < 0x800 then [0xc0 + n / 0x40, 0x80 + n % 0x40]
  else if n < 0x10000 then [0xe0 + n / 0x1000, 0x80 + n / 0x40 % 0x40, 0x80 + n % 0x40]
  else [0xf0 + n / 0x40000, 0x80 + n / 0x1000 % 0x40, 0x80 + n / 0x40 % 0x40, 0x80 + n % 0x40]

/-- The code point of which the bytes are the encoding. -/
def utf8Code? : List Nat → Option Nat
  | [b] => if b < 0x80 then some b else none
  | [b, c] => if 0xc0 ≤ b ∧ b < 0xe0 then some ((b - 0xc0) * 0x40 + (c - 0x80)) else none
  | [b, c, d] =>
    if 0xe0 ≤ b ∧ b < 0xf0 then some ((b - 0xe0) * 0x1000 + (c - 0x80) * 0x40 + (d - 0x80)) else none
  | [b, c, d, e] =>
    if 0xf0 ≤ b then
      some ((b - 0xf0) * 0x40000 + (c - 0x80) * 0x1000 + (d - 0x80) * 0x40 + (e - 0x80))
    else none
  | _ => none

/-- First code points with more bytes than those before, and the ends of the surrogates. -/
def utf8Bounds : List Nat := [0x80, 0x800, 0xd800, 0xe000, 0x10000]

/-- The first bound that lies inside of a range. -/
def cutAtBound? (lo hi : Nat) : Option Nat := utf8Bounds.find? fun b => lo < b && b ≤ hi

/-- Where a range of code points with equally many bytes has to be cut because its last bytes do not run
through all their values while one before them changes: the first code point behind the cut. -/
def cutAtBlock? (lo hi : Nat) : Option Nat :=
  [0x40, 0x1000, 0x40000].findSome? fun block =>
    if lo / block = hi / block then none
    else if lo % block ≠ 0 then some ((lo / block + 1) * block)
    else if hi % block ≠ block - 1 then some (hi / block * block)
    else none

/-- The byte ranges of the encodings of a range of code points, in increasing order; surrogates have no
encoding. There are at most five bounds to cut at and two cuts for each block, one inside the other. -/
def byteRangesFrom : (fuel : Nat) → (lo hi : Nat) → List ByteRanges
  | 0, _, _ => []
  | fuel + 1, lo, hi =>
    match cutAtBound? lo hi with
    | some b => byteRangesFrom fuel lo (b - 1) ++ byteRangesFrom fuel b hi
    | none =>
      if 0xd800 ≤ lo ∧ lo < 0xe000 then []
      else if hi < 0x80 then [[(lo, hi)]]
      else
        match cutAtBlock? lo hi with
        | some b => byteRangesFrom fuel lo (b - 1) ++ byteRangesFrom fuel b hi
        | none => [(utf8Bytes lo).zip (utf8Bytes hi)]

/-- The byte ranges of the encodings of a range of code points. -/
def byteRanges (lo hi : Nat) : List ByteRanges := byteRangesFrom 12 lo hi

end PointsTo.Text
