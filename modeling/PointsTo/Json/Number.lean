/-!
# Range of JSON numbers

A number that is held in memory becomes a double: the digits are gathered in a word of 64 bits, digits
that no longer fit only count as a power of ten, and the word and the power are rounded, multiplied and
rounded again. `inDoubleRange` tells from the spelling whether that ends in a finite value.
-/

namespace PointsTo.Json

/-- Greatest number that the digits of a number may reach together. -/
def significandLimit : Nat := 0xffffffffffffffff

/-- Greatest number that the digits of an exponent may reach together. -/
def exponentLimit : Nat := 0x7fffffff

/-- Appends digits to a number while it stays within the limit; the digits that do not fit are left over. -/
def appendDigits (limit n : Nat) : List Char → Nat × List Char
  | [] => (n, [])
  | c :: cs =>
    let m := n * 10 + (c.toNat - '0'.toNat)
    if m ≤ limit then appendDigits limit m cs else (n, c :: cs)

/-- A number as its digits and a power of ten. -/
structure Decimal where
  significand : Nat
  exponent : Int
  deriving DecidableEq, Repr

namespace Decimal

/-- The number that is spelled by an integer part and a fraction. Digits of the integer part that are left
over each count as a factor of ten, those of the fraction do not count. -/
def ofDigits (int frac : List Char) : Decimal :=
  let (n, left) := appendDigits significandLimit 0 int
  let (m, rest) := appendDigits significandLimit n frac
  ⟨m, Int.ofNat left.length - Int.ofNat (frac.length - rest.length)⟩

/-- Rounds to the nearest number of 53 binary digits, a tie to the even one. -/
def round53 (n : Nat) : Nat :=
  let shift := n.log2 - 52
  let quotient := n >>> shift
  let twice := 2 * (n % (1 <<< shift))
  let up := 1 <<< shift < twice || (1 <<< shift = twice && quotient % 2 = 1)
  (if up then quotient + 1 else quotient) <<< shift

/-- The least magnitude that rounds to infinity. -/
def doubleLimit : Nat := (1 <<< 1024) - (1 <<< 970)

/-- Greatest power of ten that is a double. -/
def maxPower : Nat := 308

/-- The number, made from its rounded digits and its rounded power of ten, is finite. -/
def isFinite (d : Decimal) : Bool :=
  d.significand = 0 || d.exponent < 0
    || (d.exponent ≤ Int.ofNat maxPower
      && round53 d.significand * round53 (Nat.pow 10 d.exponent.toNat) < doubleLimit)

/-- Scales by a power of ten that is spelled with digits. An exponent beyond its limit is a large one. -/
def isFiniteScaled (d : Decimal) (isNegative : Bool) (digits : List Char) : Bool :=
  let (e, left) := appendDigits exponentLimit 0 digits
  if left.isEmpty then
    isFinite { d with exponent := if isNegative then d.exponent - e else d.exponent + e }
  else d.significand = 0 || isNegative

end Decimal

/-- The number is in the range of double precision. -/
def inDoubleRange (spelling : String) : Bool :=
  let unsigned := spelling.toList.dropWhile (· == '-')
  let mantissa := unsigned.takeWhile (· != 'e')
  let d := Decimal.ofDigits (mantissa.takeWhile (· != '.')) ((mantissa.dropWhile (· != '.')).drop 1)
  match unsigned.dropWhile (· != 'e') with
  | _ :: '-' :: digits => d.isFiniteScaled true digits
  | _ :: '+' :: digits => d.isFiniteScaled false digits
  | _ :: digits => d.isFiniteScaled false digits
  | [] => d.isFinite

end PointsTo.Json
