/-!
# JSON tokens

`Token.scan` cuts a text into tokens. Blanks are space, tab, line feed and carriage return. A string
may not contain a raw control character, and its escapes are the eight short ones and `\u` with four
hexadecimal digits. Two escapes that spell a surrogate pair denote one character.
-/

namespace PointsTo.Json

/-- Tokens of a JSON text. -/
inductive Token where
  | openBrace
  | closeBrace
  | openBracket
  | closeBracket
  | colon
  | comma
  | null
  | bool (b : Bool)
  | number (spelling : String)
  | text (t : Option String)
  deriving DecidableEq, Repr

namespace Token

def hexValue? (c : Char) : Option Nat :=
  if '0' ≤ c ∧ c ≤ '9' then some (c.toNat - '0'.toNat)
  else if 'a' ≤ c ∧ c ≤ 'f' then some (c.toNat - 'a'.toNat + 10)
  else if 'A' ≤ c ∧ c ≤ 'F' then some (c.toNat - 'A'.toNat + 10)
  else none

/-- Value of four hexadecimal digits. -/
def hex4? (a b c d : Char) : Option Nat := do
  let w ← hexValue? a
  let x ← hexValue? b
  let y ← hexValue? c
  let z ← hexValue? d
  return ((w * 16 + x) * 16 + y) * 16 + z

/-- The character of a short escape. -/
def shortEscape? : Char → Option Char
  | '"' => some '"'
  | '\\' => some '\\'
  | '/' => some '/'
  | 'b' => some '\x08'
  | 'f' => some '\x0c'
  | 'n' => some '\n'
  | 'r' => some '\r'
  | 't' => some '\t'
  | _ => none

/-- A piece of a string literal: a character, or the code unit of a `\u` escape. -/
inductive Piece where
  | char (c : Char)
  | unit (code : Nat)
  deriving DecidableEq, Repr

/-- First code unit of a surrogate pair. -/
def isHighSurrogate (n : Nat) : Bool := 0xD800 ≤ n && n < 0xDC00

/-- Second code unit of a surrogate pair. -/
def isLowSurrogate (n : Nat) : Bool := 0xDC00 ≤ n && n < 0xE000

/-- The character of a surrogate pair. -/
def surrogatePair (high low : Nat) : Char :=
  Char.ofNat (0x10000 + (high - 0xD800) * 0x400 + (low - 0xDC00))

/-- The characters that the pieces denote; none if a surrogate lacks its partner. -/
def join? : List Piece → Option (List Char)
  | [] => some []
  | .char c :: ps => (join? ps).map (c :: ·)
  | .unit high :: .unit low :: ps =>
    if isHighSurrogate high then
      if isLowSurrogate low then (join? ps).map (surrogatePair high low :: ·) else none
    else if isLowSurrogate high then none
    else (join? (.unit low :: ps)).map (Char.ofNat high :: ·)
  | .unit n :: ps =>
    if isHighSurrogate n || isLowSurrogate n then none
    else (join? ps).map (Char.ofNat n :: ·)

/-- Reads a string literal after its opening quote: its pieces, and what follows the closing one. -/
def string? : List Char → Option (List Piece × List Char)
  | '"' :: rest => some ([], rest)
  | '\\' :: 'u' :: a :: b :: c :: d :: rest => do
    let n ← hex4? a b c d
    let (ps, rest) ← string? rest
    return (.unit n :: ps, rest)
  | '\\' :: c :: rest => do
    let e ← shortEscape? c
    let (ps, rest) ← string? rest
    return (.char e :: ps, rest)
  | c :: rest =>
    if c.toNat < 0x20 || c == '\\' then none
    else do
      let (ps, rest) ← string? rest
      return (.char c :: ps, rest)
  | [] => none

def isDigit (c : Char) : Bool := '0' ≤ c && c ≤ '9'

/-- One digit or more at the front, and the rest. -/
def digits? (cs : List Char) : Option (List Char × List Char) :=
  match cs.takeWhile isDigit with
  | [] => none
  | ds => some (ds, cs.dropWhile isDigit)

/-- The integer part of a number: a single zero, or digits that do not start with one. -/
def integerPart? : List Char → Option (List Char × List Char)
  | '0' :: rest => some (['0'], rest)
  | cs => digits? cs

def fractionPart? : List Char → Option (List Char × List Char)
  | '.' :: rest => (digits? rest).map fun (ds, rest) => ('.' :: ds, rest)
  | cs => some ([], cs)

def exponentPart? : List Char → Option (List Char × List Char)
  | c :: rest =>
    if c == 'e' || c == 'E' then
      match rest with
      | '+' :: rest => (digits? rest).map fun (ds, rest) => ('e' :: '+' :: ds, rest)
      | '-' :: rest => (digits? rest).map fun (ds, rest) => ('e' :: '-' :: ds, rest)
      | rest => (digits? rest).map fun (ds, rest) => ('e' :: ds, rest)
    else some ([], c :: rest)
  | [] => some ([], [])

/-- An unsigned number at the front, and the rest. -/
def unsigned? (cs : List Char) : Option (List Char × List Char) := do
  let (int, cs) ← integerPart? cs
  let (frac, cs) ← fractionPart? cs
  let (exp, cs) ← exponentPart? cs
  return (int ++ frac ++ exp, cs)

/-- A number at the front, and the rest. -/
def number? : List Char → Option (String × List Char)
  | '-' :: rest => (unsigned? rest).map fun (ds, rest) => (String.ofList ('-' :: ds), rest)
  | cs => (unsigned? cs).map fun (ds, rest) => (String.ofList ds, rest)

/-- The token at the front of a text that does not start with a blank, and the rest. -/
def next? : List Char → Option (Token × List Char)
  | '\x7b' :: rest => some (.openBrace, rest)
  | '\x7d' :: rest => some (.closeBrace, rest)
  | '[' :: rest => some (.openBracket, rest)
  | ']' :: rest => some (.closeBracket, rest)
  | ':' :: rest => some (.colon, rest)
  | ',' :: rest => some (.comma, rest)
  | 'n' :: 'u' :: 'l' :: 'l' :: rest => some (.null, rest)
  | 't' :: 'r' :: 'u' :: 'e' :: rest => some (.bool true, rest)
  | 'f' :: 'a' :: 'l' :: 's' :: 'e' :: rest => some (.bool false, rest)
  | '"' :: rest => (string? rest).map fun (ps, rest) => (.text ((join? ps).map String.ofList), rest)
  | cs => (number? cs).map fun (s, rest) => (.number s, rest)

/-- Blanks between tokens. -/
def isBlank (c : Char) : Bool := c == ' ' || c == '\t' || c == '\n' || c == '\r'

/-- Cuts at most `fuel` tokens and blanks; every one of them takes a character at least. -/
def scanFrom : (fuel : Nat) → List Char → Option (List Token)
  | _, [] => some []
  | 0, _ :: _ => none
  | fuel + 1, c :: cs =>
    if isBlank c then scanFrom fuel cs
    else do
      let (t, rest) ← next? (c :: cs)
      let ts ← scanFrom fuel rest
      return t :: ts

/-- The tokens of a text; none if it does not consist of tokens and blanks. -/
def scan (s : String) : Option (List Token) :=
  let cs := s.toList
  scanFrom cs.length cs

end Token

end PointsTo.Json
