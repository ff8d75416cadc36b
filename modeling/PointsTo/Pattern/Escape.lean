import PointsTo.Pattern.Basic
import PointsTo.Pattern.Flags

/-!
# Escapes of patterns

A backslash gives a letter a meaning and takes it from a punctuation mark. Where blanks do not count, they may
stand between the characters of an escape.
-/

namespace PointsTo.Pattern

def isSpace (c : Char) : Bool := Unicode.spaces.contains c

/-- Whether a character does not count, being a blank or part of a comment, which starts with a hash and ends
with the line; and if so, whether a comment goes on behind it. -/
def skipped? (f : Flags) (inComment : Bool) (c : Char) : Option Bool :=
  if inComment then some (c != '\n')
  else if !f.has .verbose then none
  else if isSpace c then some false
  else if c = '#' then some true
  else none

/-- The rest of a text behind what does not count, inside of a comment or not. -/
def skipFrom (f : Flags) (inComment : Bool) : List Char → List Char
  | [] => []
  | c :: cs =>
    match skipped? f inComment c with
    | some inComment => skipFrom f inComment cs
    | none => c :: cs

/-- The rest of a text behind what does not count. -/
def skip (f : Flags) (cs : List Char) : List Char := skipFrom f false cs

/-- The smallest unit of a pattern. -/
inductive Atom where
  /-- A character; `isByte` if it is spelled by two hexadecimal digits. -/
  | literal (c : Char) (isByte : Bool)
  | set (s : CharSet)
  | look (l : Look)
  deriving DecidableEq, Repr

def hexDigit? (c : Char) : Option Nat :=
  if '0' ≤ c ∧ c ≤ '9' then some (c.toNat - '0'.toNat)
  else if 'a' ≤ c ∧ c ≤ 'f' then some (c.toNat - 'a'.toNat + 10)
  else if 'A' ≤ c ∧ c ≤ 'F' then some (c.toNat - 'A'.toNat + 10)
  else none

/-- The character whose code point is spelled by hexadecimal digits, of which there is one at least. -/
def hexChar? (cs : List Char) : Option Char := do
  if cs.isEmpty then none
  let n := (← cs.mapM hexDigit?).foldl (fun n d => n * 16 + d) 0
  if n.isValidChar then some (Char.ofNat n) else none

/-- Reads so many characters. -/
def takeChars? (f : Flags) : Nat → List Char → Option (List Char × List Char)
  | 0, cs => some ([], cs)
  | n + 1, c :: cs => do
    let (taken, rest) ← takeChars? f n (skip f cs)
    return (c :: taken, rest)
  | _ + 1, [] => none

/-- Reads up to a closing brace, inside of a comment or not. -/
def takeBraced? (f : Flags) (inComment : Bool) : List Char → Option (List Char × List Char)
  | [] => none
  | c :: cs =>
    match skipped? f inComment c with
    | some inComment => takeBraced? f inComment cs
    | none =>
      if c = '\x7d' then some ([], cs)
      else (takeBraced? f false cs).map fun (taken, rest) => (c :: taken, rest)

/-- Reads a character by its code point, which has so many digits or stands in braces. -/
def hexLiteral? (f : Flags) (digits : Nat) (cs : List Char) : Option (Atom × List Char) :=
  match skip f cs with
  | '\x7b' :: rest => do
    let (ds, rest) ← takeBraced? f false rest
    return (.literal (← hexChar? ds) false, rest)
  | cs => do
    let (ds, rest) ← takeChars? f digits cs
    return (.literal (← hexChar? ds) (digits = 2), rest)

/-- Cuts a text at the first place of a mark. -/
def cutAt? (mark : List Char) : List Char → Option (List Char × List Char)
  | [] => none
  | c :: cs =>
    if mark.isPrefixOf (c :: cs) then some ([], (c :: cs).drop mark.length)
    else (cutAt? mark cs).map fun (before, after) => (c :: before, after)

/-- The marks between the name and the value of a property, and whether characters with another value are
meant. -/
def propertyMarks : List (List Char × Bool) := [(['!', '='], true), ([':'], false), (['='], false)]

/-- The characters with the property that a text describes, a name or a name and a value; and whether those
without it are meant. -/
def property? (text : List Char) : Option (CharSet × Bool) := do
  match propertyMarks.findSome? fun (mark, negated) => (cutAt? mark text).map (·, negated) with
  | some ((name, value), negated) =>
    return (← Unicode.propertyValue? (String.ofList name) (String.ofList value), negated)
  | none => return (← Unicode.property? (String.ofList text), false)

/-- Reads the description of a property: a letter, or a text in braces. -/
def propertyClass? (f : Flags) (negated : Bool) (cs : List Char) : Option (Atom × List Char) := do
  let (text, rest) ← match skip f cs with
    | [] => none
    | '\\' :: _ => none
    | '\x7b' :: rest => takeBraced? f false rest
    | c :: rest => some ([c], rest)
  if !f.has .unicode then none
  let (s, isNot) ← property? text
  return (.set (← f.negate? (negated != isNot) (f.fold s)), rest)

/-- A condition on words. -/
def wordLook (f : Flags) (kind : WordLook) : Atom := .look (.word kind (ShortClass.word.set f))

/-- The condition of a name in braces. -/
def wordLook? : String → Option WordLook
  | "start" => some .start
  | "end" => some .stop
  | "start-half" => some .startHalf
  | "end-half" => some .stopHalf
  | _ => none

/-- Reads what follows the letter of a word boundary: the name of a condition in braces, unless the braces are
those of a repetition. -/
def wordBoundary? (f : Flags) (cs : List Char) : Option (Atom × List Char) :=
  match cs with
  | '\x7b' :: rest =>
    match skip f rest with
    | [] => none
    | c :: _ =>
      if c.isAlpha || c = '-' then do
        let (name, rest) ← takeBraced? f false rest
        return (wordLook f (← wordLook? (String.ofList name)), rest)
      else some (wordLook f .boundary, cs)
  | _ => some (wordLook f .boundary, cs)

/-- A class with a letter of its own. -/
def shortClass? (f : Flags) (c : ShortClass) (negated : Bool) : Option Atom := do
  return .set (← f.negate? negated (c.set f))

/-- The character of an escape that stands for one. -/
def escapedChar? : Char → Option Char
  | 'a' => some '\x07'
  | 'f' => some '\x0c'
  | 'n' => some '\n'
  | 'r' => some '\r'
  | 't' => some '\t'
  | 'v' => some '\x0b'
  | c => if c.toNat < 0x80 && !c.isAlphanum && c != '<' && c != '>' then some c else none

/-- Reads an escape behind its backslash. -/
def escape? (f : Flags) : List Char → Option (Atom × List Char)
  | [] => none
  | c :: rest =>
    match c with
    | 'x' => hexLiteral? f 2 rest
    | 'u' => hexLiteral? f 4 rest
    | 'U' => hexLiteral? f 8 rest
    | 'p' => propertyClass? f false rest
    | 'P' => propertyClass? f true rest
    | 'd' => (shortClass? f .digit false).map (·, rest)
    | 'D' => (shortClass? f .digit true).map (·, rest)
    | 's' => (shortClass? f .space false).map (·, rest)
    | 'S' => (shortClass? f .space true).map (·, rest)
    | 'w' => (shortClass? f .word false).map (·, rest)
    | 'W' => (shortClass? f .word true).map (·, rest)
    | 'A' => some (.look .textStart, rest)
    | 'z' => some (.look .textStop, rest)
    | 'b' => wordBoundary? f rest
    | 'B' => some (wordLook f .inside, rest)
    | '<' => some (wordLook f .start, rest)
    | '>' => some (wordLook f .stop, rest)
    | c => (escapedChar? c).map (.literal · false, rest)

end PointsTo.Pattern
