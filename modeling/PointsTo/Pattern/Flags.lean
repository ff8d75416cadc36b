import PointsTo.Unicode.CaseFolding
import PointsTo.Unicode.Property

/-!
# Flags of patterns

Flags say how the rest of a group is read: a letter sets a flag, and those behind a hyphen are cleared. The
sets of characters that a spelling stands for depend on them. Without the flag for Unicode a set must be within
ASCII, so that no set has a complement.
-/

namespace PointsTo.Pattern

/-- What a flag is about. -/
inductive Flag where
  /-- Letters stand for both cases. -/
  | ignoreCase
  /-- Conditions on the ends of the text are about lines. -/
  | multiLine
  /-- The dot stands for line ends, too. -/
  | dotAll
  /-- Repetitions prefer few matches. -/
  | swapGreed
  /-- Sets of characters go beyond ASCII. -/
  | unicode
  /-- A carriage return belongs to the end of a line. -/
  | crlf
  /-- Blanks and comments do not count. -/
  | verbose
  deriving DecidableEq, Repr

/-- The flag of a letter. -/
def Flag.ofChar? : Char → Option Flag
  | 'i' => some .ignoreCase
  | 'm' => some .multiLine
  | 's' => some .dotAll
  | 'U' => some .swapGreed
  | 'u' => some .unicode
  | 'R' => some .crlf
  | 'x' => some .verbose
  | _ => none

/-- The flags that are set. -/
structure Flags where
  set : List Flag
  deriving DecidableEq, Repr

namespace Flags

def initial : Flags := ⟨[.unicode]⟩

def has (f : Flags) (x : Flag) : Bool := f.set.contains x

def put (f : Flags) (change : Flag × Bool) : Flags :=
  if change.2 then ⟨change.1 :: f.set⟩ else ⟨f.set.filter (· != change.1)⟩

def apply (f : Flags) (changes : List (Flag × Bool)) : Flags := changes.foldl put f

/-- The set with both cases of its letters, if the case does not count. -/
def fold (f : Flags) (s : CharSet) : CharSet :=
  if !f.has .ignoreCase then s
  else if f.has .unicode then Unicode.foldCase s else Unicode.foldAsciiCase s

/-- The set or its complement. -/
def negate? (f : Flags) (negated : Bool) (s : CharSet) : Option CharSet :=
  if !negated then some s else if f.has .unicode then some s.complement else none

/-- What the dot stands for. -/
def dot? (f : Flags) : Option CharSet :=
  if !f.has .unicode then none
  else if f.has .dotAll then some .all
  else if f.has .crlf then some (CharSet.complement ⟨[(0xa, 0xa), (0xd, 0xd)]⟩)
  else some (CharSet.complement ⟨[(0xa, 0xa)]⟩)

end Flags

/-- The classes of characters with a letter of their own. -/
inductive ShortClass where
  | digit
  | space
  | word
  deriving DecidableEq, Repr

namespace ShortClass

/-- The characters of the class in ASCII. -/
def ascii : ShortClass → CharSet
  | .digit => ⟨[(0x30, 0x39)]⟩
  | .space => ⟨[(0x9, 0xd), (0x20, 0x20)]⟩
  | .word => ⟨[(0x30, 0x39), (0x41, 0x5a), (0x5f, 0x5f), (0x61, 0x7a)]⟩

/-- The characters of the class. -/
def set (c : ShortClass) (f : Flags) : CharSet :=
  if !f.has .unicode then c.ascii
  else
    match c with
    | .digit => Unicode.digits
    | .space => Unicode.spaces
    | .word => Unicode.wordCharacters

end ShortClass

/-- The classes of ASCII characters that have a name inside of brackets. -/
def namedClass? : String → Option CharSet
  | "alnum" => some ⟨[(0x30, 0x39), (0x41, 0x5a), (0x61, 0x7a)]⟩
  | "alpha" => some ⟨[(0x41, 0x5a), (0x61, 0x7a)]⟩
  | "ascii" => some .ascii
  | "blank" => some ⟨[(0x9, 0x9), (0x20, 0x20)]⟩
  | "cntrl" => some ⟨[(0x0, 0x1f), (0x7f, 0x7f)]⟩
  | "digit" => some ShortClass.digit.ascii
  | "graph" => some ⟨[(0x21, 0x7e)]⟩
  | "lower" => some ⟨[(0x61, 0x7a)]⟩
  | "print" => some ⟨[(0x20, 0x7e)]⟩
  | "punct" => some ⟨[(0x21, 0x2f), (0x3a, 0x40), (0x5b, 0x60), (0x7b, 0x7e)]⟩
  | "space" => some ShortClass.space.ascii
  | "upper" => some ⟨[(0x41, 0x5a)]⟩
  | "word" => some ShortClass.word.ascii
  | "xdigit" => some ⟨[(0x30, 0x39), (0x41, 0x46), (0x61, 0x66)]⟩
  | _ => none

end PointsTo.Pattern
