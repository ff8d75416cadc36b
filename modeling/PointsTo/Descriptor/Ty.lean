import PointsTo.Descriptor.Error

/-!
# Type descriptors

Types of the analysed programs, written as `I`, `Ljava/lang/Object;` or `[[J`. `Ty.descriptor` writes
a type, `Ty.parse` reads one, and `Ty.parseList` reads a concatenation of descriptors.
-/

namespace PointsTo

/-- A type that an array may have at its innermost dimension. -/
inductive Element where
  | boolean
  | byte
  | short
  | char
  | int
  | long
  | float
  | double
  /-- Instances of the class of this name, which is slash separated. -/
  | object (className : String)
  deriving DecidableEq, Repr

/-- A type. -/
inductive Ty where
  /-- The absence of a value. -/
  | void
  | scalar (e : Element)
  /-- An array of `dims` dimensions, at least one. -/
  | array (dims : Nat) (e : Element)
  deriving DecidableEq, Repr, Inhabited

namespace Element

def chars : Element → List Char
  | boolean => ['Z']
  | byte => ['B']
  | short => ['S']
  | char => ['C']
  | int => ['I']
  | long => ['J']
  | float => ['F']
  | double => ['D']
  | object name => 'L' :: name.toList ++ [';']

/-- Reads a descriptor: a letter, or the name of a class between `L` and `;`. The name is not empty
and is otherwise free. -/
def ofChars? : List Char → Option Element
  | ['Z'] => some boolean
  | ['B'] => some byte
  | ['S'] => some short
  | ['C'] => some char
  | ['I'] => some int
  | ['J'] => some long
  | ['F'] => some float
  | ['D'] => some double
  | 'L' :: c :: cs =>
    let body := c :: cs
    if cs ≠ [] ∧ body.getLast? = some ';' then some (object (String.ofList body.dropLast)) else none
  | _ => none

/-- Rank in the order of types: arrays stand between the primitive types and the classes. -/
def rank : Element → Nat
  | boolean => 1
  | byte => 2
  | short => 3
  | char => 4
  | int => 5
  | long => 6
  | float => 7
  | double => 8
  | object _ => 10

/-- Name of the class, empty for a primitive type. -/
def name : Element → String
  | object className => className
  | _ => ""

/-- The type as a programmer writes it. -/
def sourceText : Element → String
  | boolean => "boolean"
  | byte => "byte"
  | short => "short"
  | char => "char"
  | int => "int"
  | long => "long"
  | float => "float"
  | double => "double"
  | object className => className.map fun c => if c = '/' then '.' else c

end Element

namespace Ty

/-- Instances of a class. -/
def ofClass (name : String) : Ty := .scalar (.object name)

def chars : Ty → List Char
  | void => ['V']
  | scalar e => e.chars
  | array n e => List.replicate n '[' ++ e.chars

def descriptor (t : Ty) : String := String.ofList t.chars

def sourceText : Ty → String
  | void => "void"
  | scalar e => e.sourceText
  | array n e => e.sourceText ++ String.join (List.replicate n "[]")

/-- Values of the type are references to objects. -/
def isReference : Ty → Bool
  | array _ _ => true
  | scalar (.object _) => true
  | _ => false

/-- The class that the type names. -/
def className? : Ty → Option String
  | scalar (.object name) => some name
  | _ => none

/-- The type one dimension down. -/
def element? : Ty → Option Ty
  | array 1 e => some (scalar e)
  | array (n + 2) e => some (array (n + 1) e)
  | _ => none

/-- Greatest number of dimensions that a descriptor may have. -/
def maxDims : Nat := 254

/-- Reads a type descriptor given as characters. -/
def parseChars (cs : List Char) : Except DescriptorError Ty :=
  if cs = ['V'] then .ok void
  else
    let dims := (cs.takeWhile (· == '[')).length
    match cs.dropWhile (· == '[') with
    | [] => .error (.badType (String.ofList cs))
    | c :: rest =>
      if 0x80 ≤ c.toNat then .error .cutCharacter
      else if maxDims < dims then .error (.badType (String.ofList cs))
      else
        match Element.ofChars? (c :: rest) with
        | none => .error (.badType (String.ofList cs))
        | some e => .ok (if dims = 0 then scalar e else array dims e)

def parse (s : String) : Except DescriptorError Ty := parseChars s.toList

/-- The first descriptor of a concatenation, and the rest: brackets, then either a class up to the
next semicolon or a single character. -/
def splitFirst? (cs : List Char) : Option (List Char × List Char) :=
  match cs.dropWhile (· == '[') with
  | [] => none
  | 'L' :: rest =>
    match rest.dropWhile (· != ';') with
    | [] => none
    | semicolon :: tail =>
      some (cs.takeWhile (· == '[') ++ 'L' :: rest.takeWhile (· != ';') ++ [semicolon], tail)
  | c :: tail => some (cs.takeWhile (· == '[') ++ [c], tail)

/-- The first descriptor and the rest make up the whole. -/
theorem append_of_splitFirst? {cs first rest : List Char}
    (h : splitFirst? cs = some (first, rest)) : first ++ rest = cs := by
  have hcs : cs.takeWhile (· == '[') ++ cs.dropWhile (· == '[') = cs :=
    List.takeWhile_append_dropWhile
  unfold splitFirst? at h
  split at h
  · simp at h
  · rename_i tail hd
    split at h
    · simp at h
    · rename_i semicolon after hs
      have ht : tail.takeWhile (· != ';') ++ tail.dropWhile (· != ';') = tail :=
        List.takeWhile_append_dropWhile
      simp only [Option.some.injEq, Prod.mk.injEq] at h
      obtain ⟨rfl, rfl⟩ := h
      rw [hs] at ht
      rw [hd] at hcs
      simp only [List.append_assoc, List.cons_append, List.nil_append]
      rw [ht, hcs]
  · rename_i c after _ hd
    simp only [Option.some.injEq, Prod.mk.injEq] at h
    obtain ⟨rfl, rfl⟩ := h
    rw [hd] at hcs
    simp only [List.append_assoc, List.cons_append, List.nil_append]
    exact hcs

/-- The first descriptor of a concatenation is not empty. -/
theorem ne_nil_of_splitFirst? {cs first rest : List Char}
    (h : splitFirst? cs = some (first, rest)) : first ≠ [] := by
  unfold splitFirst? at h
  split at h
  · simp at h
  · split at h
    · simp at h
    · simp only [Option.some.injEq, Prod.mk.injEq] at h
      rw [← h.1]
      simp
  · simp only [Option.some.injEq, Prod.mk.injEq] at h
    rw [← h.1]
    simp

/-- The rest is shorter, which lets a list of descriptors be read one after the other. -/
theorem length_lt_of_splitFirst? {cs first rest : List Char}
    (h : splitFirst? cs = some (first, rest)) : rest.length < cs.length := by
  have hne := List.length_pos_iff.2 (ne_nil_of_splitFirst? h)
  have hlen := congrArg List.length (append_of_splitFirst? h)
  simp only [List.length_append] at hlen
  omega

/-- Reads a concatenation of descriptors; `whole` is the text that an unfinished one is blamed on. -/
def parseListChars (whole : String) (cs : List Char) : Except DescriptorError (List Ty) :=
  if cs = [] then .ok []
  else
    match _h : splitFirst? cs with
    | none => .error (.badType whole)
    | some (first, rest) => do
      let t ← parseChars first
      let ts ← parseListChars whole rest
      return t :: ts
termination_by cs.length
decreasing_by exact length_lt_of_splitFirst? _h

/-- Reads a concatenation of descriptors, as it stands between the parentheses of a method. -/
def parseList (s : String) : Except DescriptorError (List Ty) := parseListChars s s.toList

/-- Key of the order of types: the rank of the type, then its dimensions and its innermost type. -/
def key : Ty → Nat × Nat × Nat × String
  | void => (0, 0, 0, "")
  | scalar e => (e.rank, 0, 0, e.name)
  | array n e => (9, n, e.rank, e.name)

/-- Order of types: void, the primitive types, arrays by dimensions and innermost type, classes by
name. -/
def compare (s t : Ty) : Ordering :=
  let (a, b, c, d) := s.key
  let (a', b', c', d') := t.key
  (Ord.compare a a').then ((Ord.compare b b').then ((Ord.compare c c').then (Ord.compare d d')))

instance : Ord Ty := ⟨Ty.compare⟩

end Ty

end PointsTo
