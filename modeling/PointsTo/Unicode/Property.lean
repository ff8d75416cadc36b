import PointsTo.Unicode.Age
import PointsTo.Unicode.BinaryProperty
import PointsTo.Unicode.Category
import PointsTo.Unicode.Script
import PointsTo.Unicode.ScriptExtension
import PointsTo.Unicode.Segmentation

/-!
# Properties of characters

Sets of characters by the name of a property, or by a property and its value. Names are compared loosely:
case, blanks, underscores and hyphens do not count, nor does a leading `is`.
-/

namespace PointsTo.Unicode

/-- A name without what does not count. The `is` of `isc` counts. -/
def looseName (name : String) : String :=
  let strip := fun cs : List Char =>
    (cs.filter fun c => c != ' ' && c != '_' && c != '-' && c.toNat < 0x80).map Char.toLower
  let cs := name.toList
  match cs with
  | i :: s :: rest =>
    if (i = 'i' ∨ i = 'I') ∧ (s = 's' ∨ s = 'S') then
      if strip rest = ['c'] then "isc" else String.ofList (strip rest)
    else String.ofList (strip cs)
  | _ => String.ofList (strip cs)

def unions (sets : List CharSet) : CharSet := .ofRanges (sets.flatMap CharSet.ranges)

/-- The characters of a general category. -/
def category? (name : String) : Option CharSet :=
  match name with
  | "any" => some .all
  | "ascii" => some .ascii
  | "assigned" => (find? categories "unassigned").map CharSet.complement
  | _ =>
    match jointCategories.find? fun c => c.1.contains name with
    | some c => some (unions (c.2.filterMap (find? categories)))
    | none => find? categories name

/-- The characters that a version of the standard contains. -/
def age? (name : String) : Option CharSet :=
  match ages.findIdx? fun a => a.names.contains name with
  | some i => some (unions ((ages.take (i + 1)).map NamedSet.set))
  | none => none

/-- The characters with a property, of a general category, or of a script. -/
def property? (name : String) : Option CharSet :=
  let name := looseName name
  (find? binaryProperties name).orElse fun _ =>
    (category? name).orElse fun _ => find? scripts name

/-- The characters for which a property has a value. -/
def propertyValue? (property value : String) : Option CharSet :=
  let value := looseName value
  match looseName property with
  | "gc" | "generalcategory" => category? value
  | "sc" | "script" => find? scripts value
  | "scx" | "scriptextensions" =>
    (find? extendedScripts value).orElse fun _ => find? scripts value
  | "age" => age? value
  | "gcb" | "graphemeclusterbreak" => find? graphemeBreaks value
  | "wb" | "wordbreak" => find? wordBreaks value
  | "sb" | "sentencebreak" => find? sentenceBreaks value
  | _ => none

/-- Decimal digits. -/
def digits : CharSet := (find? categories "nd").getD .empty

/-- Alphabetic characters. -/
def letters : CharSet := (find? binaryProperties "alphabetic").getD .empty

/-- Characters that denote numbers. -/
def numerals : CharSet := (category? "number").getD .empty

/-- White space. -/
def spaces : CharSet := (find? binaryProperties "whitespace").getD .empty

/-- Characters of words: alphabetic ones, marks, decimal digits, connecting punctuation and join controls. -/
def wordCharacters : CharSet :=
  unions [letters, (category? "mark").getD .empty, digits,
    (find? categories "pc").getD .empty, (find? binaryProperties "joincontrol").getD .empty]

end PointsTo.Unicode
