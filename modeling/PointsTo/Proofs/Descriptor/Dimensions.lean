import Mathlib.Logic.Function.Iterate
import PointsTo.Proofs.Descriptor.RoundTrip

/-! # Descriptors of arrays

A descriptor is a letter or a class, with a bracket in front of it for each dimension. It is accepted up to
254 dimensions, and taking elements undoes one dimension after the other. With one more dimension it is
refused.
-/

namespace PointsTo

/-- How an innermost type is written. -/
inductive Element.IsWritten : Element → String → Prop where
  | boolean : IsWritten boolean "Z"
  | byte : IsWritten byte "B"
  | short : IsWritten short "S"
  | char : IsWritten char "C"
  | int : IsWritten int "I"
  | long : IsWritten long "J"
  | float : IsWritten float "F"
  | double : IsWritten double "D"
  | object {name : String} (h : name ≠ "") : IsWritten (object name) ("L" ++ name ++ ";")

/-- An innermost type that is written is named, and its text is what it is printed as. -/
theorem Element.IsWritten.chars {e : Element} {base : String} (h : e.IsWritten base) :
    e.IsNamed ∧ base.toList = e.chars := by
  cases h with
  | @object name hname => exact ⟨hname, by simp [Element.chars]⟩
  | _ => exact ⟨trivial, by decide⟩

namespace Ty

/-- A text with some number of brackets in front. -/
def bracketed (n : Nat) (base : String) : String := String.ofList (List.replicate n '[') ++ base

/-- The type that is left when elements are taken some number of times. -/
def elementAt? (n : Nat) (t : Ty) : Option Ty := (·.bind element?)^[n] (some t)

/-- Elements have one dimension less. -/
theorem element?_ofDims (n : Nat) (e : Element) : (ofDims (n + 1) e).element? = some (ofDims n e) := by
  cases n <;> rfl

/-- The elements of an array, as often as it has dimensions, are of its innermost type. -/
theorem elementAt?_ofDims (n : Nat) (e : Element) : elementAt? n (ofDims n e) = some (scalar e) := by
  induction n with
  | zero => rfl
  | succ n ih =>
      rw [elementAt?, Function.iterate_succ_apply, Option.bind_some, element?_ofDims]
      exact ih

/-- The text with brackets in front is how the array is printed. -/
theorem toList_bracketed {e : Element} {base : String} (h : e.IsWritten base) (n : Nat) :
    (bracketed n base).toList = (ofDims n e).chars := by
  rw [bracketed, String.toList_append, String.toList_ofList, h.chars.2, chars_ofDims]

/-- One dimension too many. -/
theorem parseChars_ofDims_of_lt {n : Nat} (hn : 254 < n) (e : Element) :
    parseChars (ofDims n e).chars = .error (.badType (ofDims n e).descriptor) := by
  rw [parseChars_chars_ofDims, if_pos (by rw [maxDims]; omega)]

/-- The descriptor of an array is that of its innermost type behind brackets. -/
theorem descriptor_ofDims {e : Element} {base : String} (h : e.IsWritten base) (n : Nat) :
    (ofDims n e).descriptor = bracketed n base := by
  rw [descriptor, ← toList_bracketed h, String.ofList_toList]

/-- Reading the text with brackets is reading the descriptor of the array. -/
theorem parse_bracketed {e : Element} {base : String} (h : e.IsWritten base) (n : Nat) :
    parse (bracketed n base) = parseChars (ofDims n e).chars := by
  rw [parse, toList_bracketed h]

/-- A descriptor with up to 254 brackets is accepted as the type with that many dimensions. The type is
written as it was read, and its elements, taken once for each dimension, are of the innermost type. More
brackets are refused, and the error names the whole text. -/
theorem descriptors_accepted {e : Element} {base : String} (h : e.IsWritten base) (n : Nat) :
    (n ≤ 254 → parse (bracketed n base) = .ok (ofDims n e) ∧
      (ofDims n e).descriptor = bracketed n base ∧ elementAt? n (ofDims n e) = some (scalar e)) ∧
    (254 < n → parse (bracketed n base) = .error (.badType (bracketed n base))) := by
  rw [parse_bracketed h]
  refine ⟨fun hn => ⟨parseChars_ofDims hn h.chars.1, descriptor_ofDims h n, elementAt?_ofDims n e⟩,
    fun hn => ?_⟩
  rw [parseChars_ofDims_of_lt hn, descriptor_ofDims h]

/-- A class with brackets and letters in its name, at the greatest number of dimensions and behind it. -/
theorem descriptors_accepted_object :
    let base := "L" ++ "[[I" ++ ";"
    (Element.object "[[I").IsWritten base ∧
      parse (bracketed 254 base) = .ok (array 254 (.object "[[I")) ∧
      elementAt? 254 (array 254 (.object "[[I")) = some (scalar (.object "[[I")) ∧
      parse (bracketed 255 base) = .error (.badType (bracketed 255 base)) := by
  intro base
  have hwritten : (Element.object "[[I").IsWritten base := .object (by decide)
  obtain ⟨hparse, -, helement⟩ := (descriptors_accepted hwritten 254).1 (by omega)
  exact ⟨hwritten, hparse, helement, (descriptors_accepted hwritten 255).2 (by omega)⟩

/-- With 255 dimensions the limit is passed. -/
theorem descriptor_refused_at_limit :
    parse (bracketed 255 "I") = .error (.badType (bracketed 255 "I")) := by
  rw [parse_bracketed .int, parseChars_ofDims_of_lt (by omega), descriptor_ofDims .int]

end Ty

end PointsTo
