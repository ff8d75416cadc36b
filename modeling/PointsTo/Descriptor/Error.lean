import PointsTo.Text.Quoted

/-!
# Errors of descriptors

Why a descriptor could not be read. Descriptors are cut character by character where an ASCII
character is expected; meeting another character there is an outcome of its own, which has no text.
-/

namespace PointsTo

/-- Why a descriptor is refused. -/
inductive DescriptorError where
  /-- The text is no type descriptor. -/
  | badType (text : String)
  /-- The text is no method reference. -/
  | badMethodRef (text : String)
  /-- The text is no field reference. -/
  | badFieldRef (text : String)
  /-- A character beyond ASCII stands where a descriptor has to be cut. -/
  | cutCharacter
  deriving DecidableEq, Repr

namespace DescriptorError

def message : DescriptorError → String
  | badType text => "conversion error from &str (" ++ Text.quote text ++ ") to Type"
  | badMethodRef text => "malformed method reference: " ++ text
  | badFieldRef text => "malformed field reference: " ++ text
  | cutCharacter => "a descriptor is cut inside a character"

end DescriptorError

end PointsTo
