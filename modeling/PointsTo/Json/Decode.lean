import PointsTo.Json.Basic

/-!
# Decoding JSON documents

A record may be written as an object or as the array of its values in field order; `Record.ofJson?`
brings both into slots, one for each field. A slot that was not given is empty, so that a missing
member and a missing tail of the array are the same. A field given twice is refused.
-/

namespace PointsTo.Json

def text? : Json → Option String
  | .text t => t
  | _ => none

def bool? : Json → Option Bool
  | .bool b => some b
  | _ => none

/-- An array whose items are all decoded. -/
def list? {α : Type} (item? : Json → Option α) : Json → Option (List α)
  | .array items => items.mapM item?
  | _ => none

/-- A value that may be `null`. -/
def nullable? {α : Type} (value? : Json → Option α) : Json → Option (Option α)
  | .null => some none
  | j => (value? j).map some

/-- The values of a record, one slot for each field; an empty slot was not given. -/
abbrev Record := List (Option Json)

namespace Record

/-- Puts a value into the slot of a field; none if the slot is taken. -/
def fill? : List String → Record → String → Json → Option Record
  | name :: names, slot :: slots, key, j =>
    if name = key then
      match slot with
      | none => some (some j :: slots)
      | some _ => none
    else (fill? names slots key j).map (slot :: ·)
  | _, slots, _, _ => some slots

/-- Adds the member of an object. The key is a text; unless the record is `closed`, a key that names
no field is passed over. -/
def addMember? (names : List String) (closed : Bool) (r : Record) (m : JsonText × Json) :
    Option Record := do
  let key ← m.1
  if closed && !names.contains key then none
  fill? names r key m.2

/-- The slots of a record with the given fields. -/
def ofJson? (names : List String) (closed : Bool) : Json → Option Record
  | .object members =>
    members.foldlM (addMember? names closed) (names.map fun _ => none)
  | .array items =>
    if items.length ≤ names.length then
      some (items.map some ++ List.replicate (names.length - items.length) none)
    else none
  | _ => none

end Record

/-- A field that has to be given. -/
def required? {α : Type} (value? : Json → Option α) : Option Json → Option α
  | none => none
  | some j => value? j

/-- A field with a default. -/
def optional? {α : Type} (missing : α) (value? : Json → Option α) : Option Json → Option α
  | none => some missing
  | some j => value? j

end PointsTo.Json
