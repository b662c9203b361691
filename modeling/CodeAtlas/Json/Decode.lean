import CodeAtlas.Json.Problem
import CodeAtlas.Json.Reading

/-!
# Data from JSON

Decoders for the kinds of data that documents hold. Each looks at its part of a text from left to
right and stops at the first problem, so of two problems the one that comes first in the text is
reported. A record may be given as an object, whose unknown members are passed over, or as an
array of its fields in their order.

## Main definitions

* `Decode`: a decoder.
* `Decode.text`, `flag`, `word`, `list`, `variant`: the kinds of data without fields.
* `Fields`, `Decode.record`: records.
* `Decode.run`: decode a whole text.
-/
namespace CodeAtlas.Json

/-- A decoder of one value. -/
abbrev Decode (α : Type) := Reading → Except Problem α

/-- What a value is, for a message; a value that cannot be read to its end is malformed. -/
def Reading.found : Reading → Except Problem Found
  | .null => .ok .null
  | .bool b => .ok (.bool b)
  | .number n =>
    match n.quantity? with
    | some (.natural k) => .ok (.integer k)
    | some (.negative k) => .ok (.integer (-k))
    | some (.float x) => .ok (.float (floatText x))
    | none => .error .malformed
  | .string (some s) => .ok (.text s)
  | .string none => .error .malformed
  | .array _ _ => .ok .array
  | .object _ _ => .ok .object
  | .cut => .error .malformed

/-- A value of another type than the expected one. -/
def Reading.refuse (r : Reading) (expected : String) : Except Problem α :=
  r.found >>= fun found => .error (.wrongType found expected)

namespace Decode

/-- A string. -/
def text : Decode String
  | .string (some s) => .ok s
  | r => r.refuse "a string"

/-- A string, or null for none. -/
def textOrNull : Decode (Option String)
  | .null => .ok none
  | r => (text r).map some

/-- A boolean. -/
def flag : Decode Bool
  | .bool b => .ok b
  | r => r.refuse "a boolean"

/-- A whole number of 32 bits. -/
def word : Decode UInt32
  | .number n =>
    match n.quantity? with
    | some (.natural k) =>
      if k < UInt32.size then .ok (.ofNat k) else .error (.outOfRange k "u32")
    | some (.negative k) => .error (.outOfRange (-k) "u32")
    | _ => (Reading.number n).refuse "u32"
  | r => r.refuse "u32"

/-- The items of an array, each by the same decoder. -/
def list (item : Decode α) : Decode (List α)
  | .array items closed => do
    let values ← items.mapM item
    if closed then .ok values else .error .malformed
  | r => r.refuse "a sequence"

/-- One of several names, alone or as the key of an object whose value is null. -/
def variant (names : List (String × α)) : Decode α
  | .string (some s) => find s
  | .object ((some key, value) :: more) closed => do
    let found ← find key
    match value with
    | .null => if more.isEmpty && closed then .ok found else .error .malformed
    | r => r.refuse "unit"
  | _ => .error .malformed
where
  /-- The variant of a name. -/
  find (s : String) : Except Problem α :=
    match names.lookup s with
    | some a => .ok a
    | none => .error (.unknownVariant s (names.map (·.1)))

end Decode

/-! ## Records -/

/-- The fields of a record in their order, with the types of their values. A field that may be left
out has a value for that case. -/
inductive Fields : List Type → Type 1 where
  | nil : Fields []
  | required {α : Type} {ts : List Type} (name : String) (decode : Decode α) (rest : Fields ts) :
    Fields (α :: ts)
  | optional {α : Type} {ts : List Type} (name : String) (absent : α) (decode : Decode α)
    (rest : Fields ts) : Fields (α :: ts)

/-- The values of all fields of a record. -/
def Values : List Type → Type
  | [] => Unit
  | t :: ts => t × Values ts

/-- The values of the fields that have been met so far. -/
def Draft : List Type → Type
  | [] => Unit
  | t :: ts => Option t × Draft ts

/-- No field has been met. -/
def Draft.empty : (ts : List Type) → Draft ts
  | [] => ()
  | _ :: ts => (none, Draft.empty ts)

namespace Fields

/-- The number of fields. -/
def count : Fields ts → Nat
  | nil => 0
  | required _ _ rest => rest.count + 1
  | optional _ _ _ rest => rest.count + 1

/-- Decode a value into an empty slot; a slot that is taken already is a duplicate. -/
def fill (name : String) (decode : Decode α) (value : Reading) :
    Option α → Except Problem (Option α)
  | some _ => .error (.duplicateField name)
  | none => (decode value).map some

/-- Put a member into the slot of its name. A name that is no field is passed over. -/
def place : Fields ts → String → Reading → Draft ts → Except Problem (Draft ts)
  | nil, _, _, draft => .ok draft
  | required name decode rest, key, value, (slot, draft) =>
    if key = name then (fill name decode value slot).map (·, draft)
    else (rest.place key value draft).map (slot, ·)
  | optional name _ decode rest, key, value, (slot, draft) =>
    if key = name then (fill name decode value slot).map (·, draft)
    else (rest.place key value draft).map (slot, ·)

/-- The values of a record once all members have been met. -/
def complete : Fields ts → Draft ts → Except Problem (Values ts)
  | nil, _ => .ok ()
  | required name _ rest, (slot, draft) =>
    match slot with
    | some a => (rest.complete draft).map (a, ·)
    | none => .error (.missingField name)
  | optional _ absent _ rest, (slot, draft) =>
    (rest.complete draft).map (slot.getD absent, ·)

/-- The values of a record that is given by the members of an object. -/
def ofMembers (fields : Fields ts) : List (Option String × Reading) → Bool → Draft ts →
    Except Problem (Values ts)
  | [], closed, draft => if closed then fields.complete draft else .error .malformed
  | (none, _) :: _, _, _ => .error .malformed
  | (some key, value) :: members, closed, draft =>
    fields.place key value draft >>= fields.ofMembers members closed

/-- The values of a record that is given by the items of an array. Fields at the end may be left
out if they may be left out at all; `position` is the number of fields before these. -/
def ofItems (closed : Bool) (tooShort : Nat → Problem) : (position : Nat) → Fields ts →
    List Reading → Except Problem (Values ts)
  | _, nil, items => if items.isEmpty && closed then .ok () else .error .malformed
  | position, required _ decode rest, item :: items => do
    let a ← decode item
    (rest.ofItems closed tooShort (position + 1) items).map (a, ·)
  | position, optional _ _ decode rest, item :: items => do
    let a ← decode item
    (rest.ofItems closed tooShort (position + 1) items).map (a, ·)
  | position, required _ _ _, [] =>
    .error (if closed then tooShort position else .malformed)
  | position, optional _ absent _ rest, [] =>
    if closed then (rest.ofItems closed tooShort (position + 1) []).map (absent, ·)
    else .error .malformed

end Fields

namespace Decode

/-- A record of a kind that is called `name` in messages. -/
def record (name : String) (fields : Fields ts) : Decode (Values ts)
  | .object members closed => fields.ofMembers members closed (.empty ts)
  | .array items closed =>
    let elements := if fields.count = 1 then " element" else " elements"
    let tooShort := fun n =>
      Problem.wrongLength n (name ++ " with " ++ toString fields.count ++ elements)
    fields.ofItems closed tooShort 0 items
  | r => r.refuse name

/-- Decode a whole text, after which nothing but space may follow. -/
def run (decode : Decode α) (text : String) : Except Problem α := do
  let document := Document.read text
  let a ← decode document.value
  if document.ended then .ok a else .error .malformed

end Decode
end CodeAtlas.Json
