import Fabula.Json.Numeral

namespace Fabula.Json

/-!
# Reading typed values from documents

Each function reads a document as a value of some type and gives nothing when the
document has another shape.  A record is an object, with its fields in any order
and unknown fields ignored, or an array of its fields in order.
-/

/-- A reader of typed values. -/
abbrev Decoder (α : Type) := Node → Option α

namespace Decode

def bool : Decoder Bool
  | .bool b => some b
  | _ => none

def string : Decoder String
  | .text content => content
  | _ => none

def int : Decoder Int
  | .number numeral => numeral.toInt?
  | _ => none

/-- An integer between two bounds, both included. -/
def intWithin (low high : Int) : Decoder Int := fun node => do
  let i ← int node
  if low ≤ i ∧ i ≤ high then some i else none

def int32 : Decoder Int32 := fun node =>
  (intWithin (-2147483648) 2147483647 node).map Int32.ofInt

def uint32 : Decoder UInt32 := fun node =>
  (intWithin 0 4294967295 node).map (fun i => UInt32.ofNat i.toNat)

def uint64 : Decoder UInt64 := fun node =>
  (intWithin 0 18446744073709551615 node).map (fun i => UInt64.ofNat i.toNat)

def single : Decoder Single
  | .number numeral => numeral.toSingle?
  | _ => none

/-- An optional value, missing when the document is `null`. -/
def option {α : Type} (decode : Decoder α) : Decoder (Option α)
  | .null => some none
  | node => (decode node).map some

def list {α : Type} (decode : Decoder α) : Decoder (List α)
  | .array items => items.mapM decode
  | _ => none

def pair {α β : Type} (first : Decoder α) (second : Decoder β) : Decoder (α × β)
  | .array [a, b] => do
      let a ← first a
      let b ← second b
      pure (a, b)
  | _ => none

/-- The name of an alternative without content, alone or as a key with `null`. -/
def unitName : Decoder String
  | .text content => content
  | .object [(some key, .null)] => some key
  | _ => none

def unit {α : Type} (alternatives : List (String × α)) : Decoder α := fun node => do
  let name ← unitName node
  alternatives.lookup name

end Decode

/-- The fields of a record that are present. -/
structure Record where
  fields : List (String × Node)
  /-- Whether the record is written as an array. -/
  positional : Bool

namespace Record

/-- The well-formed keys of an object with their values. -/
def keyed : List (Option String × Node) → Option (List (String × Node))
  | [] => some []
  | (none, _) :: _ => none
  | (some key, value) :: rest => do
      let others ← keyed rest
      pure ((key, value) :: others)

/-- Whether no known key occurs twice. -/
def distinctKeys (names : List String) (fields : List (String × Node)) : Bool :=
  names.all (fun name => decide ((fields.filter (fun field => field.1 == name)).length ≤ 1))

/-- The fields of a record with the given names. -/
def ofNode? (names : List String) : Node → Option Record
  | .object fields => do
      let known ← keyed fields
      if distinctKeys names known then some ⟨known, false⟩ else none
  | .array items =>
      if items.length ≤ names.length then some ⟨names.zip items, true⟩ else none
  | _ => none

/-- A field that must be present. -/
def required {α : Type} (record : Record) (name : String) (decode : Decoder α) : Option α := do
  let node ← record.fields.lookup name
  decode node

/-- A field with an optional value; it may be missing unless the record is an array. -/
def optional {α : Type} (record : Record) (name : String) (decode : Decoder α) :
    Option (Option α) :=
  match record.fields.lookup name with
  | some node => Decode.option decode node
  | none => if record.positional then none else some none

/-- A field that takes a value of its own when it is missing. -/
def defaulted {α : Type} (record : Record) (name : String) (fallback : α) (decode : Decoder α) :
    Option α :=
  match record.fields.lookup name with
  | some node => decode node
  | none => some fallback

end Record

/-! ## Documents that are read before their type is known -/

/-- The deepest nesting of such documents. -/
def depthLimit : Nat := 128

/-- Whether a numeral is in the range of double-precision numbers. -/
def Numeral.isReadable (n : Numeral) : Bool :=
  n.toInt?.isSome || n.magnitude?.isSome

mutual

/-- Whether every part of a document can be read, within a limit on its nesting. -/
def Node.isReadable : Nat → Node → Bool
  | _, .null => true
  | _, .bool _ => true
  | _, .number n => n.isReadable
  | _, .text content => content.isSome
  | 0, .array _ => false
  | depth + 1, .array items => allReadable depth items
  | 0, .object _ => false
  | depth + 1, .object fields => allFieldsReadable depth fields

/-- Whether all items can be read. -/
def allReadable : Nat → List Node → Bool
  | _, [] => true
  | depth, item :: rest => item.isReadable depth && allReadable depth rest

/-- Whether all fields can be read. -/
def allFieldsReadable : Nat → List (Option String × Node) → Bool
  | _, [] => true
  | depth, (key, value) :: rest =>
      key.isSome && value.isReadable depth && allFieldsReadable depth rest

end

end Fabula.Json
