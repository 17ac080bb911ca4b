import ResourceAccess.Json.Basic
import ResourceAccess.Text.Quoted
import ResourceAccess.Error

/-!
# Reading records from JSON

A record is written as an object, whose unknown fields are skipped, or as an array with the fields in their order.
`Shape.read` puts the given values into the slots of a record one by one, the fields of an object by name; the first
bad value is reported. What a missing field means is for the record to say.
-/

namespace ResourceAccess

inductive PayloadError where
  | invalidType (found : Json) (expected : String)
  | invalidLength (length : Nat) (expected : String)
  | missingField (name : String)
  | unknownKind (name : String)
  | notSingleKey

namespace PayloadError

/-- How a message names a value that does not fit. -/
def naming : Json → String
  | .null => "null"
  | .bool b => "boolean `" ++ toString b ++ "`"
  | .number (.integer n) => "integer `" ++ toString n ++ "`"
  | .number n => "floating point `" ++ n.text ++ "`"
  | .string s => "string " ++ Text.quoted s
  | .array _ => "sequence"
  | .object _ => "map"

def message : PayloadError → String
  | .invalidType found expected => "invalid type: " ++ naming found ++ ", expected " ++ expected
  | .invalidLength length expected => "invalid length " ++ toString length ++ ", expected " ++ expected
  | .missingField name => "missing field `" ++ name ++ "`"
  | .unknownKind name => "unknown variant `" ++ name ++ "`, expected `user` or `group`"
  | .notSingleKey => "invalid value: map, expected map with a single key"

end PayloadError

abbrev Decoded (α : Type) := Except PayloadError α

namespace Payload

/-! ## Single values -/

def text : Json → Decoded String
  | .string s => .ok s
  | j => .error (.invalidType j "a string")

def flag : Json → Decoded Bool
  | .bool b => .ok b
  | j => .error (.invalidType j "a boolean")

/-- A value that may be left empty by a null. -/
def optional {α : Type} (decode : Json → Decoded α) : Json → Decoded (Option α)
  | .null => .ok none
  | j => (decode j).map some

/-- The kind is written as its word, or as an object with the word for its only key and nothing under it. -/
def kindNamed (name : String) : Decoded SubjectKind :=
  match SubjectKind.ofText name with
  | .ok kind => .ok kind
  | .error _ => .error (.unknownKind name)

def kind : Json → Decoded SubjectKind
  | .string s => kindNamed s
  | .object [(name, content)] =>
    match kindNamed name, content with
    | .error e, _ => .error e
    | .ok kind, .null => .ok kind
    | .ok _, content => .error (.invalidType content "unit")
  | .object _ => .error .notSingleKey
  | j => .error (.invalidType j "string or map")

def list {α : Type} (decode : Json → Decoded α) : Json → Decoded (List α)
  | .array items => items.mapM decode
  | j => .error (.invalidType j "a sequence")

/-! ## Records -/

/-- How a record is written. -/
inductive Form where
  | object
  | array
deriving DecidableEq

/-- A record as it is being read: its name in messages, its fields in order, and how a value is put into its slot. -/
structure Shape (α : Type) where
  name : String
  fields : List String
  blank : α
  put : String → Json → α → Decoded α

namespace Shape

variable {α : Type}

/-- What is reported for a field that is not there. -/
def missing (shape : Shape α) (form : Form) (field : String) : PayloadError :=
  match form with
  | .object => .missingField field
  | .array =>
    .invalidLength (shape.fields.idxOf field)
      ("struct " ++ shape.name ++ " with " ++ toString shape.fields.length ++ " elements")

/-- A slot that must be filled. -/
def required {β : Type} (shape : Shape α) (form : Form) (field : String) : Option β → Decoded β
  | some b => .ok b
  | none => .error (shape.missing form field)

def putAll (shape : Shape α) (values : List (String × Json)) : Decoded α :=
  values.foldlM (fun slots field => shape.put field.1 field.2 slots) shape.blank

/-- Reads the slots, and then makes the record of them. -/
def read {β : Type} (shape : Shape α) (finish : Form → α → Decoded β) (j : Json) : Decoded β :=
  match j with
  | .object fields => do
    let slots ← shape.putAll (fields.filter (shape.fields.contains ·.1))
    finish .object slots
  | .array items => do
    let slots ← shape.putAll (shape.fields.zip items)
    let record ← finish .array slots
    if shape.fields.length < items.length then
      throw (.invalidLength items.length "fewer elements in array")
    return record
  | j => .error (.invalidType j ("struct " ++ shape.name))

end Shape

end Payload

end ResourceAccess
