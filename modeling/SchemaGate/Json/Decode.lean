import SchemaGate.Json.Document
import SchemaGate.Text.Quoted

/-!
# Values from JSON documents

Decoders turn documents into values and report the first fault in the order of the text. Arrays and
objects may be nested only as deeply as there is `room`; values that nobody reads are not limited. A
record is an object with known keys, or an array of the same fields in order. The main statement is
`Record.decode_noRoom`: without room no record is read.
-/

namespace SchemaGate.Json

/-- Why a text is not the value that was asked for. -/
inductive DecodeError where
  /-- The text is not JSON, is nested too deeply, or has a list of fields of the wrong length. -/
  | malformed
  /-- The value is of another type. -/
  | wrongType (found expected : String)
  /-- The integer is out of range. -/
  | outOfRange (value : Int) (expected : String)
  /-- A key that must be there is missing. -/
  | missingField (key : String)
  /-- A known key is there twice. -/
  | duplicateField (key : String)
  /-- The value is none of the alternatives. -/
  | noAlternative (type : String)
  deriving DecidableEq, Repr

/-- The error in words. -/
def DecodeError.message : DecodeError → String
  | malformed => "<json syntax error>"
  | wrongType found expected => "invalid type: " ++ found ++ ", expected " ++ expected
  | outOfRange value expected =>
      "invalid value: integer `" ++ toString value ++ "`, expected " ++ expected
  | missingField key => "missing field `" ++ key ++ "`"
  | duplicateField key => "duplicate field `" ++ key ++ "`"
  | noAlternative type => "data did not match any variant of untagged enum " ++ type

/-- Reads a value from a document. -/
abbrev Decoder (α : Type) := Document → Except DecodeError α

/-- How many arrays and objects may be nested inside one another. -/
def maxDepth : Nat := 127

/-- The error on a document that is of the wrong type, or no value at all. -/
def mismatch (expected : String) : Document → DecodeError
  | .null => .wrongType "null" expected
  | .bool true => .wrongType "boolean `true`" expected
  | .bool false => .wrongType "boolean `false`" expected
  | .num (.integer value) => .wrongType ("integer `" ++ toString value ++ "`") expected
  | .num .floating => .wrongType "floating point" expected
  | .num .tooLarge => .malformed
  | .str (some text) => .wrongType ("string " ++ Text.quoted text) expected
  | .str none => .malformed
  | .arr _ _ => .wrongType "sequence" expected
  | .obj _ _ => .wrongType "map" expected
  | .broken => .malformed

/-- Reads a string. -/
def decodeString : Decoder String
  | .str (some text) => .ok text
  | document => .error (mismatch "a string" document)

/-- Reads a truth value. -/
def decodeBool : Decoder Bool
  | .bool value => .ok value
  | document => .error (mismatch "a boolean" document)

/-- Reads an integer between two bounds. -/
def decodeInteger (lowest highest : Int) (type : String) : Decoder Int
  | .num (.integer value) =>
      if lowest ≤ value ∧ value ≤ highest then .ok value else .error (.outOfRange value type)
  | document => .error (mismatch type document)

/-- Reads an integer of 64 bits. -/
def decodeInt64 (document : Document) : Except DecodeError Int64 :=
  (decodeInteger Int64.minValue.toInt Int64.maxValue.toInt "i64" document).map Int64.ofInt

/-- Reads an integer of 32 bits. -/
def decodeInt32 (document : Document) : Except DecodeError Int32 :=
  (decodeInteger Int32.minValue.toInt Int32.maxValue.toInt "i32" document).map Int32.ofInt

/-- Reads null or a value. -/
def decodeOption {α : Type} (decode : Decoder α) : Decoder (Option α)
  | .null => .ok none
  | document => (decode document).map some

/-- Reads an array whose items have the given decoder. -/
def decodeList {α : Type} (room : Nat) (decode : Decoder α) : Decoder (List α)
  | .arr items closed =>
      if room = 0 then .error .malformed
      else do
        let values ← items.mapM decode
        if closed then .ok values else .error .malformed
  | document => .error (mismatch "a sequence" document)

namespace Document

mutual

/-- Whether a document can be kept as a value: it has no break, no unpaired surrogate and no number
beyond all doubles, and is not nested too deeply. -/
def isValue (room : Nat) : Document → Bool
  | null | bool _ => true
  | num number => number ≠ .tooLarge
  | str text => text.isSome
  | arr items closed => room ≠ 0 && closed && areValues (room - 1) items
  | obj members closed => room ≠ 0 && closed && areMembers (room - 1) members
  | broken => false

/-- Whether several documents can be kept as values. -/
def areValues (room : Nat) : List Document → Bool
  | [] => true
  | item :: items => item.isValue room && areValues room items

/-- Whether several members can be kept with their keys and values. -/
def areMembers (room : Nat) : List (Option String × Document) → Bool
  | [] => true
  | (key, value) :: members => key.isSome && value.isValue room && areMembers room members

end

end Document

/-- A field of a record: its key, whether it must be there, and how its value is put into the
record. -/
structure RecordField (α : Type) where
  key : String
  required : Bool
  put : α → Document → Except DecodeError α

/-- A record: what it is called, the value it starts from, and its fields in order. -/
structure Record (α : Type) where
  title : String
  blank : α
  fields : List (RecordField α)

namespace Record

variable {α : Type}

/-- The keys of the fields in order. -/
def keys (record : Record α) : List String :=
  record.fields.map (·.key)

/-- The first key that must be there and was not seen. -/
def missing? (record : Record α) (seen : List String) : Option String :=
  (record.fields.find? fun field => field.required && !seen.contains field.key).map (·.key)

/-- Reads the members of an object; `seen` are the known keys met before. Values of unknown keys are
skipped. Returns the keys seen and the record. -/
def decodeMembers (record : Record α) (seen : List String) (value : α) :
    List (Option String × Document) → Except DecodeError (List String × α)
  | [] => .ok (seen, value)
  | (none, _) :: _ => .error .malformed
  | (some key, document) :: members =>
      match record.fields.find? fun field => field.key = key with
      | none =>
          if document.isWhole then decodeMembers record seen value members else .error .malformed
      | some field =>
          if seen.contains key then .error (.duplicateField key)
          else do
            let value ← field.put value document
            decodeMembers record (key :: seen) value members

/-- Reads the items of an array as fields in order. Returns the keys seen and the record. -/
def decodeItems (value : α) :
    List (RecordField α) → List Document → Except DecodeError (List String × α)
  | _, [] => .ok ([], value)
  | [], _ :: _ => .error .malformed
  | field :: fields, document :: documents => do
      let value ← field.put value document
      let (seen, value) ← decodeItems value fields documents
      .ok (field.key :: seen, value)

/-- Reads a record from an object or an array. -/
def decode (room : Nat) (record : Record α) : Decoder α
  | .obj members closed =>
      if room = 0 then .error .malformed
      else do
        let (seen, value) ← record.decodeMembers [] record.blank members
        if closed then
          match record.missing? seen with
          | some key => .error (.missingField key)
          | none => .ok value
        else .error .malformed
  | .arr items closed =>
      if room = 0 then .error .malformed
      else do
        let (seen, value) ← decodeItems record.blank record.fields items
        if closed ∧ (record.missing? seen).isNone then .ok value else .error .malformed
  | document => .error (mismatch record.title document)

/-- Without room no record is read. -/
theorem decode_noRoom (record : Record α) (document : Document) (value : α) :
    record.decode 0 document ≠ .ok value := by
  cases document <;> simp [decode]

end Record

/-- Reads a text that is one value. -/
def decodeText {α : Type} (decode : Decoder α) (text : String) : Except DecodeError α := do
  let (document, complete) := Document.read text.toList
  let value ← decode document
  if complete then .ok value else .error .malformed

end SchemaGate.Json
