import SchemaGate.Json.Decode
import SchemaGate.Lock.Basic

/-!
# Reading lock files

Each part of a lock file is a record with known keys; unknown keys are ignored. `room` is how deeply
arrays and objects may still be nested where the part stands.
-/

namespace SchemaGate

open Json

/-- The value of the first member of a key, if it is the only one and an integer of 32 bits. -/
def memberInt32? (key : String) (members : List (Option String × Document)) : Option Int32 :=
  match members.filter fun member => member.1 = some key with
  | [(_, document)] => (decodeInt32 document).toOption
  | _ => none

/-- Reads a reserved id: a number, or an object with the two ends of a range. The value is read as a
whole before it is looked at. -/
def ReservedId.decode (room : Nat) (document : Document) : Except DecodeError ReservedId :=
  if document.isValue room then
    match document with
    | .num _ =>
        match (decodeInt32 document).toOption with
        | some number => .ok (.single number)
        | none => .error (.noAlternative "ReservedId")
    | .obj members _ =>
        match memberInt32? "start" members, memberInt32? "end" members with
        | some start, some stop => .ok (.range start stop)
        | _, _ => .error (.noAlternative "ReservedId")
    | _ => .error (.noAlternative "ReservedId")
  else .error .malformed

/-- A field that is replaced by the decoded value. -/
def RecordField.ofDecoder {α β : Type} (key : String) (required : Bool) (decode : Decoder β)
    (set : α → β → α) : RecordField α :=
  ⟨key, required, fun record document => (decode document).map (set record)⟩

open RecordField (ofDecoder)

/-- The fields of a field. -/
def LockField.record : Record LockField where
  title := "struct LockField"
  blank := ⟨0, "", "", false, none⟩
  fields :=
    [ofDecoder "id" true decodeInt64 fun field id => { field with id },
     ofDecoder "name" true decodeString fun field name => { field with name },
     ofDecoder "type" true decodeString fun field typeName => { field with typeName },
     ofDecoder "is_repeated" false decodeBool fun field isRepeated => { field with isRepeated },
     ofDecoder "oneof_parent" false (decodeOption decodeString) fun field oneofParent =>
      { field with oneofParent }]

/-- The fields of a map field. -/
def LockMap.record (room : Nat) : Record LockMap where
  title := "struct LockMap"
  blank := ⟨"", ⟨0, "", "", false, none⟩⟩
  fields :=
    [ofDecoder "key_type" true decodeString fun map keyType => { map with keyType },
     ofDecoder "field" true (LockField.record.decode room) fun map field => { map with field }]

/-- The fields of an enum constant. -/
def LockEnumField.record : Record LockEnumField where
  title := "struct LockEnumField"
  blank := ⟨"", 0⟩
  fields :=
    [ofDecoder "name" true decodeString fun constant name => { constant with name },
     ofDecoder "integer" false decodeInt32 fun constant integer => { constant with integer }]

/-- The fields of an enum. -/
def LockEnum.record (room : Nat) : Record LockEnum where
  title := "struct LockEnum"
  blank := ⟨"", [], [], [], false⟩
  fields :=
    [ofDecoder "name" true decodeString fun enumType name => { enumType with name },
     ofDecoder "enum_fields" false
      (decodeList room (LockEnumField.record.decode (room - 1))) fun enumType enumFields =>
        { enumType with enumFields },
     ofDecoder "reserved_ids" false (decodeList room (ReservedId.decode (room - 1)))
      fun enumType reservedIds => { enumType with reservedIds },
     ofDecoder "reserved_names" false (decodeList room decodeString) fun enumType reservedNames =>
      { enumType with reservedNames },
     ofDecoder "allow_alias" false decodeBool fun enumType allowAlias =>
      { enumType with allowAlias }]

/-- Reads an enum. -/
def LockEnum.decode (room : Nat) : Decoder LockEnum :=
  (LockEnum.record (room - 1)).decode room

/-- The fields of a message; `nested` reads a message inside it. -/
def LockMessage.record (room : Nat) (nested : Decoder LockMessage) : Record LockMessage where
  title := "struct LockMessage"
  blank := ⟨"", [], [], [], [], [], []⟩
  fields :=
    [ofDecoder "name" true decodeString fun message name => { message with name },
     ofDecoder "fields" false (decodeList room (LockField.record.decode (room - 1)))
      fun message fields => { message with fields },
     ofDecoder "maps" false (decodeList room ((LockMap.record (room - 2)).decode (room - 1)))
      fun message maps => { message with maps },
     ofDecoder "reserved_ids" false (decodeList room (ReservedId.decode (room - 1)))
      fun message reservedIds => { message with reservedIds },
     ofDecoder "reserved_names" false (decodeList room decodeString) fun message reservedNames =>
      { message with reservedNames },
     ofDecoder "messages" false (decodeList room nested) fun message messages =>
      { message with messages },
     ofDecoder "enums" false (decodeList room (LockEnum.decode (room - 1)))
      fun message enums => { message with enums }]

/-- Reads a message. A message inside another one is two levels deeper, an object in an array. -/
def LockMessage.decode : Nat → Decoder LockMessage
  | 0 => (LockMessage.record 0 fun _ => .error .malformed).decode 0
  | 1 => (LockMessage.record 0 fun _ => .error .malformed).decode 1
  | room + 2 => (LockMessage.record (room + 1) (LockMessage.decode room)).decode (room + 2)

/-- The fields of a package. -/
def LockPackage.record : Record LockPackage where
  title := "struct LockPackage"
  blank := ⟨""⟩
  fields := [ofDecoder "name" true decodeString fun _ name => ⟨name⟩]

/-- The fields of the contents of a file. -/
def LockEntry.record (room : Nat) : Record LockEntry where
  title := "struct LockEntry"
  blank := ⟨none, [], []⟩
  fields :=
    [ofDecoder "package" false (decodeOption (LockPackage.record.decode room))
      fun entry package => { entry with package },
     ofDecoder "messages" false (decodeList room (LockMessage.decode (room - 1)))
      fun entry messages => { entry with messages },
     ofDecoder "enums" false (decodeList room (LockEnum.decode (room - 1)))
      fun entry enums => { entry with enums }]

/-- The fields of a file. -/
def LockDefinition.record (room : Nat) : Record LockDefinition where
  title := "struct LockDefinition"
  blank := ⟨"", {}⟩
  fields :=
    [ofDecoder "protopath" true decodeString fun definition protopath =>
      { definition with protopath },
     ofDecoder "def" true ((LockEntry.record (room - 1)).decode room) fun definition entry =>
      { definition with entry }]

/-- The fields of a lock file. -/
def LockFile.record (room : Nat) : Record LockFile where
  title := "struct LockFile"
  blank := ⟨[]⟩
  fields :=
    [ofDecoder "definitions" false
      (decodeList room ((LockDefinition.record (room - 2)).decode (room - 1)))
      fun _ definitions => ⟨definitions⟩]

/-- Reads the text of a lock file. -/
def LockFile.ofText (text : String) : Except DecodeError LockFile :=
  decodeText ((LockFile.record (maxDepth - 1)).decode maxDepth) text

end SchemaGate
