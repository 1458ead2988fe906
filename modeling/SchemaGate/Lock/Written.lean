import SchemaGate.Json.Pretty
import SchemaGate.Lock.Basic

/-!
# Lock files as JSON

`LockFile.toJson` writes a lock file. Keys come in a fixed order, and most keys are left out when
their value is empty or false. The main statement is `LockMessage.allToJson_eq_map`, which reads the
conversion of a list of messages element by element.
-/

namespace SchemaGate

open Json (Value memberIf memberIfAny)

/-- A reserved id as JSON: a number, or an object with the two ends. -/
def ReservedId.toJson : ReservedId → Value
  | single number => .int number.toInt
  | range start stop => .obj [("start", .int start.toInt), ("end", .int stop.toInt)]

/-- The member of a flag, which is left out when the flag is not set. -/
def flagMember (key : String) (flag : Bool) : List (String × Value) :=
  if flag then [(key, .bool true)] else []

/-- A field as JSON. -/
def LockField.toJson (field : LockField) : Value :=
  .obj ([("id", .int field.id.toInt), ("name", .str field.name), ("type", .str field.typeName)] ++
    flagMember "is_repeated" field.isRepeated ++
    memberIf "oneof_parent" .str field.oneofParent)

/-- A map field as JSON. -/
def LockMap.toJson (map : LockMap) : Value :=
  .obj [("key_type", .str map.keyType), ("field", map.field.toJson)]

/-- An enum constant as JSON. -/
def LockEnumField.toJson (constant : LockEnumField) : Value :=
  .obj [("name", .str constant.name), ("integer", .int constant.integer.toInt)]

/-- An enum as JSON. -/
def LockEnum.toJson (enumType : LockEnum) : Value :=
  .obj ([("name", .str enumType.name),
      ("enum_fields", .arr (enumType.enumFields.map LockEnumField.toJson))] ++
    memberIfAny "reserved_ids" ReservedId.toJson enumType.reservedIds ++
    memberIfAny "reserved_names" .str enumType.reservedNames ++
    flagMember "allow_alias" enumType.allowAlias)

/-- The member of a key for a list of values that is not empty. -/
def valuesMember (key : String) : List Value → List (String × Value)
  | [] => []
  | values => [(key, .arr values)]

namespace LockMessage

mutual

/-- A message as JSON. -/
def toJson : LockMessage → Value
  | ⟨name, fields, maps, reservedIds, reservedNames, messages, enums⟩ =>
      .obj ([("name", .str name), ("fields", .arr (fields.map LockField.toJson))] ++
        memberIfAny "maps" LockMap.toJson maps ++
        memberIfAny "reserved_ids" ReservedId.toJson reservedIds ++
        memberIfAny "reserved_names" .str reservedNames ++
        valuesMember "messages" (allToJson messages) ++
        memberIfAny "enums" LockEnum.toJson enums)

/-- Several messages as JSON. -/
def allToJson : List LockMessage → List Value
  | [] => []
  | message :: messages => message.toJson :: allToJson messages

end

/-- Several messages are converted one by one. -/
theorem allToJson_eq_map (messages : List LockMessage) :
    allToJson messages = messages.map toJson := by
  induction messages with
  | nil => rfl
  | cons message messages ih => simp [allToJson, ih]

end LockMessage

/-- A package as JSON. -/
def LockPackage.toJson (package : LockPackage) : Value :=
  .obj [("name", .str package.name)]

/-- The contents of a file as JSON. -/
def LockEntry.toJson (entry : LockEntry) : Value :=
  .obj (memberIf "package" LockPackage.toJson entry.package ++
    [("messages", .arr (LockMessage.allToJson entry.messages)),
     ("enums", .arr (entry.enums.map LockEnum.toJson))])

/-- A file as JSON. -/
def LockDefinition.toJson (definition : LockDefinition) : Value :=
  .obj [("protopath", .str definition.protopath), ("def", definition.entry.toJson)]

/-- A lock file as JSON. -/
def LockFile.toJson (lock : LockFile) : Value :=
  .obj [("definitions", .arr (lock.definitions.map LockDefinition.toJson))]

/-- The text of a lock file. -/
def LockFile.text (lock : LockFile) : String :=
  lock.toJson.pretty

end SchemaGate
