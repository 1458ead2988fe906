import SchemaGate.Lock.Basic
import SchemaGate.Lock.Path
import SchemaGate.Schema.Basic
import SchemaGate.Text.Blank

/-!
# Schemas and lock files

`LockFile.ofTree` takes a snapshot of a schema and `LockFile.toTree` makes a schema of a lock file.
A snapshot keeps names, numbers, reservations and nesting, but lists map fields after the plain
ones. The way back fails only if an id is no field number at all. The main statement is
`tagOfId?_idOfTag`: the tag of every field survives.
-/

namespace SchemaGate

/-- A field of a lock file has an id that is no tag. -/
structure FieldIdError where
  field : String
  message : String
  id : Int64
  deriving DecidableEq, Repr

/-- The error in words. -/
def FieldIdError.text (error : FieldIdError) : String :=
  "field '" ++ error.field ++ "' in message '" ++ error.message ++ "' has invalid id " ++
    toString error.id.toInt

/-- The tag of an id. -/
def tagOfId? (id : Int64) : Option UInt32 :=
  if 0 ≤ id.toInt ∧ id.toInt < 0x100000000 then some (UInt32.ofNat id.toInt.toNat) else none

/-- The id of a tag. -/
def idOfTag (tag : UInt32) : Int64 :=
  Int64.ofNat tag.toNat

/-- Every tag is the tag of its id. -/
@[simp] theorem tagOfId?_idOfTag (tag : UInt32) : tagOfId? (idOfTag tag) = some tag := by
  have hbound : tag.toNat < 0x100000000 := tag.toNat_lt
  have hid : (idOfTag tag).toInt = tag.toNat := by
    unfold idOfTag
    rw [Int64.toInt_ofNat_of_lt (by omega)]
  simp only [tagOfId?, hid]
  rw [if_pos (by omega)]
  simp

/-- The text of a map type. -/
def mapTypeText (key value : String) : String :=
  "map<" ++ key ++ ", " ++ value ++ ">"

namespace LockField

/-- The field of a message. An empty oneof name counts as none. -/
def toField (message : String) (field : LockField) : Except FieldIdError Field :=
  match tagOfId? field.id with
  | some tag =>
      .ok
        { name := field.name
          tag
          typeName := field.typeName
          repeated := field.isRepeated
          oneof := field.oneofParent.filter fun parent => parent ≠ "" }
  | none => .error ⟨field.name, message, field.id⟩

/-- A field as a lock file lists it. -/
def ofField (field : Field) : LockField :=
  ⟨idOfTag field.tag, field.name, field.typeName, field.repeated, field.oneof⟩

end LockField

namespace LockMap

/-- The field of a message, with the text of the map type as its type. -/
def toField (message : String) (map : LockMap) : Except FieldIdError Field := do
  let field ← map.field.toField message
  pure { field with typeName := mapTypeText map.keyType field.typeName }

/-- A text without any number of beginnings `map<`. -/
def dropOpenings : List Char → List Char
  | 'm' :: 'a' :: 'p' :: '<' :: rest => dropOpenings rest
  | text => text

/-- A text without the closing brackets at its end. -/
def dropClosings (text : List Char) : List Char :=
  (text.reverse.dropWhile fun c => c = '>').reverse

/-- The key and value types of the text of a map type. Without a comma all of it is the value. -/
def splitType (typeName : String) : String × String :=
  let inner := dropClosings (dropOpenings typeName.toList)
  match Text.cutFirst? ',' inner with
  | some (key, value) => (String.ofList (Text.trim key), String.ofList (Text.trim value))
  | none => ("", String.ofList (Text.trim inner))

/-- Whether a type is listed as a map type. -/
def isMapType (typeName : String) : Bool :=
  Text.startsWith "map<".toList typeName.toList

/-- A field with a map type as a lock file lists it. -/
def ofField (field : Field) : LockMap :=
  let (key, value) := splitType field.typeName
  ⟨key, { LockField.ofField field with typeName := value }⟩

end LockMap

namespace LockEnum

/-- The enum of a schema. -/
def toEnum (enumType : LockEnum) : EnumType :=
  { name := enumType.name
    constants := enumType.enumFields.map fun constant => ⟨constant.name, constant.integer⟩
    allowAlias := enumType.allowAlias
    reserved := ⟨enumType.reservedIds.map ReservedId.toRange, enumType.reservedNames⟩ }

/-- An enum as a lock file lists it. -/
def ofEnum (enumType : EnumType) : LockEnum :=
  { name := enumType.name
    enumFields := enumType.constants.map fun constant => ⟨constant.name, constant.value⟩
    reservedIds := enumType.reserved.ranges.map ReservedId.ofRange
    reservedNames := enumType.reserved.names
    allowAlias := enumType.allowAlias }

end LockEnum

namespace LockMessage

mutual

/-- The message of a schema. Plain fields come before map fields, and the oneof groups are those the
fields name. -/
def toMessage : LockMessage → Except FieldIdError MessageType
  | ⟨name, fields, maps, reservedIds, reservedNames, messages, enums⟩ => do
      let plain ← fields.mapM (LockField.toField name)
      let mapped ← maps.mapM (LockMap.toField name)
      let messages ← toMessages messages
      pure
        (MessageType.addFields
          { name
            messages
            enums := enums.map LockEnum.toEnum
            reserved := ⟨reservedIds.map ReservedId.toRange, reservedNames⟩ }
          (plain ++ mapped))

/-- Several messages of a schema. -/
def toMessages : List LockMessage → Except FieldIdError (List MessageType)
  | [] => pure []
  | message :: messages => do
      let first ← message.toMessage
      let others ← toMessages messages
      pure (first :: others)

end

mutual

/-- A message as a lock file lists it, with the fields of map types in a list of their own. -/
def ofMessage : MessageType → LockMessage
  | ⟨name, fields, _, messages, enums, reserved⟩ =>
      { name
        fields := (fields.filter fun field => !LockMap.isMapType field.typeName).map
          LockField.ofField
        maps := (fields.filter fun field => LockMap.isMapType field.typeName).map LockMap.ofField
        reservedIds := reserved.ranges.map ReservedId.ofRange
        reservedNames := reserved.names
        messages := allOfMessages messages
        enums := enums.map LockEnum.ofEnum }

/-- Several messages as a lock file lists them. -/
def allOfMessages : List MessageType → List LockMessage
  | [] => []
  | message :: messages => ofMessage message :: allOfMessages messages

end

/-- Several messages are listed one by one. -/
theorem allOfMessages_eq_map (messages : List MessageType) :
    allOfMessages messages = messages.map ofMessage := by
  induction messages with
  | nil => rfl
  | cons message messages ih => simp [allOfMessages, ih]

end LockMessage

namespace LockDefinition

/-- The schema file of a definition. -/
def toFile (definition : LockDefinition) : Except FieldIdError SchemaFile := do
  let package := (definition.entry.package.map (·.name)).getD ""
  let messages ← LockMessage.toMessages definition.entry.messages
  pure
    { SchemaFile.inPackage (Protopath.normalize definition.protopath) package with
      messages
      enums := definition.entry.enums.map LockEnum.toEnum }

/-- A schema file as a lock file lists it. The root package is left out. -/
def ofFile (file : SchemaFile) : LockDefinition :=
  { protopath := Protopath.ofPath file.path
    entry :=
      { package := if file.package.isEmpty then none else some ⟨file.packageName⟩
        messages := LockMessage.allOfMessages file.messages
        enums := file.enums.map LockEnum.ofEnum } }

end LockDefinition

namespace LockFile

/-- The schema of a lock file, or the first field whose id is no tag. -/
def toTree (lock : LockFile) : Except FieldIdError SchemaTree := do
  let files ← lock.definitions.mapM LockDefinition.toFile
  pure ⟨files⟩

/-- The snapshot of a schema. -/
def ofTree (tree : SchemaTree) : LockFile :=
  ⟨tree.files.map LockDefinition.ofFile⟩

end LockFile

end SchemaGate
