import SchemaGate.Schema.Reserved
import SchemaGate.Text.Split

/-!
# Schemas

A schema tree is a list of files, each with a package and with the messages and enums it declares;
messages hold fields and further messages and enums. A schema is built once by a reader and never
changed afterwards. The main statement is `MessageType.oneofs_addField`, which says how adding a
field registers it in its oneof group.
-/

namespace SchemaGate

/-- A field of a message. The type is a reference that only the load-time checks resolve. -/
structure Field where
  name : String
  tag : UInt32
  typeName : String
  repeated : Bool := false
  oneof : Option String := none
  deriving DecidableEq, Repr, Inhabited

/-- A named group of mutually exclusive fields, given by the fields' names. -/
structure OneofGroup where
  name : String
  members : List String
  deriving DecidableEq, Repr, Inhabited

/-- A constant of an enum. -/
structure EnumConstant where
  name : String
  value : Int32
  deriving DecidableEq, Repr, Inhabited

/-- An enum with its constants in declaration order. Two constants may share a value only if
aliases are allowed. -/
structure EnumType where
  name : String
  constants : List EnumConstant := []
  allowAlias : Bool := false
  reserved : Reservations := {}
  deriving DecidableEq, Repr, Inhabited

/-- A message with its fields in declaration order and the types declared inside it. -/
structure MessageType where
  name : String
  fields : List Field := []
  oneofs : List OneofGroup := []
  messages : List MessageType := []
  enums : List EnumType := []
  reserved : Reservations := {}
  deriving Repr, Inhabited

/-- A schema file: the path it goes by, the segments of its package and its top-level types. -/
structure SchemaFile where
  path : String
  package : List String := []
  messages : List MessageType := []
  enums : List EnumType := []
  deriving Repr, Inhabited

/-- A whole schema. -/
structure SchemaTree where
  files : List SchemaFile := []
  deriving Repr, Inhabited

namespace OneofGroup

/-- The groups after a field has joined the first group of a name, or a new last group if there is
none of that name. -/
def register (oneof field : String) : List OneofGroup → List OneofGroup
  | [] => [⟨oneof, [field]⟩]
  | group :: groups =>
      if group.name = oneof then { group with members := group.members ++ [field] } :: groups
      else group :: register oneof field groups

end OneofGroup

namespace EnumType

/-- The first constant of a name. -/
def constant? (enumType : EnumType) (name : String) : Option EnumConstant :=
  enumType.constants.find? fun constant => constant.name = name

/-- The enum with one more constant at the end. -/
def addConstant (enumType : EnumType) (constant : EnumConstant) : EnumType :=
  { enumType with constants := enumType.constants ++ [constant] }

end EnumType

namespace MessageType

mutual

/-- Equality of messages is decided part by part, nested messages included. -/
def decideEq : (a b : MessageType) → Decidable (a = b)
  | ⟨name, fields, oneofs, messages, enums, reserved⟩,
    ⟨name', fields', oneofs', messages', enums', reserved'⟩ =>
      match decideEqAll messages messages' with
      | .isFalse h => .isFalse (by simp [h])
      | .isTrue hmessages =>
          decidable_of_iff
            (name = name' ∧ fields = fields' ∧ oneofs = oneofs' ∧ enums = enums' ∧
              reserved = reserved')
            (by simp [hmessages])

/-- Equality of lists of messages is decided element by element. -/
def decideEqAll : (as bs : List MessageType) → Decidable (as = bs)
  | [], [] => .isTrue rfl
  | [], _ :: _ => .isFalse (by simp)
  | _ :: _, [] => .isFalse (by simp)
  | a :: as, b :: bs =>
      match decideEq a b, decideEqAll as bs with
      | .isTrue hhead, .isTrue htail => .isTrue (by rw [hhead, htail])
      | .isFalse h, _ => .isFalse (by simp [h])
      | _, .isFalse h => .isFalse (by simp [h])

end

instance : DecidableEq MessageType := decideEq

/-- The first field of a name. -/
def field? (message : MessageType) (name : String) : Option Field :=
  message.fields.find? fun field => field.name = name

/-- The first field of a tag. -/
def fieldByTag? (message : MessageType) (tag : UInt32) : Option Field :=
  message.fields.find? fun field => field.tag = tag

/-- The message with one more field at the end. A field that names a oneof joins that group. -/
def addField (message : MessageType) (field : Field) : MessageType :=
  { message with
    fields := message.fields ++ [field]
    oneofs :=
      match field.oneof with
      | some oneof => OneofGroup.register oneof field.name message.oneofs
      | none => message.oneofs }

/-- The message with more fields at the end, added in order. -/
def addFields (message : MessageType) (fields : List Field) : MessageType :=
  fields.foldl addField message

/-- Adding a field appends it to the fields. -/
@[simp] theorem fields_addField (message : MessageType) (field : Field) :
    (message.addField field).fields = message.fields ++ [field] := rfl

/-- Adding a field registers it in the group it names and changes no other group. -/
theorem oneofs_addField (message : MessageType) (field : Field) :
    (message.addField field).oneofs =
      match field.oneof with
      | some oneof => OneofGroup.register oneof field.name message.oneofs
      | none => message.oneofs := rfl

/-- Adding fields appends them to the fields. -/
@[simp] theorem fields_addFields (message : MessageType) (fields : List Field) :
    (message.addFields fields).fields = message.fields ++ fields := by
  unfold addFields
  induction fields generalizing message with
  | nil => simp
  | cons field fields ih => simp [ih]

end MessageType

deriving instance DecidableEq for SchemaFile, SchemaTree

namespace SchemaFile

/-- The empty file of a path in a package given as dotted text, whose empty segments are dropped. -/
def inPackage (path package : String) : SchemaFile :=
  { path, package := Text.segments '.' package }

/-- The package as dotted text, empty for the root package. -/
def packageName (file : SchemaFile) : String :=
  Text.join "." file.package

end SchemaFile

namespace SchemaTree

/-- The first file of a path. -/
def file? (tree : SchemaTree) (path : String) : Option SchemaFile :=
  tree.files.find? fun file => file.path = path

/-- The files of two schemas, one after the other. -/
def merge (tree other : SchemaTree) : SchemaTree :=
  ⟨tree.files ++ other.files⟩

/-- Whether no file declares a type. -/
def isEmpty (tree : SchemaTree) : Bool :=
  tree.files.all fun file => file.messages.isEmpty && file.enums.isEmpty

end SchemaTree

end SchemaGate
