import SchemaGate.Descriptor.Basic
import SchemaGate.Wire.Message

/-!
# Reading descriptor sets

Each kind of descriptor has a list of known fields. A field that holds one value keeps the last one,
a field that holds several collects them, and the options of an enum are merged. Options, services,
extensions and remarks on the source are part of no schema, but they have to be well-formed.
-/

namespace SchemaGate

open Wire (KnownField Payload readMessage inner? int32? bool? text? integer? integers? eightBytes?
  bytes? dropped)

/-- Reads a part of the name of an option and drops it. -/
def dropNamePart? (room : Nat) (bytes : List UInt8) : Option Unit :=
  readMessage [dropped 1 text?, dropped 2 bool?] room () bytes

/-- Reads an option that the compiler did not know and drops it. -/
def dropUnknownOption? (room : Nat) (bytes : List UInt8) : Option Unit :=
  readMessage
    [dropped 2 (inner? dropNamePart? room), dropped 3 text?, dropped 4 integer?,
     dropped 5 integer?, dropped 6 eightBytes?, dropped 7 bytes?, dropped 8 text?]
    room () bytes

/-- The field for options that the compiler did not know, which all options have. -/
def unknownOptions {α : Type} (room : Nat) : KnownField α :=
  dropped 999 (inner? dropUnknownOption? room)

/-- Reads options and drops them, given the numbers of those that are texts and of those that are
truth values or alternatives. -/
def dropOptions? (texts numbers : List Nat) (room : Nat) (bytes : List UInt8) : Option Unit :=
  readMessage
    (texts.map (dropped · text?) ++ numbers.map (dropped · integer?) ++ [unknownOptions room])
    room () bytes

/-- The field of a number that holds options. -/
def options {α : Type} (number : Nat) (texts numbers : List Nat) (room : Nat) : KnownField α :=
  dropped number (inner? (dropOptions? texts numbers) room)

/-- Reads a method of a service and drops it. -/
def dropMethod? (room : Nat) (bytes : List UInt8) : Option Unit :=
  readMessage
    [dropped 1 text?, dropped 2 text?, dropped 3 text?, options 4 [] [33, 34] room,
     dropped 5 bool?, dropped 6 bool?]
    room () bytes

/-- Reads a service and drops it. -/
def dropService? (room : Nat) (bytes : List UInt8) : Option Unit :=
  readMessage
    [dropped 1 text?, dropped 2 (inner? dropMethod? room), options 3 [] [33] room] room () bytes

/-- Reads a range of numbers that are kept for extensions and drops it. -/
def dropExtensionRange? (room : Nat) (bytes : List UInt8) : Option Unit :=
  readMessage [dropped 1 int32?, dropped 2 int32?, options 3 [] [] room] room () bytes

/-- Reads a place in the source with the remarks on it and drops it. -/
def dropLocation? (room : Nat) (bytes : List UInt8) : Option Unit :=
  readMessage
    [dropped 1 integers?, dropped 2 integers?, dropped 3 text?, dropped 4 text?, dropped 6 text?]
    room () bytes

/-- Reads the remarks on the source and drops them. -/
def dropSourceInfo? (room : Nat) (bytes : List UInt8) : Option Unit :=
  readMessage [dropped 1 (inner? dropLocation? room)] room () bytes

/-- The known fields of a field descriptor. -/
def FieldDescriptor.known (room : Nat) : List (KnownField FieldDescriptor) :=
  [.ofReader 1 text? fun field name => { field with name },
   dropped 2 text?,
   .ofReader 3 int32? fun field number => { field with number },
   .ofReader 4 int32? fun field label => { field with label },
   .ofReader 5 int32? fun field kind => { field with kind },
   .ofReader 6 text? fun field typeName => { field with typeName },
   dropped 7 text?,
   options 8 [] [1, 2, 3, 5, 6, 10] room,
   .ofReader 9 int32? fun field index => { field with oneofIndex := some index },
   dropped 10 text?,
   .ofReader 17 bool? fun field proto3Optional => { field with proto3Optional }]

/-- Reads a field descriptor. -/
def FieldDescriptor.read? (room : Nat) (bytes : List UInt8) : Option FieldDescriptor :=
  readMessage (known room) room {} bytes

/-- Reads the two ends of a reserved range. -/
def readRange? (room : Nat) (bytes : List UInt8) : Option ReservedRange :=
  readMessage
    [.ofReader 1 int32? fun range start => { range with start },
     .ofReader 2 int32? fun range stop => { range with stop }]
    room ⟨0, 0⟩ bytes

/-- Reads the name of a oneof. -/
def readOneof? (room : Nat) (bytes : List UInt8) : Option String :=
  readMessage [.ofReader 1 text? fun _ name => name, options 2 [] [] room] room "" bytes

/-- Reads an enum constant. -/
def readConstant? (room : Nat) (bytes : List UInt8) : Option EnumConstant :=
  readMessage
    [.ofReader 1 text? fun constant name => { constant with name },
     .ofReader 2 int32? fun constant value => { constant with value },
     options 3 [] [1] room]
    room ⟨"", 0⟩ bytes

/-- Reads the options of an enum into whether aliases are allowed so far. -/
def readEnumOptions? (allowAlias : Bool) (room : Nat) (bytes : List UInt8) : Option Bool :=
  readMessage
    [.ofReader 2 bool? fun _ allowed => allowed, dropped 3 bool?, unknownOptions room]
    room allowAlias bytes

/-- The known fields of an enum descriptor. -/
def EnumDescriptor.known (room : Nat) : List (KnownField EnumDescriptor) :=
  [.ofReader 1 text? fun enumType name => { enumType with name },
   .ofReader 2 (inner? readConstant? room) fun enumType value =>
     { enumType with values := enumType.values ++ [value] },
   { number := 3
     put := fun enumType payload => do
       let allowAlias ← inner? (readEnumOptions? enumType.allowAlias) room payload
       pure { enumType with allowAlias } },
   .ofReader 4 (inner? readRange? room) fun enumType range =>
     { enumType with reservedRanges := enumType.reservedRanges ++ [range] },
   .ofReader 5 text? fun enumType name =>
     { enumType with reservedNames := enumType.reservedNames ++ [name] }]

/-- Reads an enum descriptor. -/
def EnumDescriptor.read? (room : Nat) (bytes : List UInt8) : Option EnumDescriptor :=
  readMessage (known room) room {} bytes

/-- The known fields of a message descriptor, given how a message inside it is read. -/
def MessageDescriptor.known (room : Nat) (nested? : Payload → Option MessageDescriptor) :
    List (KnownField MessageDescriptor) :=
  [.ofReader 1 text? fun message name => { message with name },
   .ofReader 2 (inner? FieldDescriptor.read? room) fun message field =>
     { message with fields := message.fields ++ [field] },
   .ofReader 3 nested? fun message nested => { message with nested := message.nested ++ [nested] },
   .ofReader 4 (inner? EnumDescriptor.read? room) fun message enumType =>
     { message with enums := message.enums ++ [enumType] },
   dropped 5 (inner? dropExtensionRange? room),
   dropped 6 (inner? FieldDescriptor.read? room),
   options 7 [] [1, 2, 3, 7] room,
   .ofReader 8 (inner? readOneof? room) fun message oneof =>
     { message with oneofs := message.oneofs ++ [oneof] },
   .ofReader 9 (inner? readRange? room) fun message range =>
     { message with reservedRanges := message.reservedRanges ++ [range] },
   .ofReader 10 text? fun message name =>
     { message with reservedNames := message.reservedNames ++ [name] }]

/-- Reads a message descriptor. A message inside it has one level less of room. -/
def MessageDescriptor.read? : (room : Nat) → List UInt8 → Option MessageDescriptor
  | 0, bytes => readMessage (known 0 fun _ => none) 0 {} bytes
  | room + 1, bytes =>
      let nested? : Payload → Option MessageDescriptor
        | .bytes content => read? room content
        | _ => none
      readMessage (known (room + 1) nested?) (room + 1) {} bytes

/-- The known fields of a file descriptor. -/
def FileDescriptor.known (room : Nat) : List (KnownField FileDescriptor) :=
  [.ofReader 1 text? fun file name => { file with name },
   .ofReader 2 text? fun file package => { file with package },
   dropped 3 text?,
   .ofReader 4 (inner? MessageDescriptor.read? room) fun file message =>
     { file with messages := file.messages ++ [message] },
   .ofReader 5 (inner? EnumDescriptor.read? room) fun file enumType =>
     { file with enums := file.enums ++ [enumType] },
   dropped 6 (inner? dropService? room),
   dropped 7 (inner? FieldDescriptor.read? room),
   options 8 [1, 8, 11, 36, 37, 39, 40, 41, 44, 45] [9, 10, 16, 17, 18, 20, 23, 27, 31, 42] room,
   dropped 9 (inner? dropSourceInfo? room),
   dropped 10 integers?,
   dropped 11 integers?,
   dropped 12 text?]

/-- Reads a file descriptor. -/
def FileDescriptor.read? (room : Nat) (bytes : List UInt8) : Option FileDescriptor :=
  readMessage (known room) room {} bytes

namespace DescriptorSet

/-- Reads a descriptor set. -/
def ofBytes? (bytes : List UInt8) : Option DescriptorSet :=
  readMessage
    [.ofReader 1 (inner? FileDescriptor.read? Wire.maxLevels) fun set file =>
      { set with files := set.files ++ [file] }]
    Wire.maxLevels {} bytes

end DescriptorSet

end SchemaGate
