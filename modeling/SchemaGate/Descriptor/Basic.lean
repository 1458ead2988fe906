import SchemaGate.Schema.Basic

/-!
# Descriptors

A descriptor set is what a schema compiler writes about the files it has read. The structures here
hold the parts that make up a schema; a part that is absent has its default.
-/

namespace SchemaGate

/-- A field as its descriptor gives it. `label` and `kind` are the numbers of the label and the
type; `oneofIndex` is the place of its oneof in the message. -/
structure FieldDescriptor where
  name : String := ""
  number : Int32 := 0
  label : Int32 := 0
  kind : Int32 := 0
  typeName : String := ""
  oneofIndex : Option Int32 := none
  proto3Optional : Bool := false
  deriving DecidableEq, Repr, Inhabited

/-- An enum as its descriptor gives it. Its reserved ranges hold both ends. -/
structure EnumDescriptor where
  name : String := ""
  values : List EnumConstant := []
  allowAlias : Bool := false
  reservedRanges : List ReservedRange := []
  reservedNames : List String := []
  deriving DecidableEq, Repr, Inhabited

/-- A message as its descriptor gives it. Its reserved ranges end before their second number. -/
structure MessageDescriptor where
  name : String := ""
  fields : List FieldDescriptor := []
  nested : List MessageDescriptor := []
  enums : List EnumDescriptor := []
  oneofs : List String := []
  reservedRanges : List ReservedRange := []
  reservedNames : List String := []
  deriving Repr, Inhabited

/-- A file as its descriptor gives it. -/
structure FileDescriptor where
  name : String := ""
  package : String := ""
  messages : List MessageDescriptor := []
  enums : List EnumDescriptor := []
  deriving Repr, Inhabited

/-- The descriptors of the files of a schema. -/
structure DescriptorSet where
  files : List FileDescriptor := []
  deriving Repr, Inhabited

namespace FieldDescriptor

/-- The number of the label of repeated fields. -/
def repeatedLabel : Int32 := 3

/-- The keywords of the scalar types by their numbers. -/
def scalarTypes : List (Int32 × String) :=
  [(1, "double"), (2, "float"), (3, "int64"), (4, "uint64"), (5, "int32"), (6, "fixed64"),
   (7, "fixed32"), (8, "bool"), (9, "string"), (12, "bytes"), (13, "uint32"), (15, "sfixed32"),
   (16, "sfixed64"), (17, "sint32"), (18, "sint64")]

/-- The numbers of groups, messages and enums, which are types with a name. -/
def namedTypes : List Int32 := [10, 11, 14]

/-- The type of a field as text. A number that is no type counts as the first one. -/
def reference (field : FieldDescriptor) : String :=
  if namedTypes.contains field.kind then field.typeName
  else (scalarTypes.lookup field.kind).getD "double"

end FieldDescriptor

end SchemaGate
