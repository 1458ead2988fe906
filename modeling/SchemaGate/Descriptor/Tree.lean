import SchemaGate.Descriptor.Reader

/-!
# Schemas of descriptor sets

`DescriptorSet.toTree` makes a schema of descriptors. Reserved ranges of messages lose their
excluded end, fields name their oneof instead of its place, and the oneof that stands for an
optional field is left out. The only fault is a negative field number. The main statement is
`FieldDescriptor.toField_tag`: the tag of a field is its number.
-/

namespace SchemaGate

/-- Why bytes give no schema. -/
inductive DescriptorError where
  /-- The bytes are no descriptor set. -/
  | malformed
  /-- The number of a field is negative. -/
  | negativeNumber (field message : String) (number : Int32)
  deriving DecidableEq, Repr

/-- The error in words. -/
def DescriptorError.message : DescriptorError → String
  | malformed => "<protobuf error>"
  | negativeNumber field message number =>
      "field '" ++ field ++ "' in message '" ++ message ++ "' has invalid number " ++
        toString number.toInt

/-- The range without its last number, unless that is the least of all numbers. -/
def ReservedRange.withoutStop (range : ReservedRange) : ReservedRange :=
  { range with stop := if range.stop = Int32.minValue then range.stop else range.stop - 1 }

namespace FieldDescriptor

/-- The name of the oneof of a field, out of the oneofs of its message. -/
def oneofName? (oneofs : List String) (field : FieldDescriptor) : Option String := do
  let index ← field.oneofIndex
  if field.proto3Optional ∨ index < 0 then none else oneofs[index.toNatClampNeg]?

/-- The field of a schema. -/
def toField (message : String) (oneofs : List String) (field : FieldDescriptor) :
    Except DescriptorError Field :=
  if field.number < 0 then .error (.negativeNumber field.name message field.number)
  else
    .ok
      { name := field.name
        tag := UInt32.ofNat field.number.toNatClampNeg
        typeName := field.reference
        repeated := field.label = repeatedLabel
        oneof := field.oneofName? oneofs }

end FieldDescriptor

/-- The enum of a schema. -/
def EnumDescriptor.toEnum (enumType : EnumDescriptor) : EnumType :=
  { name := enumType.name
    constants := enumType.values
    allowAlias := enumType.allowAlias
    reserved := ⟨enumType.reservedRanges, enumType.reservedNames⟩ }

namespace MessageDescriptor

mutual

/-- The message of a schema. -/
def toMessage : MessageDescriptor → Except DescriptorError MessageType
  | ⟨name, fields, nested, enums, oneofs, reservedRanges, reservedNames⟩ => do
      let fields ← fields.mapM (FieldDescriptor.toField name oneofs)
      let messages ← toMessages nested
      pure
        (MessageType.addFields
          { name
            messages
            enums := enums.map EnumDescriptor.toEnum
            reserved := ⟨reservedRanges.map ReservedRange.withoutStop, reservedNames⟩ }
          fields)

/-- Several messages of a schema. -/
def toMessages : List MessageDescriptor → Except DescriptorError (List MessageType)
  | [] => pure []
  | message :: messages => do
      let first ← message.toMessage
      let others ← toMessages messages
      pure (first :: others)

end

end MessageDescriptor

/-- The file of a schema. -/
def FileDescriptor.toFile (file : FileDescriptor) : Except DescriptorError SchemaFile := do
  let messages ← MessageDescriptor.toMessages file.messages
  pure
    { SchemaFile.inPackage file.name file.package with
      messages
      enums := file.enums.map EnumDescriptor.toEnum }

namespace DescriptorSet

/-- The schema of a descriptor set, or the first field with a negative number. -/
def toTree (set : DescriptorSet) : Except DescriptorError SchemaTree := do
  let files ← set.files.mapM FileDescriptor.toFile
  pure ⟨files⟩

/-- The schema that bytes describe. -/
def treeOfBytes (bytes : List UInt8) : Except DescriptorError SchemaTree :=
  match ofBytes? bytes with
  | some set => set.toTree
  | none => .error .malformed

end DescriptorSet

/-- A field that is converted keeps its number as its tag. -/
theorem FieldDescriptor.toField_tag {message : String} {oneofs : List String}
    {descriptor : FieldDescriptor} {field : Field}
    (h : descriptor.toField message oneofs = .ok field) :
    (field.tag.toNat : Int) = descriptor.number.toInt := by
  unfold toField at h
  split at h
  · cases h
  · rename_i hnumber
    cases h
    have hnonneg : 0 ≤ descriptor.number.toInt := by
      have := Int32.not_lt.1 hnumber
      simpa [Int32.le_iff_toInt_le] using this
    have hbound := descriptor.number.toInt_lt
    have htoNat : descriptor.number.toNatClampNeg = descriptor.number.toInt.toNat := rfl
    simp only [htoNat, UInt32.toNat_ofNat']
    omega

end SchemaGate
