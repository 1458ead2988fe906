import SchemaGate.Proofs.Loading.Grouped

/-!
# The schema of a descriptor set

`DescriptorSet.Describes` says, part by part and at every depth, which schema belongs to a
descriptor set: the same names, numbers and order, with the ranges of messages read without their
end, those of enums with it, and with the oneofs that fields other than optional ones point at. The
conversion fails exactly if a field at some depth has a negative number, and otherwise gives such a
schema. The main statement is `DescriptorSet.toTree_exact`.
-/

namespace SchemaGate

namespace FieldDescriptor

/-- A field belongs to the oneof of a name: it does not stand for a lone optional field, and its
index is the place of a declaration of that name. -/
def Joins (oneofs : List String) (field : FieldDescriptor) (name : String) : Prop :=
  field.proto3Optional = false ∧
    ∃ place : Nat, field.oneofIndex.map Int32.toInt = some (place : Int) ∧
      oneofs[place]? = some name

/-- The field of a schema is the one that a descriptor describes, in a message with the given oneof
declarations. -/
structure Describes (oneofs : List String) (descriptor : FieldDescriptor) (field : Field) :
    Prop where
  name : field.name = descriptor.name
  tag : (field.tag.toNat : Int) = descriptor.number.toInt
  typeName : field.typeName = descriptor.reference
  repeated : field.repeated = true ↔ descriptor.label = repeatedLabel
  oneof : ∀ name, field.oneof = some name ↔ descriptor.Joins oneofs name

end FieldDescriptor

/-- The enum of a schema is the one that a descriptor describes: both ends of a reserved range are
reserved. -/
structure EnumDescriptor.Describes (descriptor : EnumDescriptor) (enumType : EnumType) : Prop where
  name : enumType.name = descriptor.name
  constants : enumType.constants = descriptor.values
  allowAlias : enumType.allowAlias = descriptor.allowAlias
  reservesNumber : ∀ value : Int32, enumType.reserved.reservesNumber value.toInt = true ↔
    ∃ range ∈ descriptor.reservedRanges, range.start ≤ value ∧ value ≤ range.stop
  reservedNames : enumType.reserved.names = descriptor.reservedNames

namespace MessageDescriptor

/-- The message of a schema is the one that a descriptor describes: reserved ranges end before their
second number, and the oneofs are the groups of the fields that belong to one. A declared oneof to
which no field belongs, such as that of a lone optional field, is not among them. -/
inductive Describes : MessageDescriptor → MessageType → Prop where
  | intro {descriptor : MessageDescriptor} {message : MessageType}
      (name : message.name = descriptor.name)
      (fields : List.Forall₂ (FieldDescriptor.Describes descriptor.oneofs) descriptor.fields
        message.fields)
      (oneofs : message.oneofs = OneofGroup.grouping message.fields)
      (oneofNames : ∀ name, (∃ group ∈ message.oneofs, group.name = name) ↔
        ∃ field ∈ descriptor.fields, field.Joins descriptor.oneofs name)
      (reservesNumber : ∀ tag : UInt32, message.reserved.reservesNumber tag.toNat = true ↔
        ∃ range ∈ descriptor.reservedRanges,
          range.start.toInt ≤ tag.toNat ∧ (tag.toNat : Int) < range.stop.toInt)
      (reservedNames : message.reserved.names = descriptor.reservedNames)
      (messages : List.Forall₂ Describes descriptor.nested message.messages)
      (enums : List.Forall₂ EnumDescriptor.Describes descriptor.enums message.enums) :
      Describes descriptor message

/-- A message is another one or is nested in it at some depth. -/
inductive Inside (message : MessageDescriptor) : MessageDescriptor → Prop where
  | self : Inside message message
  | nested {inner outer : MessageDescriptor} (hnested : inner ∈ outer.nested)
      (hinside : Inside message inner) : Inside message outer

end MessageDescriptor

/-- The file of a schema is the one that a descriptor describes. -/
structure FileDescriptor.Describes (descriptor : FileDescriptor) (file : SchemaFile) : Prop where
  path : file.path = descriptor.name
  package : file.package = Text.segments '.' descriptor.package
  messages : List.Forall₂ MessageDescriptor.Describes descriptor.messages file.messages
  enums : List.Forall₂ EnumDescriptor.Describes descriptor.enums file.enums

namespace DescriptorSet

/-- The schema is the one that a descriptor set describes. -/
def Describes (set : DescriptorSet) (tree : SchemaTree) : Prop :=
  List.Forall₂ FileDescriptor.Describes set.files tree.files

/-- A message stands in some file of a descriptor set, at some depth. -/
def Declares (set : DescriptorSet) (message : MessageDescriptor) : Prop :=
  ∃ file ∈ set.files, ∃ outer ∈ file.messages, message.Inside outer

end DescriptorSet

section Ranges

variable {range : ReservedRange}

/-- A range has lost its last number, as far as numbers that are not negative are concerned. -/
theorem ReservedRange.contains_withoutStop_iff {number : Nat} :
    range.withoutStop.contains number = true ↔
      range.start.toInt ≤ number ∧ (number : Int) < range.stop.toInt := by
  rw [contains_iff, withoutStop]
  dsimp only
  by_cases hleast : range.stop = Int32.minValue
  · -- The least number has none before it, but it is negative anyway.
    rw [if_pos hleast, hleast, Int32.toInt_minValue]
    omega
  · rw [if_neg hleast]
    have hlow : Int32.minValue.toInt < range.stop.toInt := by
      have hne : Int32.minValue.toInt ≠ range.stop.toInt := fun heq =>
        hleast (Int32.toInt_inj.1 heq).symm
      have hle := range.stop.minValue_le_toInt
      omega
    have hhigh := range.stop.toInt_lt
    have hstop : (range.stop - 1).toInt = range.stop.toInt - 1 := by
      rw [Int32.toInt_minValue] at hlow
      rw [Int32.toInt_sub, Int32.toInt_one, Int.bmod_eq_of_le (by omega) (by omega)]
    rw [hstop]
    omega

/-- A number is reserved by ranges that have lost their last numbers. -/
theorem Reservations.reservesNumber_withoutStop_iff {ranges : List ReservedRange}
    {names : List String} {number : Nat} :
    (⟨ranges.map ReservedRange.withoutStop, names⟩ : Reservations).reservesNumber number = true ↔
      ∃ range ∈ ranges, range.start.toInt ≤ number ∧ (number : Int) < range.stop.toInt := by
  rw [reservesNumber_iff]
  simp only [List.mem_map, exists_exists_and_eq_and, ReservedRange.contains_withoutStop_iff]

end Ranges

namespace FieldDescriptor

variable {message : String} {oneofs : List String} {descriptor : FieldDescriptor}

/-- The name of a oneof is that of the declaration to which the field belongs. -/
theorem oneofName?_eq_some_iff {name : String} :
    descriptor.oneofName? oneofs = some name ↔ descriptor.Joins oneofs name := by
  rw [oneofName?, Joins]
  cases hindex : descriptor.oneofIndex with
  | none => simp
  | some index =>
      rw [Option.map_some]
      show (if descriptor.proto3Optional ∨ index < 0 then none
        else oneofs[index.toNatClampNeg]?) = some name ↔ _
      by_cases hnegative : index < 0
      · have hint : index.toInt < 0 := Int32.lt_iff_toInt_lt.1 hnegative
        rw [if_pos (.inr hnegative)]
        constructor
        · exact fun h => nomatch h
        · rintro ⟨-, place, hplace, -⟩
          have hsame := Option.some.inj hplace
          omega
      · have hint : 0 ≤ index.toInt := by
          have hle := Int32.not_lt.1 hnegative
          exact Int32.le_iff_toInt_le.1 hle
        have hclamp : index.toNatClampNeg = index.toInt.toNat := rfl
        rw [hclamp]
        cases descriptor.proto3Optional with
        | true => simp
        | false =>
            rw [if_neg (by simpa using hnegative)]
            constructor
            · intro h
              exact ⟨rfl, index.toInt.toNat, congrArg some (Int.toNat_of_nonneg hint).symm, h⟩
            · rintro ⟨-, place, hplace, hname⟩
              have hsame : index.toInt.toNat = place := by
                rw [Option.some.inj hplace, Int.toNat_natCast]
              rw [hsame, hname]

/-- A field is converted to what it describes, unless its number is negative. -/
theorem toField_cases (message : String) (oneofs : List String) (descriptor : FieldDescriptor) :
    match descriptor.toField message oneofs with
    | .error fault =>
        descriptor.number < 0 ∧
          fault = .negativeNumber descriptor.name message descriptor.number
    | .ok field => 0 ≤ descriptor.number ∧ descriptor.Describes oneofs field := by
  cases hresult : descriptor.toField message oneofs with
  | error fault =>
      dsimp only
      unfold toField at hresult
      split at hresult
      · rename_i hnegative
        cases hresult
        exact ⟨hnegative, rfl⟩
      · cases hresult
  | ok field =>
      dsimp only
      have htag := toField_tag hresult
      unfold toField at hresult
      split at hresult
      · cases hresult
      · rename_i hnumber
        cases hresult
        refine ⟨Int32.not_lt.1 hnumber, rfl, htag, rfl, decide_eq_true_iff, fun name => ?_⟩
        exact oneofName?_eq_some_iff

end FieldDescriptor

/-- The groups of converted fields have the names of oneofs to which some field belongs. -/
theorem FieldDescriptor.exists_mem_grouping_iff {oneofs : List String}
    {descriptors : List FieldDescriptor} {fields : List Field}
    (h : List.Forall₂ (Describes oneofs) descriptors fields) {name : String} :
    (∃ group ∈ OneofGroup.grouping fields, group.name = name) ↔
      ∃ descriptor ∈ descriptors, descriptor.Joins oneofs name := by
  rw [OneofGroup.exists_mem_grouping_iff]
  constructor
  · rintro ⟨field, hfield, honeof⟩
    obtain ⟨descriptor, hmem, hdescribes⟩ := exists_of_mem_of_forall₂ h hfield
    exact ⟨descriptor, hmem, (hdescribes.oneof name).1 honeof⟩
  · rintro ⟨descriptor, hmem, hjoins⟩
    obtain ⟨field, hfield, hdescribes⟩ := exists_of_mem_of_forall₂ h.flip hmem
    exact ⟨field, hfield, (hdescribes.oneof name).2 hjoins⟩

/-- An enum is converted to what it describes. -/
theorem EnumDescriptor.describes_toEnum (descriptor : EnumDescriptor) :
    descriptor.Describes descriptor.toEnum where
  name := rfl
  constants := rfl
  allowAlias := rfl
  reservesNumber value := by
    rw [Reservations.reservesNumber_iff]
    simp only [ReservedRange.contains_iff, Int32.le_iff_toInt_le, toEnum]
  reservedNames := rfl

/-- Several enums are converted to what they describe. -/
theorem EnumDescriptor.describes_map_toEnum (descriptors : List EnumDescriptor) :
    List.Forall₂ EnumDescriptor.Describes descriptors (descriptors.map EnumDescriptor.toEnum) := by
  rw [List.forall₂_map_right_iff, List.forall₂_same]
  exact fun descriptor _ => descriptor.describes_toEnum

/-- No message that is this one or nested in it has a field with a negative number. -/
def MessageDescriptor.Convertible (descriptor : MessageDescriptor) : Prop :=
  ∀ message : MessageDescriptor, message.Inside descriptor →
    ∀ field ∈ message.fields, 0 ≤ field.number

/-- The fault is that of a field with a negative number in a message. -/
def DescriptorError.Blames (fault : DescriptorError) (message : MessageDescriptor) : Prop :=
  ∃ field ∈ message.fields, field.number < 0 ∧
    fault = .negativeNumber field.name message.name field.number

namespace MessageDescriptor

/-- A message whose fields have no negative numbers is convertible if those inside it are. -/
theorem Convertible.intro {descriptor : MessageDescriptor}
    (hfields : ∀ field ∈ descriptor.fields, 0 ≤ field.number)
    (hnested : ∀ inner ∈ descriptor.nested, inner.Convertible) : descriptor.Convertible := by
  intro message hinside
  cases hinside with
  | self => exact hfields
  | nested hmem hinner => exact hnested _ hmem message hinner

/-- A message that is converted is what its descriptor describes, and no field inside it has a
negative number. -/
theorem describes_of_toMessage : ∀ {descriptor : MessageDescriptor} {message : MessageType},
    descriptor.toMessage = .ok message → descriptor.Describes message ∧ descriptor.Convertible
  | ⟨name, fields, nested, enums, oneofs, reservedRanges, reservedNames⟩, message, h => by
      rw [toMessage, toMessages_eq_mapM] at h
      obtain ⟨converted, hfields, h⟩ := exists_of_bind_eq_ok h
      obtain ⟨messages, hmessages, h⟩ := exists_of_bind_eq_ok h
      cases h
      have hfield {descriptor field} (hread : FieldDescriptor.toField name oneofs descriptor =
          .ok field) : 0 ≤ descriptor.number ∧ descriptor.Describes oneofs field := by
        have hcases := FieldDescriptor.toField_cases name oneofs descriptor
        rwa [hread] at hcases
      have hinner {inner result} (hmem : inner ∈ nested) (hread : toMessage inner = .ok result) :
          inner.Describes result ∧ inner.Convertible := describes_of_toMessage hread
      have hdescribed : List.Forall₂ (FieldDescriptor.Describes oneofs) fields converted :=
        forall₂_of_reads hfields fun _ _ _ hread => (hfield hread).2
      rw [MessageType.addFields_eq rfl rfl]
      constructor
      · exact .intro rfl hdescribed rfl
          (fun name => FieldDescriptor.exists_mem_grouping_iff hdescribed)
          (fun tag => Reservations.reservesNumber_withoutStop_iff) rfl
          (forall₂_of_reads hmessages fun _ hmem _ hread => (hinner hmem hread).1)
          (EnumDescriptor.describes_map_toEnum enums)
      · refine Convertible.intro (fun field hmem => ?_) fun inner hmem => ?_
        · obtain ⟨result, hread⟩ := exists_read_of_mapM_eq_ok hfields hmem
          exact (hfield hread).1
        · obtain ⟨result, hread⟩ := exists_read_of_mapM_eq_ok hmessages hmem
          exact (hinner hmem hread).2
termination_by descriptor => descriptor
decreasing_by
  have hlt := List.sizeOf_lt_of_mem hmem
  simp only [mk.sizeOf_spec]
  omega

/-- If a message is not converted, a field with a negative number inside it is to blame. -/
theorem blames_of_toMessage : ∀ {descriptor : MessageDescriptor} {fault : DescriptorError},
    descriptor.toMessage = .error fault →
      ∃ message : MessageDescriptor, message.Inside descriptor ∧ fault.Blames message
  | ⟨name, fields, nested, enums, oneofs, reservedRanges, reservedNames⟩, fault, h => by
      rw [toMessage, toMessages_eq_mapM] at h
      rcases bind_eq_error_iff.1 h with hfields | ⟨converted, -, h⟩
      · obtain ⟨field, hmem, hread⟩ := exists_of_mapM_eq_error hfields
        have hcases := FieldDescriptor.toField_cases name oneofs field
        rw [hread] at hcases
        exact ⟨_, .self, field, hmem, hcases⟩
      · rcases bind_eq_error_iff.1 h with hmessages | ⟨messages, -, h⟩
        · obtain ⟨inner, hmem, hread⟩ := exists_of_mapM_eq_error hmessages
          obtain ⟨message, hinside, hblames⟩ := blames_of_toMessage hread
          exact ⟨message, .nested hmem hinside, hblames⟩
        · cases h
termination_by descriptor => descriptor
decreasing_by
  have hlt := List.sizeOf_lt_of_mem hmem
  simp only [mk.sizeOf_spec]
  omega

end MessageDescriptor

/-- A file that is converted is what its descriptor describes, and no field inside its messages has
a negative number. -/
theorem FileDescriptor.describes_of_toFile {descriptor : FileDescriptor} {file : SchemaFile}
    (h : descriptor.toFile = .ok file) :
    descriptor.Describes file ∧ ∀ message ∈ descriptor.messages, message.Convertible := by
  rw [toFile, MessageDescriptor.toMessages_eq_mapM] at h
  obtain ⟨messages, hmessages, h⟩ := exists_of_bind_eq_ok h
  cases h
  constructor
  · exact ⟨rfl, rfl,
      forall₂_of_reads hmessages fun _ _ _ hread =>
        (MessageDescriptor.describes_of_toMessage hread).1,
      EnumDescriptor.describes_map_toEnum descriptor.enums⟩
  · intro message hmem
    obtain ⟨result, hread⟩ := exists_read_of_mapM_eq_ok hmessages hmem
    exact (MessageDescriptor.describes_of_toMessage hread).2

/-- If a file is not converted, a field with a negative number in one of its messages is to blame.
-/
theorem FileDescriptor.blames_of_toFile {descriptor : FileDescriptor} {fault : DescriptorError}
    (h : descriptor.toFile = .error fault) :
    ∃ outer ∈ descriptor.messages, ∃ message : MessageDescriptor,
      message.Inside outer ∧ fault.Blames message := by
  rw [toFile, MessageDescriptor.toMessages_eq_mapM] at h
  rcases bind_eq_error_iff.1 h with hmessages | ⟨messages, -, h⟩
  · obtain ⟨outer, hmem, hread⟩ := exists_of_mapM_eq_error hmessages
    exact ⟨outer, hmem, MessageDescriptor.blames_of_toMessage hread⟩
  · cases h

/-- Bytes that are a descriptor set are converted as the set. The conversion fails only because of a
field with a negative number in a message at some depth, which the error names. If there is no such
field, it gives the schema that the set describes. -/
theorem DescriptorSet.toTree_exact (set : DescriptorSet) :
    (∀ bytes, ofBytes? bytes = some set → treeOfBytes bytes = set.toTree) ∧
      match set.toTree with
      | .error fault => ∃ message, set.Declares message ∧ fault.Blames message
      | .ok tree =>
          set.Describes tree ∧
            ∀ message, set.Declares message → ∀ field ∈ message.fields, 0 ≤ field.number := by
  constructor
  · intro bytes hbytes
    rw [treeOfBytes, hbytes]
  cases htree : set.toTree with
  | error fault =>
      show ∃ message, set.Declares message ∧ fault.Blames message
      rcases bind_eq_error_iff.1 htree with hfiles | ⟨files, -, h⟩
      · obtain ⟨file, hfile, hread⟩ := exists_of_mapM_eq_error hfiles
        obtain ⟨outer, houter, message, hinside, hblames⟩ := FileDescriptor.blames_of_toFile hread
        exact ⟨message, ⟨file, hfile, outer, houter, hinside⟩, hblames⟩
      · cases h
  | ok tree =>
      obtain ⟨files, hfiles, h⟩ := exists_of_bind_eq_ok htree
      cases h
      constructor
      · exact forall₂_of_reads hfiles fun _ _ _ hread =>
          (FileDescriptor.describes_of_toFile hread).1
      · rintro message ⟨file, hfile, outer, houter, hinside⟩
        obtain ⟨result, hread⟩ := exists_read_of_mapM_eq_ok hfiles hfile
        exact (FileDescriptor.describes_of_toFile hread).2 outer houter message hinside

end SchemaGate
