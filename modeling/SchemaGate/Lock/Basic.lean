import SchemaGate.Schema.Reserved

/-!
# Lock files

A lock file is the snapshot of a released schema: one definition per schema file, with the messages
and enums of the file. Plain fields and map fields stand in separate lists. The main statement is
`ReservedId.range_ofRange`: a reserved range survives being written as an id.
-/

namespace SchemaGate

/-- A reserved number or an inclusive range of reserved numbers. -/
inductive ReservedId where
  | single (number : Int32)
  | range (start stop : Int32)
  deriving DecidableEq, Repr, Inhabited

/-- A field. The oneof it belongs to is given by name. -/
structure LockField where
  id : Int64
  name : String
  typeName : String
  isRepeated : Bool := false
  oneofParent : Option String := none
  deriving DecidableEq, Repr, Inhabited

/-- A map field: the type of the keys, and a field whose type is that of the values. -/
structure LockMap where
  keyType : String
  field : LockField
  deriving DecidableEq, Repr, Inhabited

/-- An enum constant. -/
structure LockEnumField where
  name : String
  integer : Int32 := 0
  deriving DecidableEq, Repr, Inhabited

/-- An enum. -/
structure LockEnum where
  name : String
  enumFields : List LockEnumField := []
  reservedIds : List ReservedId := []
  reservedNames : List String := []
  allowAlias : Bool := false
  deriving DecidableEq, Repr, Inhabited

/-- A message with the messages and enums inside it. -/
structure LockMessage where
  name : String
  fields : List LockField := []
  maps : List LockMap := []
  reservedIds : List ReservedId := []
  reservedNames : List String := []
  messages : List LockMessage := []
  enums : List LockEnum := []
  deriving Repr, Inhabited

/-- The package of a file as dotted text. -/
structure LockPackage where
  name : String
  deriving DecidableEq, Repr, Inhabited

/-- The contents of a file. -/
structure LockEntry where
  package : Option LockPackage := none
  messages : List LockMessage := []
  enums : List LockEnum := []
  deriving Repr, Inhabited

/-- A file: its path and its contents. -/
structure LockDefinition where
  protopath : String
  entry : LockEntry
  deriving Repr, Inhabited

/-- A lock file. -/
structure LockFile where
  definitions : List LockDefinition := []
  deriving Repr, Inhabited

namespace ReservedId

/-- The range of a reserved id. -/
def toRange : ReservedId → ReservedRange
  | single number => .single number
  | range start stop => ⟨start, stop⟩

/-- A range as a reserved id; a range of one number is that number. -/
def ofRange (range : ReservedRange) : ReservedId :=
  if range.start = range.stop then .single range.start else .range range.start range.stop

/-- A range survives being written as an id. -/
@[simp] theorem range_ofRange (range : ReservedRange) : (ofRange range).toRange = range := by
  obtain ⟨start, stop⟩ := range
  by_cases h : start = stop
  · simp [ofRange, toRange, ReservedRange.single, h]
  · simp [ofRange, toRange, h]

end ReservedId

end SchemaGate
