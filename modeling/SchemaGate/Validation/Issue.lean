import SchemaGate.Schema.Reserved

/-!
# Validation issues

An issue is one structural fault of a schema: the type it is in and what is violated there. Each
violation has its explanation and, where it is about a part of the type, the name of that part.
-/

namespace SchemaGate

/-- What a name is the name of. -/
inductive NameRole where
  | packageSegment
  | message
  | field
  | oneof
  | enum
  | constant
  deriving DecidableEq, Repr

/-- The words for what a name is the name of. -/
def NameRole.text : NameRole → String
  | packageSegment => "package segment"
  | message => "message"
  | field => "field"
  | oneof => "oneof"
  | enum => "enum"
  | constant => "constant"

/-- The rules that a schema can violate. -/
inductive Violation where
  /-- The name is no identifier. -/
  | invalidName (role : NameRole) (name : String)
  /-- The reserved range holds no number. -/
  | emptyRange (range : ReservedRange)
  /-- Another type has the same path. -/
  | duplicatePath
  /-- The field's tag is not a legal field number. -/
  | tagOutOfRange (field : String) (tag : UInt32)
  /-- The field's tag is kept for the wire format. -/
  | tagOfImplementation (field : String) (tag : UInt32)
  /-- An earlier field has the tag. -/
  | tagInUse (field : String) (tag : UInt32) (holder : String)
  /-- An earlier field has the name. -/
  | fieldRepeated (field : String)
  /-- The message reserves the field's tag. -/
  | tagReserved (field : String) (tag : UInt32) (range : ReservedRange)
  /-- The message reserves the field's name. -/
  | fieldNameReserved (field : String)
  /-- The oneof lists a name that is no field. -/
  | unknownOneofMember (oneof member : String)
  /-- An earlier constant has the value. -/
  | valueInUse (constant : String) (value : Int32) (holder : String)
  /-- An earlier constant has the name. -/
  | constantRepeated (constant : String)
  /-- The enum reserves the constant's value. -/
  | valueReserved (constant : String) (value : Int32) (range : ReservedRange)
  /-- The enum reserves the constant's name. -/
  | constantNameReserved (constant : String)
  /-- The field's type is no type of the schema. -/
  | unresolvedType (field reference : String)
  deriving DecidableEq, Repr

namespace Violation

/-- What is wrong, in words. -/
def message : Violation → String
  | invalidName _ name => "'" ++ name ++ "' is not a valid identifier"
  | emptyRange range =>
      "reserved range " ++ toString range.start.toInt ++ " to " ++ toString range.stop.toInt ++
        " is empty"
  | duplicatePath => "type path is declared more than once"
  | tagOutOfRange _ tag =>
      "tag " ++ toString tag.toNat ++ " is out of range 1 to " ++ toString maxFieldTag
  | tagOfImplementation _ tag =>
      "tag " ++ toString tag.toNat ++ " is reserved for the protobuf implementation"
  | tagInUse _ tag holder =>
      "tag " ++ toString tag.toNat ++ " is already used by field '" ++ holder ++ "'"
  | fieldRepeated _ => "field name is declared more than once"
  | tagReserved _ tag range => "tag " ++ toString tag.toNat ++ " is reserved (" ++ range.text ++ ")"
  | fieldNameReserved _ => "field name is reserved"
  | unknownOneofMember _ member => "oneof member '" ++ member ++ "' is not a field"
  | valueInUse _ value holder =>
      "value " ++ toString value.toInt ++ " is already used by constant '" ++ holder ++ "'"
  | constantRepeated _ => "constant name is declared more than once"
  | valueReserved _ value range =>
      "value " ++ toString value.toInt ++ " is reserved (" ++ range.text ++ ")"
  | constantNameReserved _ => "constant name is reserved"
  | unresolvedType _ reference => "type '" ++ reference ++ "' cannot be resolved"

/-- The part of the type that is at fault, if it is not the whole. -/
def member? : Violation → Option String
  | invalidName role name => some (role.text ++ " " ++ name)
  | emptyRange _ => none
  | duplicatePath => none
  | tagOutOfRange field _ | tagOfImplementation field _ | tagInUse field _ _
  | fieldRepeated field | tagReserved field _ _ | fieldNameReserved field
  | unresolvedType field _ => some ("field " ++ field)
  | unknownOneofMember oneof _ => some ("oneof " ++ oneof)
  | valueInUse constant _ _ | constantRepeated constant | valueReserved constant _ _
  | constantNameReserved constant => some ("constant " ++ constant)

end Violation

/-- A violation and the path of the type it is in. For a package segment it is the path of the
file. -/
structure Issue where
  typePath : String
  violation : Violation
  deriving DecidableEq, Repr

namespace Issue

/-- The issue on its own lines: what is wrong, for which part, and in which type. -/
def text (issue : Issue) : String :=
  issue.violation.message ++
    (match issue.violation.member? with
      | some member => "\n  for " ++ member
      | none => "") ++
    "\n  in " ++ issue.typePath

end Issue

end SchemaGate
