import SchemaGate.Finding
import SchemaGate.NameMap
import SchemaGate.Schema.Basic

/-!
# Members

Fields of messages and constants of enums are compared by the same rules. `MemberSet` is what the
rules see of one version of a type: its members with their names and numbers, its reservations, and
whether two members may share a number. Types, labels and oneof groups are not seen. The main
statement is `liveHolder?_eq_none_of_allowAlias`: where aliases are allowed no number is held.
-/

namespace SchemaGate

/-- A field or constant: a name and a tag or value. -/
structure Member where
  name : String
  number : Int
  deriving DecidableEq, Repr, Inhabited

/-- A field as a member. -/
def Field.member (field : Field) : Member :=
  ⟨field.name, field.tag.toNat⟩

/-- A constant as a member. -/
def EnumConstant.member (constant : EnumConstant) : Member :=
  ⟨constant.name, constant.value.toInt⟩

/-- What the rules see of one version of a type. -/
structure MemberSet where
  members : List Member
  reserved : Reservations
  allowAlias : Bool
  deriving DecidableEq, Repr, Inhabited

/-- A message as the rules see it. Two of its fields must never share a tag. -/
def MessageType.memberSet (message : MessageType) : MemberSet :=
  ⟨message.fields.map Field.member, message.reserved, false⟩

/-- An enum as the rules see it. -/
def EnumType.memberSet (enumType : EnumType) : MemberSet :=
  ⟨enumType.constants.map EnumConstant.member, enumType.reserved, enumType.allowAlias⟩

namespace MemberSet

/-- The members by name. Of several members of one name the last counts. -/
def byName (version : MemberSet) : NameMap Member :=
  NameMap.ofList (version.members.map fun member => (member.name, member))

/-- The first member of another name that has a number, unless members may share numbers. -/
def liveHolder? (version : MemberSet) (number : Int) (name : String) : Option Member :=
  if version.allowAlias then none
  else version.members.find? fun member => member.number = number ∧ member.name ≠ name

/-- Where members may share numbers no number is held against another member. -/
theorem liveHolder?_eq_none_of_allowAlias {version : MemberSet} (h : version.allowAlias = true)
    (number : Int) (name : String) : version.liveHolder? number name = none := by
  simp [liveHolder?, h]

end MemberSet

/-- The words and finding kinds for the members of one kind of type. -/
structure MemberTerms where
  noun : String
  nounTitle : String
  numberNoun : String
  removed : FindingKind
  conflict : FindingKind
  numberReuse : FindingKind

/-- Fields have tags. -/
def MemberTerms.field : MemberTerms :=
  ⟨"field", "Field", "tag", .removedField, .tagConflict, .reservedTagReuse⟩

/-- Constants have values. -/
def MemberTerms.constant : MemberTerms :=
  ⟨"constant", "Constant", "value", .removedEnumConstant, .valueConflict, .reservedValueReuse⟩

end SchemaGate
