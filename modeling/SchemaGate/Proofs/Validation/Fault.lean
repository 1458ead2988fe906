import SchemaGate.Proofs.Analysis.Breach
import SchemaGate.Proofs.TypeIndex.Resolves
import SchemaGate.Validation.Basic

/-!
# What is wrong with a schema

A schema is checked against eleven rules. `Fault` is the table of what violates them, written as a
relation between the parts of a schema, which are given by their places, and the issues that report
them: `FieldFault` and `ConstantFault` for a member after the ones before it, `TypeFault` for the
parts of a type, and `Fault` for the whole schema. The main statements are `mem_fieldViolations` and
`mem_constantViolations`: the checks of a single member find exactly its faults.
-/

namespace SchemaGate

namespace Validation

/-- A character may begin an identifier: an ASCII letter or the underscore. -/
def BeginsIdentifier (c : Char) : Prop :=
  ('A' ≤ c ∧ c ≤ 'Z') ∨ ('a' ≤ c ∧ c ≤ 'z') ∨ c = '_'

/-- A text is an identifier: a letter or underscore, then letters, underscores and ASCII digits. -/
def IsIdentifier (name : String) : Prop :=
  ∃ first rest, name.toList = first :: rest ∧ BeginsIdentifier first ∧
    ∀ c ∈ rest, BeginsIdentifier c ∨ ('0' ≤ c ∧ c ≤ '9')

/-- The first of several items with a property. -/
def IsFirst {α : Type} (items : List α) (property : α → Prop) (item : α) : Prop :=
  property item ∧ ∃ before after, items = before ++ item :: after ∧
    ∀ other ∈ before, ¬property other

/-- The last of several items with a property. -/
def IsLast {α : Type} (items : List α) (property : α → Prop) (item : α) : Prop :=
  property item ∧ ∃ before after, items = before ++ item :: after ∧
    ∀ other ∈ after, ¬property other

/-- The rules of validation. -/
inductive Rule where
  /-- Names are identifiers. -/
  | identifier
  /-- Reserved ranges hold a number. -/
  | rangeNotEmpty
  /-- A path is declared once. -/
  | pathOnce
  /-- Tags are field numbers. -/
  | tagLegal
  /-- Tags are not those that the wire format keeps. -/
  | tagNotKept
  /-- The members of a type have different numbers. -/
  | numberOnce
  /-- The members of a type have different names. -/
  | nameOnce
  /-- No number in use is reserved. -/
  | numberFree
  /-- No name in use is reserved. -/
  | nameFree
  /-- The members of a oneof are fields. -/
  | oneofMember
  /-- The types of fields are known. -/
  | typeKnown
  deriving DecidableEq, Repr

end Validation

/-- The rule that is violated. -/
def Violation.rule : Violation → Validation.Rule
  | invalidName _ _ => .identifier
  | emptyRange _ => .rangeNotEmpty
  | duplicatePath => .pathOnce
  | tagOutOfRange _ _ => .tagLegal
  | tagOfImplementation _ _ => .tagNotKept
  | tagInUse _ _ _ | valueInUse _ _ _ => .numberOnce
  | fieldRepeated _ | constantRepeated _ => .nameOnce
  | tagReserved _ _ _ | valueReserved _ _ _ => .numberFree
  | fieldNameReserved _ | constantNameReserved _ => .nameFree
  | unknownOneofMember _ _ => .oneofMember
  | unresolvedType _ _ => .typeKnown

/-- What the local name of a type is the name of. -/
def TypeDef.nameRole : TypeDef → NameRole
  | message _ => .message
  | enum _ => .enum

namespace Validation

/-- What is wrong with a field of a message with the given reservations; `earlier` are the fields
before it. A tag in use is reported with the last of them that has it. -/
inductive FieldFault (reserved : Reservations) (earlier : List Field) (field : Field) :
    Violation → Prop where
  | name (h : ¬IsIdentifier field.name) :
      FieldFault reserved earlier field (.invalidName .field field.name)
  | tagOutOfRange (h : ¬(1 ≤ field.tag.toNat ∧ field.tag.toNat ≤ 536870911)) :
      FieldFault reserved earlier field (.tagOutOfRange field.name field.tag)
  | tagOfImplementation (hlow : 19000 ≤ field.tag.toNat) (hhigh : field.tag.toNat ≤ 19999) :
      FieldFault reserved earlier field (.tagOfImplementation field.name field.tag)
  | tagInUse (holder : Field) (h : IsLast earlier (fun other => other.tag = field.tag) holder) :
      FieldFault reserved earlier field (.tagInUse field.name field.tag holder.name)
  | nameInUse (h : ∃ other ∈ earlier, other.name = field.name) :
      FieldFault reserved earlier field (.fieldRepeated field.name)
  | tagReserved (range : ReservedRange)
      (h : IsFirst reserved.ranges
        (fun other => other.start.toInt ≤ field.tag.toNat ∧ field.tag.toNat ≤ other.stop.toInt)
        range) :
      FieldFault reserved earlier field (.tagReserved field.name field.tag range)
  | nameReserved (h : field.name ∈ reserved.names) :
      FieldFault reserved earlier field (.fieldNameReserved field.name)

/-- What is wrong with a constant of an enum; `earlier` are the constants before it. -/
inductive ConstantFault (enumType : EnumType) (earlier : List EnumConstant)
    (constant : EnumConstant) : Violation → Prop where
  | name (h : ¬IsIdentifier constant.name) :
      ConstantFault enumType earlier constant (.invalidName .constant constant.name)
  | valueInUse (holder : EnumConstant) (halias : enumType.allowAlias = false)
      (h : IsLast earlier (fun other => other.value = constant.value) holder) :
      ConstantFault enumType earlier constant
        (.valueInUse constant.name constant.value holder.name)
  | nameInUse (h : ∃ other ∈ earlier, other.name = constant.name) :
      ConstantFault enumType earlier constant (.constantRepeated constant.name)
  | valueReserved (range : ReservedRange)
      (h : IsFirst enumType.reserved.ranges
        (fun other => other.start.toInt ≤ constant.value.toInt ∧
          constant.value.toInt ≤ other.stop.toInt) range) :
      ConstantFault enumType earlier constant (.valueReserved constant.name constant.value range)
  | nameReserved (h : constant.name ∈ enumType.reserved.names) :
      ConstantFault enumType earlier constant (.constantNameReserved constant.name)

/-- A part of a type: the type as a whole, or what stands at a place of one of its lists. -/
inductive TypePart where
  | whole
  | range (place : Nat)
  | member (place : Nat)
  | oneof (place : Nat)
  | oneofMember (oneof place : Nat)
  deriving DecidableEq, Repr

/-- What is wrong with the parts of a type. -/
inductive TypeFault : TypeDef → TypePart → Violation → Prop where
  | name {definition : TypeDef} (h : ¬IsIdentifier definition.localName) :
      TypeFault definition .whole (.invalidName definition.nameRole definition.localName)
  | emptyRange {definition : TypeDef} {place : Nat} {range : ReservedRange}
      (hrange : definition.memberSet.reserved.ranges[place]? = some range)
      (hempty : range.stop.toInt < range.start.toInt) :
      TypeFault definition (.range place) (.emptyRange range)
  | field {message : MessageType} {place : Nat} {field : Field} {violation : Violation}
      (hfield : message.fields[place]? = some field)
      (hfault : FieldFault message.reserved (message.fields.take place) field violation) :
      TypeFault (.message message) (.member place) violation
  | constant {enumType : EnumType} {place : Nat} {constant : EnumConstant} {violation : Violation}
      (hconstant : enumType.constants[place]? = some constant)
      (hfault : ConstantFault enumType (enumType.constants.take place) constant violation) :
      TypeFault (.enum enumType) (.member place) violation
  | oneofName {message : MessageType} {place : Nat} {oneof : OneofGroup}
      (honeof : message.oneofs[place]? = some oneof) (hname : ¬IsIdentifier oneof.name) :
      TypeFault (.message message) (.oneof place) (.invalidName .oneof oneof.name)
  | oneofMember {message : MessageType} {place : Nat} {oneof : OneofGroup} {entry : Nat}
      {member : String} (honeof : message.oneofs[place]? = some oneof)
      (hmember : oneof.members[entry]? = some member)
      (hnone : ∀ field ∈ message.fields, field.name ≠ member) :
      TypeFault (.message message) (.oneofMember place entry)
        (.unknownOneofMember oneof.name member)

/-- A part of a schema: a segment of the package of a file, a path, or a part of a type. Types are
given by their places among the declarations, at every nesting level. -/
inductive Part where
  | segment (file place : Nat)
  | path (path : String)
  | type (declaration : Nat) (part : TypePart)
  deriving DecidableEq, Repr

/-- What is wrong with the parts of a schema. The types of fields are seen from their messages, and
only if no path is declared more than once. -/
inductive Fault (tree : SchemaTree) : Part → Issue → Prop where
  | segment {n place : Nat} {file : SchemaFile} {segment : String}
      (hfile : tree.files[n]? = some file) (hsegment : file.package[place]? = some segment)
      (h : ¬IsIdentifier segment) :
      Fault tree (.segment n place) ⟨file.path, .invalidName .packageSegment segment⟩
  | path {path : String} (h : 1 < (tree.declarations.map (·.path)).count path) :
      Fault tree (.path path) ⟨path, .duplicatePath⟩
  | inType {n : Nat} {declaration : Declaration} {part : TypePart} {violation : Violation}
      (hdeclared : tree.declarations[n]? = some declaration)
      (hfault : TypeFault declaration.definition part violation) :
      Fault tree (.type n part) ⟨declaration.path, violation⟩
  | reference {n place : Nat} {declaration : Declaration} {message : MessageType} {field : Field}
      {index : TypeIndex} (hpaths : (tree.declarations.map (·.path)).Nodup)
      (hindex : TypeIndex.build tree = .ok index)
      (hdeclared : tree.declarations[n]? = some declaration)
      (hmessage : declaration.definition = .message message)
      (hfield : message.fields[place]? = some field)
      (hunknown : ¬index.Resolves declaration.path field.typeName) :
      Fault tree (.type n (.member place))
        ⟨declaration.path, .unresolvedType field.name field.typeName⟩

/-- A character is found to begin an identifier exactly when it may. -/
theorem isIdentifierStart_iff {c : Char} : isIdentifierStart c = true ↔ BeginsIdentifier c := by
  have hstart : isIdentifierStart c =
      (decide ('A' ≤ c ∧ c ≤ 'Z') || (decide ('a' ≤ c) && decide (c ≤ 'z')) || c == '_') := rfl
  simp only [hstart, BeginsIdentifier, Bool.or_eq_true, Bool.and_eq_true, decide_eq_true_eq,
    beq_iff_eq, or_assoc]

/-- The digits are the ten ASCII ones. -/
theorem isDigit_iff {c : Char} : c.isDigit = true ↔ '0' ≤ c ∧ c ≤ '9' := by
  simp only [Char.isDigit, Bool.and_eq_true, decide_eq_true_eq]
  rfl

/-- A name is found to be an identifier exactly when it is one. -/
theorem isIdentifier_iff {name : String} : isIdentifier name = true ↔ IsIdentifier name := by
  unfold isIdentifier IsIdentifier
  cases name.toList with
  | nil => simp
  | cons first rest => simp [isIdentifierStart_iff, isDigit_iff]

/-- A search finds the first item with a property. -/
theorem find?_eq_some_iff_isFirst {α : Type} {p : α → Bool} {items : List α} {item : α} :
    items.find? p = some item ↔ IsFirst items (fun other => p other = true) item := by
  simp [IsFirst, List.find?_eq_some_iff_append]

/-- The last item with a property is the first from the end. -/
theorem isLast_iff_isFirst_reverse {α : Type} {p : α → Prop} {items : List α} {item : α} :
    IsLast items p item ↔ IsFirst items.reverse p item := by
  refine and_congr_right fun _ => ?_
  constructor
  · rintro ⟨before, after, rfl, hafter⟩
    exact ⟨after.reverse, before.reverse, by simp, by simpa using hafter⟩
  · rintro ⟨after, before, hsplit, hafter⟩
    refine ⟨before.reverse, after.reverse, ?_, by simpa using hafter⟩
    simpa using congrArg List.reverse hsplit

/-- A search from the end finds the last item with a property. -/
theorem mem_find?_reverse_toList {α : Type} {p : α → Bool} {items : List α} {item : α} :
    item ∈ (items.reverse.find? p).toList ↔ IsLast items (fun other => p other = true) item := by
  rw [Option.mem_toList, find?_eq_some_iff_isFirst, isLast_iff_isFirst_reverse]

/-- A name violates the rule for names exactly when it is no identifier. -/
theorem mem_nameViolations {role : NameRole} {name : String} {violation : Violation} :
    violation ∈ nameViolations role name ↔
      ¬IsIdentifier name ∧ violation = .invalidName role name := by
  rw [nameViolations, ← isIdentifier_iff]
  cases isIdentifier name <;> simp

/-- A tag violates a rule for tags exactly when it is no field number or kept for the wire
format. -/
theorem mem_tagViolations {field : Field} {violation : Violation} :
    violation ∈ tagViolations field ↔
      (¬(1 ≤ field.tag.toNat ∧ field.tag.toNat ≤ 536870911) ∧
        violation = .tagOutOfRange field.name field.tag) ∨
      ((19000 ≤ field.tag.toNat ∧ field.tag.toNat ≤ 19999) ∧
        violation = .tagOfImplementation field.name field.tag) := by
  have hmost : maxFieldTag = 536870911 := rfl
  have hfirst : firstImplementationTag = 19000 := rfl
  have hlast : lastImplementationTag = 19999 := rfl
  unfold tagViolations
  by_cases hlegal : 1 ≤ field.tag.toNat ∧ field.tag.toNat ≤ 536870911
  · rw [if_neg (by omega)]
    by_cases hkept : 19000 ≤ field.tag.toNat ∧ field.tag.toNat ≤ 19999
    · rw [if_pos (by omega), List.mem_singleton]
      simp [hlegal, hkept]
    · rw [if_neg (by omega)]
      simp [hlegal, hkept]
  · have hkept : ¬(19000 ≤ field.tag.toNat ∧ field.tag.toNat ≤ 19999) := by omega
    rw [if_pos (by omega), List.mem_singleton]
    simp [hlegal, hkept]

/-- The range that an issue names is the first one that holds the number. -/
theorem mem_rangeContaining?_toList {reserved : Reservations} {number : Int}
    {range : ReservedRange} :
    range ∈ (reserved.rangeContaining? number).toList ↔ IsFirst reserved.ranges
      (fun other => other.start.toInt ≤ number ∧ number ≤ other.stop.toInt) range := by
  rw [Option.mem_toList, Reservations.rangeContaining?, find?_eq_some_iff_isFirst]
  simp only [ReservedRange.contains_iff]

/-- The violations of a field, with what the searches find as lists. -/
theorem fieldViolations_eq (reserved : Reservations) (earlier : List Field) (field : Field) :
    fieldViolations reserved earlier field =
      nameViolations .field field.name ++ tagViolations field ++
      (earlier.find? fun other => other.tag = field.tag).toList.map
        (fun holder => Violation.tagInUse field.name field.tag holder.name) ++
      (if earlier.any fun other => other.name = field.name then
        [Violation.fieldRepeated field.name] else []) ++
      (reserved.rangeContaining? field.tag.toNat).toList.map
        (Violation.tagReserved field.name field.tag) ++
      (if reserved.reservesName field.name then [Violation.fieldNameReserved field.name]
        else []) := by
  unfold fieldViolations
  cases earlier.find? fun other => other.tag = field.tag <;>
    cases reserved.rangeContaining? field.tag.toNat <;> rfl

/-- The check of a field after earlier ones finds exactly its faults. -/
theorem mem_fieldViolations {reserved : Reservations} {earlier : List Field} {field : Field}
    {violation : Violation} :
    violation ∈ fieldViolations reserved earlier.reverse field ↔
      FieldFault reserved earlier field violation := by
  simp only [fieldViolations_eq, List.mem_append, mem_nameViolations, mem_tagViolations,
    List.mem_map, mem_find?_reverse_toList, mem_rangeContaining?_toList, List.mem_ite_nil_right,
    List.mem_singleton, List.any_eq_true, List.mem_reverse, decide_eq_true_eq,
    Reservations.reservesName_iff]
  constructor
  · rintro (((((⟨h, rfl⟩ | ⟨h, rfl⟩ | ⟨h, rfl⟩) | ⟨holder, h, rfl⟩) | ⟨h, rfl⟩) | ⟨range, h, rfl⟩) |
      ⟨h, rfl⟩)
    · exact .name h
    · exact .tagOutOfRange h
    · exact .tagOfImplementation h.1 h.2
    · exact .tagInUse holder h
    · exact .nameInUse h
    · exact .tagReserved range h
    · exact .nameReserved h
  · intro h
    cases h with
    | name h => simp [h]
    | tagOutOfRange h => simp [h]
    | tagOfImplementation hlow hhigh => simp [hlow, hhigh]
    | tagInUse holder h => simpa using ⟨holder, h, rfl⟩
    | nameInUse h => simp [h]
    | tagReserved range h => simpa using h
    | nameReserved h => simp [h]

/-- The check of a field finds at most one violation of each rule. -/
theorem nodup_rules_fieldViolations {reserved : Reservations} {earlier : List Field}
    {field : Field} : ((fieldViolations reserved earlier field).map Violation.rule).Nodup := by
  suffices hrules : ((fieldViolations reserved earlier field).map Violation.rule).Sublist
      ([Rule.identifier] ++ [Rule.tagLegal, Rule.tagNotKept] ++ [Rule.numberOnce] ++
        [Rule.nameOnce] ++ [Rule.numberFree] ++ [Rule.nameFree]) from hrules.nodup (by decide)
  simp only [fieldViolations_eq, List.map_append]
  refine .append (.append (.append (.append (.append ?_ ?_) ?_) ?_) ?_) ?_
  · unfold nameViolations
    split <;> simp [Violation.rule]
  · unfold tagViolations
    dsimp only
    split
    · simp [Violation.rule]
    · split <;> simp [Violation.rule]
  · cases earlier.find? _ <;> simp [Violation.rule]
  · split <;> simp [Violation.rule]
  · cases reserved.rangeContaining? _ <;> simp [Violation.rule]
  · split <;> simp [Violation.rule]

/-- The violations of a constant, with what the searches find as lists. -/
theorem constantViolations_eq (enumType : EnumType) (earlier : List EnumConstant)
    (constant : EnumConstant) :
    constantViolations enumType earlier constant =
      nameViolations .constant constant.name ++
      (if enumType.allowAlias then [] else
        (earlier.find? fun other => other.value = constant.value).toList.map
          fun holder => Violation.valueInUse constant.name constant.value holder.name) ++
      (if earlier.any fun other => other.name = constant.name then
        [Violation.constantRepeated constant.name] else []) ++
      (enumType.reserved.rangeContaining? constant.value.toInt).toList.map
        (Violation.valueReserved constant.name constant.value) ++
      (if enumType.reserved.reservesName constant.name then
        [Violation.constantNameReserved constant.name] else []) := by
  unfold constantViolations
  cases earlier.find? fun other => other.value = constant.value <;>
    cases enumType.reserved.rangeContaining? constant.value.toInt <;>
      cases enumType.allowAlias <;> rfl

/-- The check of a constant after earlier ones finds exactly its faults. -/
theorem mem_constantViolations {enumType : EnumType} {earlier : List EnumConstant}
    {constant : EnumConstant} {violation : Violation} :
    violation ∈ constantViolations enumType earlier.reverse constant ↔
      ConstantFault enumType earlier constant violation := by
  simp only [constantViolations_eq, List.mem_append, mem_nameViolations,
    List.mem_ite_nil_left, List.mem_map, mem_find?_reverse_toList, mem_rangeContaining?_toList,
    List.mem_ite_nil_right, List.mem_singleton, List.any_eq_true, List.mem_reverse,
    decide_eq_true_eq, Reservations.reservesName_iff]
  constructor
  · rintro ((((⟨h, rfl⟩ | ⟨halias, holder, h, rfl⟩) | ⟨h, rfl⟩) | ⟨range, h, rfl⟩) | ⟨h, rfl⟩)
    · exact .name h
    · exact .valueInUse holder (by simpa using halias) h
    · exact .nameInUse h
    · exact .valueReserved range h
    · exact .nameReserved h
  · intro h
    cases h with
    | name h => simp [h]
    | valueInUse holder halias h => simpa [halias] using ⟨holder, h, rfl⟩
    | nameInUse h => simp [h]
    | valueReserved range h => simpa using h
    | nameReserved h => simp [h]

/-- The check of a constant finds at most one violation of each rule. -/
theorem nodup_rules_constantViolations {enumType : EnumType} {earlier : List EnumConstant}
    {constant : EnumConstant} :
    ((constantViolations enumType earlier constant).map Violation.rule).Nodup := by
  suffices hrules : ((constantViolations enumType earlier constant).map Violation.rule).Sublist
      ([Rule.identifier] ++ [Rule.numberOnce] ++ [Rule.nameOnce] ++ [Rule.numberFree] ++
        [Rule.nameFree]) from hrules.nodup (by decide)
  simp only [constantViolations_eq, List.map_append]
  refine .append (.append (.append (.append ?_ ?_) ?_) ?_) ?_
  · unfold nameViolations
    split <;> simp [Violation.rule]
  · cases earlier.find? _ <;> split <;> simp [Violation.rule]
  · split <;> simp [Violation.rule]
  · cases enumType.reserved.rangeContaining? _ <;> simp [Violation.rule]
  · split <;> simp [Violation.rule]

end Validation

end SchemaGate
