import SchemaGate.TypeIndex.Reference
import SchemaGate.Validation.Issue

/-!
# Load-time validation

A schema is checked as a whole and every violation is listed. The checks go through the schema from
outside in: a message comes before what is declared inside it. `subjects` is that walk,
`localIssues` are the checks that look at one subject alone, and `issuesOf` adds the check that no
path occurs twice, which is reported where it occurs for the second time. If all paths differ, every
field's type must resolve as well. The main statement is `validate_eq_ok_iff`.
-/

namespace SchemaGate.Validation

/-- Whether a character may begin an identifier. -/
def isIdentifierStart (c : Char) : Bool :=
  c.isAlpha || c == '_'

/-- Whether a name is an ASCII letter or underscore followed by ASCII letters, digits and
underscores. -/
def isIdentifier (name : String) : Bool :=
  match name.toList with
  | [] => false
  | c :: rest => isIdentifierStart c && rest.all fun d => isIdentifierStart d || d.isDigit

/-- What the walk through a schema meets. -/
inductive Subject where
  | package (file : String) (segments : List String)
  | message (path : String) (definition : MessageType)
  | enum (path : String) (definition : EnumType)

/-- The qualified path that a subject declares. -/
def Subject.path? : Subject → Option String
  | package _ _ => none
  | message path _ => some path
  | enum path _ => some path

/-- The enums of a scope as subjects. -/
def enumSubjects (scope : String) (enums : List EnumType) : List Subject :=
  enums.map fun enumType => .enum (qualify scope enumType.name) enumType

mutual

/-- A message of a scope as subject, then its nested messages, then its enums. -/
def messageSubjects (scope : String) : MessageType → List Subject
  | ⟨name, fields, oneofs, messages, enums, reserved⟩ =>
      .message (qualify scope name) ⟨name, fields, oneofs, messages, enums, reserved⟩ ::
        (allMessageSubjects (qualify scope name) messages ++
          enumSubjects (qualify scope name) enums)

/-- The messages of a scope as subjects, one after the other. -/
def allMessageSubjects (scope : String) : List MessageType → List Subject
  | [] => []
  | message :: messages => messageSubjects scope message ++ allMessageSubjects scope messages

end

/-- A file's package, its messages and its enums as subjects. -/
def fileSubjects (file : SchemaFile) : List Subject :=
  .package file.path file.package ::
    (allMessageSubjects file.packageName file.messages ++ enumSubjects file.packageName file.enums)

/-- The walk through a schema. -/
def subjects (tree : SchemaTree) : List Subject :=
  tree.files.flatMap fileSubjects

/-- A name must be an identifier. -/
def nameViolations (role : NameRole) (name : String) : List Violation :=
  if isIdentifier name then [] else [.invalidName role name]

/-- Reserved ranges must not be empty. -/
def rangeViolations (reserved : Reservations) : List Violation :=
  (reserved.ranges.filter ReservedRange.isEmpty).map .emptyRange

/-- A tag must be a field number that the wire format does not keep for itself. -/
def tagViolations (field : Field) : List Violation :=
  let tag : Int := field.tag.toNat
  if tag < 1 ∨ maxFieldTag < tag then [.tagOutOfRange field.name field.tag]
  else if firstImplementationTag ≤ tag ∧ tag ≤ lastImplementationTag then
    [.tagOfImplementation field.name field.tag]
  else []

/-- What one field of a message violates; `earlier` are the fields before it, the nearest first. -/
def fieldViolations (reserved : Reservations) (earlier : List Field) (field : Field) :
    List Violation :=
  nameViolations .field field.name ++
  tagViolations field ++
  (match earlier.find? fun other => other.tag = field.tag with
    | some other => [.tagInUse field.name field.tag other.name]
    | none => []) ++
  (if earlier.any fun other => other.name = field.name then [.fieldRepeated field.name] else []) ++
  (match reserved.rangeContaining? field.tag.toNat with
    | some range => [.tagReserved field.name field.tag range]
    | none => []) ++
  (if reserved.reservesName field.name then [.fieldNameReserved field.name] else [])

/-- What the fields of a message violate; `earlier` are the fields before them, the nearest
first. -/
def fieldsViolations (reserved : Reservations) (earlier : List Field) :
    List Field → List Violation
  | [] => []
  | field :: fields =>
      fieldViolations reserved earlier field ++ fieldsViolations reserved (field :: earlier) fields

/-- The members of a oneof must be fields of its message. -/
def oneofViolations (message : MessageType) (oneof : OneofGroup) : List Violation :=
  nameViolations .oneof oneof.name ++
    (oneof.members.filter fun member => (message.field? member).isNone).map
      (.unknownOneofMember oneof.name)

/-- What one constant of an enum violates; `earlier` are the constants before it, the nearest
first. -/
def constantViolations (enumType : EnumType) (earlier : List EnumConstant)
    (constant : EnumConstant) : List Violation :=
  nameViolations .constant constant.name ++
  (match earlier.find? fun other => other.value = constant.value with
    | some other =>
        if enumType.allowAlias then []
        else [.valueInUse constant.name constant.value other.name]
    | none => []) ++
  (if earlier.any fun other => other.name = constant.name then [.constantRepeated constant.name]
    else []) ++
  (match enumType.reserved.rangeContaining? constant.value.toInt with
    | some range => [.valueReserved constant.name constant.value range]
    | none => []) ++
  (if enumType.reserved.reservesName constant.name then [.constantNameReserved constant.name]
    else [])

/-- What the constants of an enum violate; `earlier` are the constants before them, the nearest
first. -/
def constantsViolations (enumType : EnumType) (earlier : List EnumConstant) :
    List EnumConstant → List Violation
  | [] => []
  | constant :: constants =>
      constantViolations enumType earlier constant ++
        constantsViolations enumType (constant :: earlier) constants

/-- The checks that look at one subject alone. -/
def localIssues : Subject → List Issue
  | .package file segments =>
      (segments.flatMap (nameViolations .packageSegment)).map (⟨file, ·⟩)
  | .message path message =>
      (nameViolations .message message.name ++ rangeViolations message.reserved ++
        fieldsViolations message.reserved [] message.fields ++
        message.oneofs.flatMap (oneofViolations message)).map (⟨path, ·⟩)
  | .enum path enumType =>
      (nameViolations .enum enumType.name ++ rangeViolations enumType.reserved ++
        constantsViolations enumType [] enumType.constants).map (⟨path, ·⟩)

/-- A path is reported when it occurs for the second time. -/
def pathIssues (earlier : List String) (subject : Subject) : List Issue :=
  match subject.path? with
  | some path => if earlier.count path = 1 then [⟨path, .duplicatePath⟩] else []
  | none => []

/-- The issues of subjects in the order of the walk; `earlier` are the paths met before. -/
def issuesOf (earlier : List String) : List Subject → List Issue
  | [] => []
  | subject :: others =>
      pathIssues earlier subject ++ localIssues subject ++
        issuesOf (subject.path?.toList ++ earlier) others

/-- The fields of a subject whose types do not resolve. -/
def referenceIssues (index : TypeIndex) : Subject → List Issue
  | .message path message =>
      (message.fields.filter fun field => !index.isResolvable field.typeName path).map fun field =>
        ⟨path, .unresolvedType field.name field.typeName⟩
  | _ => []

/-- Every issue of a schema. Types can be resolved only if the schema can be indexed, that is if all
paths differ. -/
def issues (tree : SchemaTree) : List Issue :=
  issuesOf [] (subjects tree) ++
    match TypeIndex.build tree with
    | .ok index => (subjects tree).flatMap (referenceIssues index)
    | .error _ => []

/-- A schema without issues is valid; any other is refused with all of them. -/
def validate (tree : SchemaTree) : Except (List Issue) Unit :=
  if (issues tree).isEmpty then .ok () else .error (issues tree)

/-- A schema is valid exactly when it has no issue. -/
theorem validate_eq_ok_iff {tree : SchemaTree} : validate tree = .ok () ↔ issues tree = [] := by
  unfold validate
  cases issues tree <;> simp

end SchemaGate.Validation
