/-!
# Findings

A finding is one detected violation of compatibility. Its code is stable text that configuration
files and reports use. The main statement is `FindingKind.ofCode?_eq_some_iff`: a text is the code
of a kind exactly when the kind prints as it.
-/

namespace SchemaGate

/-- The kinds of violation. -/
inductive FindingKind where
  | removedType
  | removedField
  | tagConflict
  | reservedTagReuse
  | removedEnumConstant
  | valueConflict
  | reservedValueReuse
  | reservedNameReuse
  deriving DecidableEq, Repr, Inhabited

namespace FindingKind

/-- All kinds, in the order in which they are registered. -/
def all : List FindingKind :=
  [removedType, removedField, tagConflict, reservedTagReuse, removedEnumConstant, valueConflict,
   reservedValueReuse, reservedNameReuse]

/-- The stable code of a kind. -/
def code : FindingKind → String
  | removedType => "REMOVED_TYPE"
  | removedField => "REMOVED_FIELD"
  | tagConflict => "TAG_CONFLICT"
  | reservedTagReuse => "RESERVED_TAG_REUSE"
  | removedEnumConstant => "REMOVED_ENUM_CONSTANT"
  | valueConflict => "VALUE_CONFLICT"
  | reservedValueReuse => "RESERVED_VALUE_REUSE"
  | reservedNameReuse => "RESERVED_NAME_REUSE"

/-- The kind of a code. -/
def ofCode? (text : String) : Option FindingKind :=
  all.find? fun kind => kind.code = text

/-- Reading the code of a kind gives the kind back. -/
@[simp] theorem ofCode?_code (kind : FindingKind) : ofCode? kind.code = some kind := by
  cases kind <;> decide

/-- A text is the code of a kind exactly when the kind prints as it. -/
theorem ofCode?_eq_some_iff {text : String} {kind : FindingKind} :
    ofCode? text = some kind ↔ kind.code = text := by
  constructor
  · intro h
    simpa using List.find?_some h
  · rintro rfl
    exact ofCode?_code kind

end FindingKind

/-- How grave a finding is. Only errors block. -/
inductive Severity where
  | info
  | warn
  | error
  deriving DecidableEq, Repr, Inhabited

namespace Severity

/-- The word for a severity. -/
def text : Severity → String
  | info => "info"
  | warn => "warn"
  | error => "error"

/-- The severity of a word. -/
def ofText? (text : String) : Option Severity :=
  [info, warn, error].find? fun severity => severity.text = text

end Severity

/-- One detected violation: its kind, the type it is about, the field or constant and its number if
it is about one, an explanation, the two compared values if there are any, and the file in which
the type was declared. -/
structure Finding where
  kind : FindingKind
  severity : Severity := .error
  typePath : String
  member : Option String := none
  number : Option Int := none
  message : String
  expected : Option String := none
  actual : Option String := none
  file : Option String := none
  deriving DecidableEq, Repr, Inhabited

namespace Finding

/-- The finding about one member of the type. -/
def aboutMember (finding : Finding) (member : String) (number : Int) : Finding :=
  { finding with member := some member, number := some number }

/-- The finding with the values that were compared. -/
def comparing (finding : Finding) (expected actual : String) : Finding :=
  { finding with expected := some expected, actual := some actual }

/-- The finding at the file that declares the type. -/
def inFile (finding : Finding) (file : String) : Finding :=
  { finding with file := some file }

/-- The finding on one line: its code, the path of the type and the member, and the explanation. -/
def text (finding : Finding) : String :=
  "[" ++ finding.kind.code ++ "] " ++ finding.typePath ++
    (match finding.member with
      | some member => "." ++ member
      | none => "") ++
    ": " ++ finding.message

end Finding

end SchemaGate
