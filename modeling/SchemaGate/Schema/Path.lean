import SchemaGate.Schema.Basic

/-!
# Qualified paths and declarations

Every message and enum has a qualified path: the package, the names of the messages around it and
its own name, joined by dots. `SchemaTree.declarations` lists the types of a schema with their
paths, inner types before the message that holds them. The main statement is
`MessageType.declarationsOfAll_eq_flatMap`, which reads the walk over a list of messages element
by element.
-/

namespace SchemaGate

/-- A local name inside a scope. The root scope is empty and adds nothing. -/
def qualify (scope name : String) : String :=
  if scope = "" then name else scope ++ "." ++ name

/-- What a qualified path stands for. -/
inductive TypeDef where
  | message (definition : MessageType)
  | enum (definition : EnumType)
  deriving DecidableEq, Repr, Inhabited

namespace TypeDef

/-- The word for the kind of a type. -/
def kindName : TypeDef → String
  | message _ => "message"
  | enum _ => "enum"

/-- The word for the kind of a type at the beginning of a sentence. -/
def kindTitle : TypeDef → String
  | message _ => "Message"
  | enum _ => "Enum"

/-- The local name of a type. -/
def localName : TypeDef → String
  | message definition => definition.name
  | enum definition => definition.name

end TypeDef

/-- A type together with its qualified path and the file that declares it. -/
structure Declaration where
  path : String
  definition : TypeDef
  file : String
  deriving DecidableEq, Repr, Inhabited

/-- The declarations of the enums of a scope. -/
def EnumType.declarationsOfAll (file scope : String) (enums : List EnumType) : List Declaration :=
  enums.map fun enumType => ⟨qualify scope enumType.name, .enum enumType, file⟩

namespace MessageType

mutual

/-- The declarations of a message of a scope: its nested messages, then its enums, then itself. -/
def declarations (file scope : String) : MessageType → List Declaration
  | ⟨name, fields, oneofs, messages, enums, reserved⟩ =>
      declarationsOfAll file (qualify scope name) messages ++
        EnumType.declarationsOfAll file (qualify scope name) enums ++
        [⟨qualify scope name, .message ⟨name, fields, oneofs, messages, enums, reserved⟩, file⟩]

/-- The declarations of several messages of a scope, one message after the other. -/
def declarationsOfAll (file scope : String) : List MessageType → List Declaration
  | [] => []
  | message :: messages =>
      declarations file scope message ++ declarationsOfAll file scope messages

end

/-- The walk over a list of messages is the walks over its elements, one after the other. -/
theorem declarationsOfAll_eq_flatMap (file scope : String) (messages : List MessageType) :
    declarationsOfAll file scope messages = messages.flatMap (declarations file scope) := by
  induction messages with
  | nil => rfl
  | cons message messages ih => simp [declarationsOfAll, ih]

end MessageType

/-- The declarations of a file: its messages with everything inside them, then its enums. -/
def SchemaFile.declarations (file : SchemaFile) : List Declaration :=
  MessageType.declarationsOfAll file.path file.packageName file.messages ++
    EnumType.declarationsOfAll file.path file.packageName file.enums

/-- The declarations of a schema, file by file. -/
def SchemaTree.declarations (tree : SchemaTree) : List Declaration :=
  tree.files.flatMap SchemaFile.declarations

end SchemaGate
