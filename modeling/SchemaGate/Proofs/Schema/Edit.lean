import Mathlib.Data.List.Basic
import SchemaGate.Proofs.Schema.Nesting

/-!
# Editing one type of a schema

An edit gives the type at one path new contents, wherever in the schema the type is declared, and
leaves its name, the types inside it and everything else as they are. The main statement is
`SchemaTree.declarations_rewriteAt`, which says that the edited schema declares the same paths in
the same order.
-/

namespace SchemaGate

/-- The contents that an edit gives to a type. Whether an enum allows aliases is not among them. -/
inductive TypeBody where
  | message (fields : List Field) (oneofs : List OneofGroup) (reserved : Reservations)
  | enum (constants : List EnumConstant) (reserved : Reservations)
  deriving DecidableEq, Repr

/-- The message with the contents of a body, unless the body is that of an enum. -/
def MessageType.withBody (message : MessageType) : TypeBody → MessageType
  | .message fields oneofs reserved => { message with fields, oneofs, reserved }
  | .enum _ _ => message

/-- The enum with the contents of a body, unless the body is that of a message. -/
def EnumType.withBody (enumType : EnumType) : TypeBody → EnumType
  | .message _ _ _ => enumType
  | .enum constants reserved => { enumType with constants, reserved }

/-- The type with the contents of a body of its kind. -/
def TypeDef.withBody (body : TypeBody) : TypeDef → TypeDef
  | message definition => message (definition.withBody body)
  | enum definition => enum (definition.withBody body)

/-- The enum declared at `own` after the edit of the type at `path`. -/
def EnumType.rewriteAt (path : String) (body : TypeBody) (own : String) (enumType : EnumType) :
    EnumType :=
  if own = path then enumType.withBody body else enumType

/-- The enums of a scope after the edit of the type at `path`. -/
def EnumType.rewriteAllAt (path : String) (body : TypeBody) (scope : String) :
    List EnumType → List EnumType :=
  List.map fun enumType => enumType.rewriteAt path body (qualify scope enumType.name)

namespace MessageType

mutual

/-- The message declared at `own` after the edit of the type at `path`, which may be the message
itself or a type inside it. -/
def rewriteAt (path : String) (body : TypeBody) (own : String) : MessageType → MessageType
  | ⟨name, fields, oneofs, messages, enums, reserved⟩ =>
      let edited : MessageType :=
        ⟨name, fields, oneofs, rewriteAllAt path body own messages,
          EnumType.rewriteAllAt path body own enums, reserved⟩
      if own = path then edited.withBody body else edited

/-- The messages of a scope after the edit of the type at `path`. -/
def rewriteAllAt (path : String) (body : TypeBody) (scope : String) :
    List MessageType → List MessageType
  | [] => []
  | message :: messages =>
      rewriteAt path body (qualify scope message.name) message ::
        rewriteAllAt path body scope messages

end

end MessageType

/-- The type declared at `own` after the edit of the type at `path`. -/
def TypeDef.rewriteAt (path : String) (body : TypeBody) (own : String) : TypeDef → TypeDef
  | message definition => message (definition.rewriteAt path body own)
  | enum definition => enum (definition.rewriteAt path body own)

/-- The declaration after the edit of the type at `path`. -/
def Declaration.rewriteAt (path : String) (body : TypeBody) (declaration : Declaration) :
    Declaration :=
  { declaration with definition := declaration.definition.rewriteAt path body declaration.path }

/-- The file after the edit of the type at `path`. -/
def SchemaFile.rewriteAt (path : String) (body : TypeBody) (file : SchemaFile) : SchemaFile :=
  { file with
    messages := MessageType.rewriteAllAt path body file.packageName file.messages
    enums := EnumType.rewriteAllAt path body file.packageName file.enums }

/-- The schema after the edit of the type at `path`. -/
def SchemaTree.rewriteAt (tree : SchemaTree) (path : String) (body : TypeBody) : SchemaTree :=
  ⟨tree.files.map (SchemaFile.rewriteAt path body)⟩

variable {path own : String} {body : TypeBody}

/-- A body changes neither the name of a message nor the types inside it. -/
theorem MessageType.withBody_frame (message : MessageType) :
    (message.withBody body).name = message.name ∧
      (message.withBody body).messages = message.messages ∧
      (message.withBody body).enums = message.enums := by
  cases body <;> exact ⟨rfl, rfl, rfl⟩

/-- An edit does not change the name of an enum. -/
theorem EnumType.name_rewriteAt (enumType : EnumType) :
    (enumType.rewriteAt path body own).name = enumType.name := by
  unfold rewriteAt
  split
  · cases body <;> rfl
  · rfl

/-- An edit of the types of a scope is one of each of its messages. -/
theorem MessageType.rewriteAllAt_eq_map (scope : String) (messages : List MessageType) :
    rewriteAllAt path body scope messages =
      messages.map fun message => message.rewriteAt path body (qualify scope message.name) := by
  induction messages with
  | nil => rfl
  | cons message messages ih => rw [rewriteAllAt, ih, List.map_cons]

/-- An edit keeps the name of a message and acts on the types inside it one by one. -/
theorem MessageType.rewriteAt_frame (message : MessageType) :
    (message.rewriteAt path body own).name = message.name ∧
      (message.rewriteAt path body own).messages = rewriteAllAt path body own message.messages ∧
      (message.rewriteAt path body own).enums =
        EnumType.rewriteAllAt path body own message.enums := by
  obtain ⟨name, fields, oneofs, messages, enums, reserved⟩ := message
  rw [rewriteAt]
  split
  · exact withBody_frame _
  · exact ⟨rfl, rfl, rfl⟩

/-- The declarations of the enums of a scope after an edit. -/
theorem EnumType.declarationsOfAll_rewriteAllAt (file scope : String) (enums : List EnumType) :
    declarationsOfAll file scope (rewriteAllAt path body scope enums) =
      (declarationsOfAll file scope enums).map (Declaration.rewriteAt path body) := by
  rw [declarationsOfAll, declarationsOfAll, rewriteAllAt, List.map_map, List.map_map]
  refine List.map_congr_left fun enumType _ => ?_
  simp only [Function.comp_apply, name_rewriteAt]
  rfl

/-- The declarations of a message after an edit. -/
theorem MessageType.declarations_rewriteAt (file scope : String) (message : MessageType) :
    (message.rewriteAt path body (qualify scope message.name)).declarations file scope =
      (message.declarations file scope).map (Declaration.rewriteAt path body) := by
  induction message using MessageType.nested_induction generalizing scope with
  | step message ih =>
      -- The name stays, so the types inside are declared and edited in the same scope.
      obtain ⟨hname, hmessages, henums⟩ := @rewriteAt_frame path (qualify scope message.name) body
        message
      rw [declarations_eq, declarations_eq, hname, hmessages, henums, rewriteAllAt_eq_map,
        EnumType.declarationsOfAll_rewriteAllAt, List.map_append, List.map_append,
        List.map_flatMap, List.flatMap_map]
      congr 2
      exact List.flatMap_congr fun nested hnested => ih nested hnested _

/-- The edited schema declares the same paths in the same order, each with the edited type. -/
theorem SchemaTree.declarations_rewriteAt (tree : SchemaTree) (path : String) (body : TypeBody) :
    (tree.rewriteAt path body).declarations =
      tree.declarations.map (Declaration.rewriteAt path body) := by
  rw [declarations, declarations, rewriteAt, List.flatMap_map, List.map_flatMap]
  refine List.flatMap_congr fun file _ => ?_
  rw [SchemaFile.declarations, SchemaFile.declarations, SchemaFile.rewriteAt,
    MessageType.declarationsOfAll_eq_flatMap, MessageType.declarationsOfAll_eq_flatMap,
    MessageType.rewriteAllAt_eq_map, List.map_append, List.flatMap_map, List.map_flatMap]
  congr 1
  · exact List.flatMap_congr fun message _ => MessageType.declarations_rewriteAt _ _ message
  · exact EnumType.declarationsOfAll_rewriteAllAt _ _ _

end SchemaGate
