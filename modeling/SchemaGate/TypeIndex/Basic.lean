import SchemaGate.NameMap
import SchemaGate.Schema.Path

/-!
# The index of types

A type index maps the qualified paths of a schema to their definitions, in order of path. It exists
only if no two types share a path. The main statement is `add_eq_ok_iff`: a declaration can be
added exactly when its path is new.
-/

namespace SchemaGate

/-- Two types of a schema have the same qualified path. -/
structure DuplicatePath where
  path : String
  deriving DecidableEq, Repr

/-- What the index holds under a path. -/
structure TypeEntry where
  definition : TypeDef
  file : String
  deriving DecidableEq, Repr, Inhabited

/-- The types of a schema by qualified path. -/
structure TypeIndex where
  types : NameMap TypeEntry := {}

namespace TypeIndex

/-- The type under a path. -/
def find? (index : TypeIndex) (path : String) : Option TypeEntry :=
  index.types.find? path

/-- Whether a path is that of a type. -/
def contains (index : TypeIndex) (path : String) : Bool :=
  index.types.contains path

/-- The message under a path. -/
def message? (index : TypeIndex) (path : String) : Option MessageType :=
  match index.find? path with
  | some ⟨.message definition, _⟩ => some definition
  | _ => none

/-- The enum under a path. -/
def enum? (index : TypeIndex) (path : String) : Option EnumType :=
  match index.find? path with
  | some ⟨.enum definition, _⟩ => some definition
  | _ => none

/-- The paths in order. -/
def paths (index : TypeIndex) : List String :=
  index.types.names

/-- The paths in order, each with its type. -/
def entries (index : TypeIndex) : List (String × TypeEntry) :=
  index.types.entries

/-- How many types the index holds. -/
def size (index : TypeIndex) : Nat :=
  index.types.size

/-- Add a declaration, whose path must be new. -/
def add (index : TypeIndex) (declaration : Declaration) : Except DuplicatePath TypeIndex :=
  if index.contains declaration.path then .error ⟨declaration.path⟩
  else .ok ⟨index.types.insert declaration.path ⟨declaration.definition, declaration.file⟩⟩

/-- Add declarations in order, stopping at the first whose path is there already. -/
def addAll (index : TypeIndex) (declarations : List Declaration) :
    Except DuplicatePath TypeIndex :=
  declarations.foldlM add index

/-- The index of a schema, or the first path that repeats an earlier one. -/
def build (tree : SchemaTree) : Except DuplicatePath TypeIndex :=
  addAll {} tree.declarations

/-- A declaration can be added exactly when its path is new. -/
theorem add_eq_ok_iff {index result : TypeIndex} {declaration : Declaration} :
    index.add declaration = .ok result ↔
      index.contains declaration.path = false ∧
        result = ⟨index.types.insert declaration.path
          ⟨declaration.definition, declaration.file⟩⟩ := by
  unfold add
  cases index.contains declaration.path <;> simp [eq_comm]

end TypeIndex

end SchemaGate
