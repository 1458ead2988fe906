import SchemaGate.Text.Blank
import SchemaGate.TypeIndex.Basic

/-!
# Type references

A field names its type by a reference, which is looked up from the message that holds the field. A
reference that begins with a dot is a full path. Any other reference is looked up in the scopes
around the field, innermost first; the first segment of a dotted reference decides the scope, and
the rest must be found under it.
-/

namespace SchemaGate

/-- The names of the scalar types, which need no declaration. -/
def scalarTypes : List String :=
  ["double", "float", "int32", "int64", "uint32", "uint64", "sint32", "sint64",
   "fixed32", "fixed64", "sfixed32", "sfixed64", "bool", "string", "bytes"]

/-- The scopes around a place, from the place itself out to the root. -/
def enclosingScopes (scope : String) : List String :=
  let parts := Text.segments '.' scope
  (List.range (parts.length + 1)).reverse.map fun depth => Text.join "." (parts.take depth)

/-- The key and value types of a map reference `map<K, V>`, with blanks around the parts ignored. -/
def mapReference? (reference : String) : Option (String × String) := do
  let opened ← Text.dropPrefix? "map<".toList (Text.trim reference.toList)
  let inner ← Text.dropSuffix? ['>'] opened
  let (key, value) ← Text.cutFirst? ',' inner
  pure (String.ofList (Text.trim key), String.ofList (Text.trim value))

namespace TypeIndex

/-- Whether a path is that of a type or of a scope around one. It suffices to look at the first
path that is not below the path followed by a dot. -/
def declares (index : TypeIndex) (path : String) : Bool :=
  index.contains path ||
    match index.types.firstFrom? (path ++ ".") with
    | some name => Text.startsWith (path ++ ".").toList name.toList
    | none => false

/-- The innermost place around a scope at which a name is declared. -/
def anchor? (index : TypeIndex) (name scope : String) : Option String :=
  ((enclosingScopes scope).map fun outer => qualify outer name).find? index.declares

/-- A path if it is that of a type. -/
def known? (index : TypeIndex) (path : String) : Option String :=
  if index.contains path then some path else none

/-- The path that a reference stands for, seen from a scope. Scalar types stand for themselves. -/
def resolve? (index : TypeIndex) (reference scope : String) : Option String :=
  let written := Text.trim reference.toList
  if String.ofList written ∈ scalarTypes then some (String.ofList written)
  else
    match Text.dropPrefix? ['.'] written with
    | some absolute => index.known? (String.ofList absolute)
    | none =>
        match Text.cutFirst? '.' written with
        | none =>
            ((enclosingScopes scope).map fun outer => qualify outer (String.ofList written)).find?
              index.contains
        | some (head, rest) =>
            (index.anchor? (String.ofList head) scope).bind fun anchor =>
              index.known? (anchor ++ "." ++ String.ofList rest)

/-- Whether a reference, which may be a map reference, resolves from a scope. -/
def isResolvable (index : TypeIndex) (reference scope : String) : Bool :=
  match mapReference? reference with
  | some (key, value) =>
      (index.resolve? key scope).isSome && (index.resolve? value scope).isSome
  | none => (index.resolve? reference scope).isSome

end TypeIndex

end SchemaGate
