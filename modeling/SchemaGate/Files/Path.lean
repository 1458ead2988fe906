import SchemaGate.Text.Split

/-!
# Paths

A path is a text of names between slashes. Repeated slashes, a slash at the end and single dots do
not count as names.
-/

namespace SchemaGate.Path

/-- A path followed by a name. -/
def join (path name : String) : String :=
  if path.isEmpty ∨ Text.endsWith ['/'] path.toList then path ++ name else path ++ "/" ++ name

/-- The names of a path. -/
def names (path : String) : List String :=
  (Text.segments '/' path).filter fun name => name ≠ "."

/-- The last name of a path, unless it points to the directory above. -/
def fileName? (path : String) : Option String :=
  (names path).getLast?.filter fun name => name ≠ ".."

/-- What follows the last dot of a name, unless the name begins with its only dot. -/
def extensionOfName? (name : String) : Option String :=
  match Text.cutLast? '.' name.toList with
  | some (before, after) => if before.isEmpty then none else some (String.ofList after)
  | none => none

/-- The extension of the last name of a path. -/
def extension? (path : String) : Option String :=
  (fileName? path).bind extensionOfName?

end SchemaGate.Path
