import SchemaGate.Descriptor.Tree
import SchemaGate.Files.Tree
import SchemaGate.Lock.Reader
import SchemaGate.Lock.Snapshot
import SchemaGate.TypeIndex.Basic
import SchemaGate.Validation.Issue

/-!
# Load errors

Why a schema cannot be loaded or indexed. A schema with such a fault is never compared with another
one.
-/

namespace SchemaGate

/-- Why a schema cannot be loaded or indexed. -/
inductive LoadError where
  /-- The file cannot be read. -/
  | unreadable (path : String) (cause : FileError)
  /-- The lock file is not UTF-8. -/
  | lockNotText (cause : Text.Utf8.Fault)
  /-- The text is no lock file. -/
  | badLock (cause : Json.DecodeError)
  /-- The lock file has a field whose id is no tag. -/
  | badFieldId (cause : FieldIdError)
  /-- The bytes are no descriptor set of a schema. -/
  | badDescriptors (cause : DescriptorError)
  /-- Two types share a path. -/
  | duplicateType (cause : DuplicatePath)
  /-- The schema has structural faults. -/
  | invalid (issues : List Issue)
  deriving DecidableEq, Repr

namespace LoadError

/-- The error in words. -/
def message : LoadError → String
  | unreadable path cause => "Failed to read " ++ path ++ ": " ++ cause.message
  | lockNotText cause => "Parse error: lock file is not UTF-8: " ++ cause.message
  | badLock cause => "Parse error: " ++ cause.message
  | badFieldId cause => "Parse error: " ++ cause.text
  | badDescriptors cause => "Descriptor decode error: " ++ cause.message
  | duplicateType cause => "Duplicate type path: " ++ cause.path
  | invalid issues => "Invalid schema:\n" ++ Text.join "\n" (issues.map Issue.text)

end LoadError

/-- The result of a step with its fault as a load error. -/
def orLoadError {ε α : Type} (cause : ε → LoadError) : Except ε α → Except LoadError α
  | .ok value => .ok value
  | .error fault => .error (cause fault)

/-- A step that succeeds is not changed. -/
@[simp] theorem orLoadError_ok {ε α : Type} (cause : ε → LoadError) (value : α) :
    orLoadError cause (.ok value) = .ok value := rfl

end SchemaGate
