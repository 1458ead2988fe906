import SchemaGate.Analysis.Comparison
import SchemaGate.TypeIndex.Basic
import SchemaGate.Verdict

/-!
# The findings between two schemas

Types are matched by qualified path. A type of the baseline that is missing, or that is of the other
kind, is removed; otherwise its members are compared. The findings come in order of path, each with
the file in which the baseline declares the type, and without a policy every one of them blocks. The
main statement is `file_eq_of_mem_findingsAt`, which says that no finding is without its file.
-/

namespace SchemaGate

/-- The finding on a type of the baseline that the candidate does not have. -/
def missingType (path : String) (old : TypeDef) : Finding :=
  { kind := .removedType
    typePath := path
    message := old.kindTitle ++ " '" ++ path ++ "' was removed" }

/-- The finding on a type of the baseline that is of the other kind in the candidate. -/
def changedKind (path : String) (old new : TypeDef) : Finding :=
  Finding.comparing
    { kind := .removedType
      typePath := path
      message := old.kindTitle ++ " '" ++ path ++ "' changed kind from " ++ old.kindName ++
        " to " ++ new.kindName }
    old.kindName new.kindName

/-- The findings on one type of the baseline and what the candidate has under its path. -/
def compareTypes (path : String) (old : TypeDef) : Option TypeDef → List Finding
  | none => [missingType path old]
  | some new =>
      match old, new with
      | .message before, .message after =>
          compareMembers .field path before.memberSet after.memberSet
      | .enum before, .enum after =>
          compareMembers .constant path before.memberSet after.memberSet
      | _, _ => [changedKind path old new]

/-- The findings on one entry of the baseline's index. -/
def findingsAt (new : TypeIndex) (path : String) (entry : TypeEntry) : List Finding :=
  (compareTypes path entry.definition ((new.find? path).map (·.definition))).map
    fun finding => finding.inFile entry.file

/-- All findings between a baseline and a candidate. -/
def findings (old new : TypeIndex) : List Finding :=
  old.entries.flatMap fun entry => findingsAt new entry.1 entry.2

/-- The verdict on a candidate when no policy is asked: every finding blocks. -/
def analyze (old new : TypeIndex) : Verdict :=
  { findings := findings old new }

/-- Every finding on an entry names the file of that entry. -/
theorem file_eq_of_mem_findingsAt {new : TypeIndex} {path : String} {entry : TypeEntry}
    {finding : Finding} (h : finding ∈ findingsAt new path entry) :
    finding.file = some entry.file := by
  obtain ⟨bare, _, rfl⟩ := List.mem_map.1 h
  rfl

end SchemaGate
