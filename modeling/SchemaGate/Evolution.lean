import SchemaGate.Check
import SchemaGate.Config

/-!
# Evolution of a lock file

A lock file follows the releases of a schema: every release is checked against it, and a compatible
one takes its place.
-/

namespace SchemaGate.LockFile

/-- The verdict on a release against a lock file, with the schema of the release. -/
def judgeRelease (config : Config) (lock : LockFile) (release : List UInt8) :
    Except LoadError (Verdict × SchemaTree) := do
  let candidate ← config.loader.ofBytes release
  let baseline ← orLoadError .badFieldId lock.toTree
  let verdict ← orLoadError .duplicateType (check config.policy baseline candidate)
  pure (verdict, candidate)

/-- The lock file after a release has been judged. -/
def next (lock : LockFile) (judged : Except LoadError (Verdict × SchemaTree)) : LockFile :=
  match judged with
  | .ok (verdict, candidate) => if verdict.compatible then ofTree candidate else lock
  | .error _ => lock

/-- The verdict on a release, or why there is none, and the lock file after it. -/
def advance (config : Config) (lock : LockFile) (release : List UInt8) :
    Except LoadError Verdict × LockFile :=
  let judged := judgeRelease config lock release
  (judged.map (·.1), lock.next judged)

/-- The steps of a lock file through a list of releases. -/
def follow (config : Config) (lock : LockFile) :
    List (List UInt8) → List (Except LoadError Verdict × LockFile)
  | [] => []
  | release :: releases =>
      let step := lock.advance config release
      step :: follow config step.2 releases

end SchemaGate.LockFile
