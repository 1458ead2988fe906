import SchemaGate.Format
import SchemaGate.LoadError
import SchemaGate.Sha256
import SchemaGate.Validation.Basic

/-!
# Loading schemas

A loader reads a schema from bytes, from a file, or from all schema files below a directory, and
validates it unless told not to. The digest of what was loaded is that of all bytes in the order of
reading. The main statement is `Loader.ofBytes_validate`: what is loaded with validation has no
issues.
-/

namespace SchemaGate

/-- How schemas are loaded. -/
structure Loader where
  format : SchemaFormat := .auto
  validate : Bool := true
  deriving DecidableEq, Repr, Inhabited

/-- The path of an input and the digest of its bytes. -/
structure InputDigest where
  path : String
  sha256 : String
  deriving DecidableEq, Repr, Inhabited

/-- The digest of the bytes of an input. -/
def InputDigest.ofBytes (path : String) (bytes : List UInt8) : InputDigest :=
  ⟨path, Sha256.digestText bytes⟩

/-- A loaded schema, the digest of its input, and the paths of the files in the order of reading. -/
structure LoadedSchema where
  tree : SchemaTree
  digest : InputDigest
  sources : List String

/-- The schema of the bytes of a lock file. -/
def LockFile.treeOfBytes (bytes : List UInt8) : Except LoadError SchemaTree := do
  let text ← orLoadError .lockNotText (Text.Utf8.decode bytes)
  let lock ← orLoadError .badLock (LockFile.ofText (String.ofList text))
  orLoadError .badFieldId lock.toTree

/-- The schema of bytes in a format, without validation. -/
def treeOfBytes (format : SchemaFormat) (bytes : List UInt8) : Except LoadError SchemaTree :=
  match format.orSniffed bytes with
  | .lock => LockFile.treeOfBytes bytes
  | _ => orLoadError .badDescriptors (DescriptorSet.treeOfBytes bytes)

namespace Loader

/-- A schema that passes validation, if validation is asked for. -/
def checked (loader : Loader) (tree : SchemaTree) : Except LoadError SchemaTree := do
  if loader.validate then orLoadError .invalid (Validation.validate tree)
  pure tree

/-- Loads a schema from bytes. -/
def ofBytes (loader : Loader) (bytes : List UInt8) : Except LoadError SchemaTree := do
  loader.checked (← treeOfBytes loader.format bytes)

/-- The format in which a file is read. -/
def formatOf (loader : Loader) (path : String) (bytes : List UInt8) : SchemaFormat :=
  match loader.format with
  | .auto => .detect path bytes
  | format => format

/-- The schema files of a path with their bytes: the file itself, or all below a directory. -/
def sources (loader : Loader) (files : FileTree) (path : String) :
    Except LoadError (List (String × List UInt8)) :=
  if files.isDirectory path then
    .ok ((files.filesBelow path).filter fun source => loader.format.accepts source.1)
  else do
    let bytes ← orLoadError (.unreadable path) (files.read path)
    pure [(path, bytes)]

/-- Loads a schema from a file, or from all schema files below a directory. -/
def ofPath (loader : Loader) (files : FileTree) (path : String) :
    Except LoadError LoadedSchema := do
  let sources ← loader.sources files path
  let trees ← sources.mapM fun (source, bytes) => treeOfBytes (loader.formatOf source bytes) bytes
  let tree ← loader.checked (trees.foldl SchemaTree.merge {})
  pure
    { tree
      digest := InputDigest.ofBytes path (sources.flatMap (·.2))
      sources := sources.map (·.1) }

/-- A schema that is loaded with validation has no issues. -/
theorem ofBytes_validate {loader : Loader} (hvalidate : loader.validate = true)
    {bytes : List UInt8} {tree : SchemaTree} (h : loader.ofBytes bytes = .ok tree) :
    Validation.validate tree = .ok () := by
  unfold ofBytes at h
  cases htree : treeOfBytes loader.format bytes with
  | error fault => rw [htree] at h; cases h
  | ok read =>
      rw [htree] at h
      change loader.checked read = .ok tree at h
      unfold checked at h
      rw [if_pos hvalidate] at h
      cases hvalid : Validation.validate read with
      | error fault => rw [hvalid] at h; cases h
      | ok result =>
          rw [hvalid] at h
          cases h
          exact hvalid

end Loader

end SchemaGate
