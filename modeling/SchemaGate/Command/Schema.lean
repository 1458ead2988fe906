import SchemaGate.Command.Check
import SchemaGate.Lock.Written

/-!
# Commands on one schema

The index command lists the types of a schema, and the lock command writes its snapshot.
-/

namespace SchemaGate.Command

open Terminal (Style)

/-- The width of the column of kinds. -/
def kindWidth : Nat := 8

/-- The style of a kind of type. -/
def kindStyle : TypeDef → Style
  | .message _ => .coloured .cyan
  | .enum _ => .coloured .magenta

/-- The line of a type. -/
def typeLine (console : Console) (entry : String × TypeEntry) : String :=
  let kind := Text.padRight kindWidth entry.2.definition.kindName
  (kindStyle entry.2.definition).paint console.colours kind ++ " " ++ entry.1 ++ "  " ++
    Style.paint { dimmed := true } console.colours entry.2.file

/-- The index of the schema at a path. -/
def loadIndex (loader : Loader) (files : FileTree) (path : String) :
    Except LoadError TypeIndex := do
  let schema ← loader.ofPath files path
  orLoadError .duplicateType (TypeIndex.build schema.tree)

/-- Lists the types of a schema. -/
def indexCommand (console : Console) (config : Config) (path : String)
    (format : Option SchemaFormat) (files : FileTree) : Result :=
  let loader := { config.loader with format := format.getD config.loader.format }
  match loadIndex loader files path with
  | .error cause => .failed files [] [] ⟨cause.message, none⟩
  | .ok index =>
      { output :=
          index.entries.map (typeLine console) ++ ["", toString index.size ++ " types"]
        files }

/-- Writes the snapshot of a schema. -/
def lockCommand (console : Console) (config : Config) (verbose : Bool) (path output : String)
    (files : FileTree) : Result :=
  match config.loader.ofPath files path with
  | .error cause => .failed files [] [] ⟨cause.message, none⟩
  | .ok schema =>
      match files.writeText output (LockFile.ofTree schema.tree).text with
      | .error cause => .failed files [] [] (.ofWrite output cause)
      | .ok files =>
          { messages := noteLines console verbose .green "Lock file saved to:" output, files }

end SchemaGate.Command
