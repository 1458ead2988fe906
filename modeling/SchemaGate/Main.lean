import SchemaGate.Command.Paths
import SchemaGate.Timestamp
import Std.Time

/-!
# The program

`main` looks at the files that a command needs, runs the command on them, writes the files that it
has changed, and prints what it has to say.
-/

namespace SchemaGate.Program

open Command (Console Invocation Result)

/-- The path of a place in the file system. -/
def pathOf (place : List String) : String :=
  "/" ++ Text.join "/" place

/-- Reads a file, or a directory with all that it holds. -/
partial def readNode (path : String) : IO FileNode := do
  let found ← IO.FS.realPath path
  if ← found.isDir then
    let entries ← found.readDir
    let nodes ← entries.toList.mapM fun entry => do
      pure (entry.fileName, ← readNode (Path.join path entry.fileName))
    pure (.directory (nodes.foldl (fun rest node => NameMap.insertEntry node.1 node.2 rest) []))
  else
    let content ← IO.FS.readBinFile path
    pure (.file content.toList)

/-- Adds what is at a place to a tree, if anything is there: all of it, or only whether it is a
directory. -/
def observe (deep : Bool) (root : FileNode) (place : List String) : IO FileNode := do
  let path := pathOf place
  let found ← try some <$> IO.FS.realPath path catch _ => pure none
  match found with
  | none => pure root
  | some found =>
      if !(← found.pathExists) then pure root
      else if deep then pure (root.put place (← readNode path))
      else if (root.at? place).isSome then pure root
      else if ← found.isDir then pure (root.put place (.directory []))
      else pure (root.put place (.file (← IO.FS.readBinFile path).toList))

/-- Adds what goes by a path to a tree, with what lies on the way to it. -/
def observePath (deep : Bool) (here : List String) (root : FileNode) (path : String) :
    IO FileNode := do
  let places := Command.placesOfPath here path
  let root ← places.dropLast.foldlM (observe false) root
  match places.getLast? with
  | some place => observe deep root place
  | none => pure root

/-- The files that a command needs. -/
def observeFiles (here : List String) (invocation : Invocation) : IO FileTree := do
  let root ← invocation.inputs.foldlM (observePath true here) (.directory [])
  let root ← invocation.task.outputs.foldlM (observePath false here) root
  pure { root, here }

/-- Writes the files that a command has changed. -/
def writeChanges (before after : FileTree) (paths : List String) : IO Unit :=
  paths.forM fun path => do
    match after.read path with
    | .ok content =>
        if (before.read path).toOption ≠ some content then
          IO.FS.writeBinFile path (ByteArray.mk content.toArray)
    | .error _ => pure ()

/-- Prints what a command has to say. -/
def printResult (result : Result) : IO UInt32 := do
  IO.eprint (Command.textOfLines result.messages)
  IO.print (Command.textOfLines result.output)
  pure result.code

/-- The time now as text. -/
def now : IO String := do
  let time := (← Std.Time.Timestamp.now).toDurationSinceUnixEpoch
  pure (Timestamp.text time.second.val.toNat time.nano.val.toNat)

/-- Whether to colour text, and the time. -/
def console : IO Console := do
  let colours := Command.wantsColours (← IO.getEnv "CLICOLOR_FORCE") (← IO.getEnv "NO_COLOR")
    (← IO.getEnv "CLICOLOR") (← (← IO.getStdout).isTty)
  pure { colours, timestamp := ← now }

end SchemaGate.Program

open SchemaGate SchemaGate.Program in
/-- Runs the command of a command line. -/
def main (words : List String) : IO UInt32 := do
  let console ← console
  match Command.Invocation.parse words with
  | .error _ => printResult (Command.run console words {})
  | .ok invocation =>
      let here := Text.segments '/' (← IO.currentDir).toString
      let files ← observeFiles here invocation
      let result := Command.run console words files
      writeChanges files result.files invocation.task.outputs
      printResult result
