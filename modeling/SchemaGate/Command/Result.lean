import SchemaGate.Files.Tree
import SchemaGate.Terminal

/-!
# Results of commands

A command reads a file tree and gives back what it writes to its two outputs, its exit code, and the
file tree after it.
-/

namespace SchemaGate.Command

/-- The exit code of a command that could not be carried out, and of a check that found breaks. -/
def failureCode : UInt32 := 1

/-- The exit code when a schema cannot be loaded or the command line cannot be read. -/
def loadErrorCode : UInt32 := 2

/-- Whether text is coloured, and the time at which a command runs. -/
structure Console where
  colours : Bool
  timestamp : String
  deriving DecidableEq, Repr

/-- What a command leaves behind: its exit code, the lines of its output, the lines of its messages,
and the files. -/
structure Result where
  code : UInt32 := 0
  output : List String := []
  messages : List String := []
  files : FileTree

/-- Lines as one text. -/
def textOfLines (lines : List String) : String :=
  Text.join "" (lines.map fun line => line ++ "\n")

/-- Why a command could not be carried out: what failed, and what caused it. -/
structure Failure where
  message : String
  cause : Option String := none
  deriving DecidableEq, Repr

namespace Failure

/-- A text with four blanks after every line break. -/
def indented (text : List Char) : List Char :=
  text.flatMap fun c => if c = '\n' then ['\n', ' ', ' ', ' ', ' '] else [c]

/-- The lines of a failure. -/
def lines (failure : Failure) : List String :=
  match failure.cause with
  | none => ["Error: " ++ failure.message]
  | some cause =>
      ["Error: " ++ failure.message, "", "Caused by:",
       "    " ++ String.ofList (indented cause.toList)]

/-- The failure to write a file. -/
def ofWrite (path : String) (cause : FileError) : Failure :=
  ⟨"Failed to write " ++ path, some cause.message⟩

end Failure

/-- The result of a command that fails after it has written messages and output. -/
def Result.failed (files : FileTree) (messages output : List String) (failure : Failure) : Result :=
  { code := failureCode, output, messages := messages ++ failure.lines, files }

end SchemaGate.Command
