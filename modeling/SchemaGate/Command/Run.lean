import SchemaGate.Command.Schema
import SchemaGate.Command.Suite

/-!
# Running a command line

`run` reads a command line, finds the configuration, and runs the command. Words that are no command
line exit with two.
-/

namespace SchemaGate.Command

open Terminal (Style)

/-- The version of the program. -/
def programVersion : String := "protogate 0.1.0"

/-- The path of the configuration that is used if none is named. -/
def defaultConfig : String := "protogate.toml"

/-- How the program is used. -/
def usageLines : List String :=
  ["Usage: protogate [OPTIONS] <COMMAND>",
   "",
   "Commands:",
   "  check   Check a candidate schema against a released baseline",
   "  suite   Run every scenario under one or more suite directories",
   "  index   List every qualified type path in a schema",
   "  lock    Write a lock file snapshot of a schema",
   "",
   "Options:",
   "  -c, --config <CONFIG>  Path to config file (default: protogate.toml)",
   "  -v, --verbose          Enable verbose output",
   "  -h, --help             Print help",
   "  -V, --version          Print version"]

/-- The message about words that are no command line. -/
def misuseText : String := "<usage error>"

/-- The configuration in a file. -/
def configAt (files : FileTree) (path : String) : Except Failure Config :=
  match Config.ofFile files path with
  | .ok config => .ok config
  | .error cause => .error ⟨"Failed to load config " ++ path, some cause.message⟩

/-- The configuration of a command and the messages on the way to it. -/
def findConfig (console : Console) (invocation : Invocation) (files : FileTree) :
    Except Failure (Config × List String) :=
  match invocation.config with
  | some path => (configAt files path).map fun config => (config, [])
  | none =>
      if files.exists? defaultConfig then
        (configAt files defaultConfig).map fun config => (config, [])
      else
        .ok
          ({}, if invocation.verbose then
              [(Style.coloured .yellow).paint console.colours
                "No config file found, using defaults"]
            else [])

/-- Runs a command under a configuration. -/
def runTask (console : Console) (config : Config) (verbose : Bool) (files : FileTree) :
    Task → Result
  | .check options => checkCommand console config verbose options files
  | .suite directories output => suiteCommand console config verbose directories output files
  | .index path format => indexCommand console config path format files
  | .lock path output => lockCommand console config verbose path output files

/-- Runs a command with the options that every command has. -/
def runInvocation (console : Console) (invocation : Invocation) (files : FileTree) : Result :=
  match findConfig console invocation files with
  | .error failure => .failed files [] [] failure
  | .ok (config, messages) =>
      let result := runTask console config invocation.verbose files invocation.task
      { result with messages := messages ++ result.messages }

/-- Runs the words of a command line. -/
def run (console : Console) (words : List String) (files : FileTree) : Result :=
  match Invocation.parse words with
  | .ok invocation => runInvocation console invocation files
  | .error .misuse => { code := loadErrorCode, messages := [misuseText], files }
  | .error .help => { output := usageLines, files }
  | .error .version => { output := [programVersion], files }

end SchemaGate.Command
