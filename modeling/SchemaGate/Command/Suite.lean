import SchemaGate.Command.Check
import SchemaGate.Suite.Summary

/-!
# The suite command

The command runs the suites in several directories and shows their summary. It exits with one if a
scenario failed.
-/

namespace SchemaGate.Command

/-- Runs suites in order up to the first that cannot be run. Gives the directories that were begun,
and the tallies or the fault. -/
def runSuites (config : Config) (files : FileTree) :
    List String → List String × Except SuiteError (List SuiteTally)
  | [] => ([], .ok [])
  | directory :: directories =>
      match runSuite config files directory with
      | .error cause => ([directory], .error cause)
      | .ok tally =>
          let (begun, others) := runSuites config files directories
          (directory :: begun, others.map (tally :: ·))

/-- Shows the summary of suites and writes it, if that is asked for. -/
def finishSuite (console : Console) (output : Option String) (files : FileTree)
    (messages : List String) (summary : SuiteSummary) : Result :=
  let shown := summary.lines console.colours
  let code := if summary.success then 0 else failureCode
  match output with
  | none => { code, output := shown, messages, files }
  | some path =>
      match files.writeText path summary.json with
      | .error cause => .failed files messages shown (.ofWrite path cause)
      | .ok files =>
          { code
            output := shown ++ ["Detailed JSON report saved to: " ++ path]
            messages
            files }

/-- Runs the suites in several directories. -/
def suiteCommand (console : Console) (config : Config) (verbose : Bool)
    (directories : List String) (output : Option String) (files : FileTree) : Result :=
  let (begun, tallies) := runSuites config files directories
  let messages := begun.flatMap (noteLines console verbose .cyan "Running suite:")
  match tallies with
  | .error cause => .failed files messages [] ⟨cause.message, none⟩
  | .ok suites => finishSuite console output files messages ⟨suites⟩

end SchemaGate.Command
