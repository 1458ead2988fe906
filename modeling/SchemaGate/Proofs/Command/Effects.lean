import SchemaGate.Command.Paths
import SchemaGate.Proofs.Files.Writing

/-!
# What commands write

A command writes texts at the paths that its words name for them and nowhere else, however it ends,
and words that are no command write nothing. The main statements are `written_run` and
`read_run_eq_ok_iff`: away from its outputs a command leaves every file as it was.
-/

namespace SchemaGate.Command

open FileTree (Written)

variable {console : Console} {config : Config} {verbose : Bool} {files : FileTree}

section Check

variable {options : CheckOptions} {report : Report} {saved written : FileTree}

/-- The Markdown of a report is written at one of the outputs of a check. -/
theorem written_writeMarkdown (hsaved : files.Written (Task.outputs (.check options)) saved)
    (h : writeMarkdown saved options report = .ok written) :
    files.Written (Task.outputs (.check options)) written := by
  unfold writeMarkdown at h
  split at h
  · cases h
    exact hsaved
  · rename_i path hpath
    split at h
    · rename_i hwrite
      cases h
      have hmem : path ∈ Task.outputs (.check options) := by simp [Task.outputs, hpath]
      exact hsaved.write hmem hwrite
    · cases h

/-- A report is written before its Markdown is. -/
theorem written_finishCheck (messages : List String) :
    files.Written (Task.outputs (.check options))
      (finishCheck console verbose options files messages report).files := by
  unfold finishCheck
  cases hreport : files.writeText options.output report.json with
  | error cause => exact .unchanged
  | ok saved =>
      have hsaved : files.Written (Task.outputs (.check options)) saved :=
        .write .unchanged List.mem_cons_self hreport
      dsimp only
      cases hmarkdown : writeMarkdown saved options report with
      | error failure => exact hsaved
      | ok written => exact written_writeMarkdown hsaved hmarkdown

/-- A check writes nothing if there is no report. -/
theorem written_checkCommand (options : CheckOptions) :
    files.Written (Task.outputs (.check options))
      (checkCommand console config verbose options files).files := by
  unfold checkCommand
  cases checkReport console config options files with
  | error text => exact .unchanged
  | ok report => exact written_finishCheck _

end Check

/-- A suite run writes its summary. -/
theorem written_suiteCommand (directories : List String) (output : Option String) :
    files.Written (Task.outputs (.suite directories output))
      (suiteCommand console config verbose directories output files).files := by
  unfold suiteCommand
  obtain ⟨begun, tallies⟩ := runSuites config files directories
  cases tallies with
  | error cause => exact .unchanged
  | ok suites =>
      dsimp only
      unfold finishSuite
      cases output with
      | none => exact .unchanged
      | some path =>
          dsimp only
          cases hwrite : files.writeText path (SuiteSummary.json ⟨suites⟩) with
          | error cause => exact .unchanged
          | ok written => exact .write .unchanged List.mem_cons_self hwrite

/-- Listing types writes nothing. -/
theorem written_indexCommand (path : String) (format : Option SchemaFormat) :
    files.Written (Task.outputs (.index path format))
      (indexCommand console config path format files).files := by
  unfold indexCommand
  dsimp only
  split <;> exact .unchanged

/-- Taking a snapshot writes it. -/
theorem written_lockCommand (path output : String) :
    files.Written (Task.outputs (.lock path output))
      (lockCommand console config verbose path output files).files := by
  unfold lockCommand
  split
  · exact .unchanged
  · split
    · exact .unchanged
    · rename_i hwrite
      exact .write .unchanged List.mem_cons_self hwrite

/-- A command writes at its outputs. -/
theorem written_runTask (task : Task) :
    files.Written task.outputs (runTask console config verbose files task).files := by
  cases task with
  | check options => exact written_checkCommand options
  | suite directories output => exact written_suiteCommand directories output
  | index path format => exact written_indexCommand path format
  | lock path output => exact written_lockCommand path output

/-- The paths at which the words of a command line ask for something to be written. -/
def outputsOf (words : List String) : List String :=
  match Invocation.parse words with
  | .ok invocation => invocation.task.outputs
  | .error _ => []

/-- Whatever the words are and however their command ends, it has written at its outputs only. -/
theorem written_run (console : Console) (words : List String) (files : FileTree) :
    files.Written (outputsOf words) (run console words files).files := by
  unfold run outputsOf
  cases Invocation.parse words with
  | error stop => cases stop <;> exact .unchanged
  | ok invocation =>
      dsimp only
      unfold runInvocation
      split
      · exact .unchanged
      · exact written_runTask invocation.task

/-- A file that is not at one of the outputs is the same after a command as before. -/
theorem read_run_eq_ok_iff {words : List String} {path : String} {content : List UInt8}
    (hne : ∀ output ∈ outputsOf words,
      files.placeToWrite output ≠ (run console words files).files.place path) :
    (run console words files).files.read path = .ok content ↔ files.read path = .ok content :=
  (written_run console words files).read_eq_ok_iff hne

end SchemaGate.Command
