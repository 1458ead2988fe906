import SchemaGate.Json.Pretty
import SchemaGate.Report.Basic

/-!
# Reports as JSON

Findings and reports as JSON values, with keys in a fixed order. What a finding does not have is
left out.
-/

namespace SchemaGate

open Json (Value memberIf)

/-- A finding as JSON. -/
def Finding.toJson (finding : Finding) : Value :=
  .obj ([("kind", .str finding.kind.code), ("severity", .str finding.severity.text),
      ("type_path", .str finding.typePath)] ++
    memberIf "member" .str finding.member ++
    memberIf "number" .int finding.number ++
    [("message", .str finding.message)] ++
    memberIf "expected" .str finding.expected ++
    memberIf "actual" .str finding.actual ++
    memberIf "location" (fun file => .obj [("file", .str file)]) finding.file)

/-- A list of findings as JSON. -/
def findingsToJson (findings : List Finding) : Value :=
  .arr (findings.map Finding.toJson)

/-- A digest as JSON. -/
def InputDigest.toJson (digest : InputDigest) : Value :=
  .obj [("path", .str digest.path), ("sha256", .str digest.sha256)]

/-- A natural number as JSON. -/
def countToJson (count : Nat) : Value :=
  .int count

namespace Report

/-- The counts of a report as JSON. -/
def summaryToJson (report : Report) : Value :=
  .obj [("total", countToJson report.total), ("errors", countToJson (report.count .error)),
    ("warnings", countToJson (report.count .warn)), ("info", countToJson (report.count .info)),
    ("baseline_types", countToJson report.baselineTypes),
    ("candidate_types", countToJson report.candidateTypes)]

/-- The members of a report. -/
def members (report : Report) : List (String × Value) :=
  [("version", .obj [("major", countToJson majorVersion), ("minor", countToJson minorVersion)]),
   ("timestamp", .str report.timestamp),
   ("summary", report.summaryToJson),
   ("compatible", .bool report.verdict.compatible),
   ("findings", findingsToJson report.verdict.findings),
   ("advisories", findingsToJson report.verdict.advisories)] ++
    memberIf "baseline" InputDigest.toJson report.baseline ++
    memberIf "candidate" InputDigest.toJson report.candidate ++
    memberIf "metadata" id report.metadata

/-- The report as JSON text. -/
def json (report : Report) : String :=
  (Value.obj report.members).pretty

end Report

end SchemaGate
