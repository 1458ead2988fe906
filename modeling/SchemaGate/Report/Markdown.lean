import SchemaGate.Report.Basic

/-!
# Reports in Markdown

A report as Markdown text with tables of findings. In the cell of a message every vertical bar is
marked by a backslash.
-/

namespace SchemaGate.Report

/-- A text with a backslash in front of every vertical bar. -/
def escapeBars (text : List Char) : List Char :=
  text.flatMap fun c => if c = '|' then ['\\', '|'] else [c]

/-- The bytes of a digest that are shown. -/
def shownDigestBytes : Nat := 12

/-- The beginning of a text that has exactly a number of bytes, if one has. -/
def takeBytes? : (count : Nat) → List Char → Option (List Char)
  | 0, _ => some []
  | _ + 1, [] => none
  | count + 1, c :: rest =>
      if c.utf8Size ≤ count + 1 then (takeBytes? (count + 1 - c.utf8Size) rest).map (c :: ·)
      else none
  termination_by _ text => text.length

/-- The beginning of a digest, or all of it if it cannot be cut there. -/
def shortDigest (digest : String) : String :=
  match takeBytes? shownDigestBytes digest.toList with
  | some start => String.ofList start
  | none => digest

/-- The line of an input. -/
def inputLine (role : String) (digest : InputDigest) : String :=
  "**" ++ role ++ ":** `" ++ digest.path ++ "` (`" ++ shortDigest digest.sha256 ++ "`)\n\n"

/-- The cell of the member of a finding. -/
def memberCell (finding : Finding) : String :=
  match finding.member, finding.number with
  | some member, some number => member ++ " = " ++ toString number
  | some member, none => member
  | none, _ => ""

/-- The row of a finding. -/
def findingRow (finding : Finding) : String :=
  "| `" ++ finding.kind.code ++ "` | `" ++ finding.typePath ++ "` | " ++ memberCell finding ++
    " | " ++ String.ofList (escapeBars finding.message.toList) ++ " |\n"

/-- The table of a list of findings. -/
def findingTable (findings : List Finding) : String :=
  "| Code | Type | Member | Message |\n" ++
    "|------|------|--------|---------|\n" ++
    Text.join "" (findings.map findingRow) ++ "\n"

/-- The lines of the inputs, if both are known. -/
def inputLines (report : Report) : String :=
  match report.baseline, report.candidate with
  | some baseline, some candidate =>
      inputLine "Baseline" baseline ++ inputLine "Candidate" candidate
  | _, _ => ""

/-- The part of a report that tells the verdict. -/
def verdictText (verdict : Verdict) : String :=
  if verdict.compatible ∧ verdict.advisories = [] then
    "✅ **Candidate is backward compatible.**\n"
  else
    (if verdict.compatible then "✅ **Candidate is backward compatible** (with advisories).\n\n"
      else
        "❌ **Candidate breaks backward compatibility.**\n\n## Breaking findings\n\n" ++
          findingTable verdict.findings) ++
      if verdict.advisories = [] then "" else "## Advisories\n\n" ++ findingTable verdict.advisories

/-- The report in Markdown. -/
def markdown (report : Report) : String :=
  "# Schema Compatibility Report\n\n" ++
    "**Version:** " ++ version ++ "\n\n" ++
    "**Timestamp:** " ++ report.timestamp ++ "\n\n" ++
    report.inputLines ++
    "## Summary\n\n" ++
    "- Types (baseline / candidate): " ++ toString report.baselineTypes ++ " / " ++
      toString report.candidateTypes ++ "\n" ++
    "- Breaking findings: " ++ toString report.verdict.findings.length ++ "\n" ++
    "- Advisories: " ++ toString report.verdict.advisories.length ++ "\n\n" ++
    verdictText report.verdict

end SchemaGate.Report
