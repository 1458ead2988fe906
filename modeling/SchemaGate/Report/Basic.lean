import SchemaGate.Config
import SchemaGate.Check
import SchemaGate.Json.Value

/-!
# Compatibility reports

A report holds a verdict with the time of the check, the inputs and the number of types on each
side. `Report.ofBytes` does the whole work of a check on two inputs. The main statement is
`count_total`: every finding has one of the three severities.
-/

namespace SchemaGate

/-- A verdict and what it was reached on. -/
structure Report where
  timestamp : String
  verdict : Verdict
  baselineTypes : Nat := 0
  candidateTypes : Nat := 0
  baseline : Option InputDigest := none
  candidate : Option InputDigest := none
  metadata : Option Json.Value := none

namespace Report

/-- The first number of the version of reports. -/
def majorVersion : Nat := 1

/-- The second number of the version of reports. -/
def minorVersion : Nat := 0

/-- The version of reports. -/
def version : String :=
  toString majorVersion ++ "." ++ toString minorVersion

/-- How many findings and advisories have a severity. -/
def count (report : Report) (severity : Severity) : Nat :=
  report.verdict.all.countP fun finding => finding.severity = severity

/-- How many findings and advisories there are. -/
def total (report : Report) : Nat :=
  report.verdict.all.length

/-- The report on two schemas: both are indexed, the baseline first, and compared under a policy. -/
def ofTrees (timestamp : String) (policy : Policy) (baseline candidate : SchemaTree) :
    Except DuplicatePath Report := do
  let old ← TypeIndex.build baseline
  let new ← TypeIndex.build candidate
  pure
    { timestamp
      verdict := policy.judge (findings old new)
      baselineTypes := old.size
      candidateTypes := new.size }

/-- The report with the digests of its inputs. -/
def withInputs (report : Report) (baseline candidate : InputDigest) : Report :=
  { report with baseline := some baseline, candidate := some candidate }

/-- The report on two inputs given as bytes, which go by the names `baseline` and `candidate`. -/
def ofBytes (timestamp : String) (config : Config) (baseline candidate : List UInt8) :
    Except LoadError Report := do
  let old ← config.loader.ofBytes baseline
  let new ← config.loader.ofBytes candidate
  let report ← orLoadError .duplicateType (ofTrees timestamp config.policy old new)
  pure (report.withInputs (.ofBytes "baseline" baseline) (.ofBytes "candidate" candidate))

/-- The findings of the three severities are all findings. -/
theorem count_total (report : Report) :
    report.count .error + report.count .warn + report.count .info = report.total := by
  unfold count total
  induction report.verdict.all with
  | nil => rfl
  | cons finding findings ih =>
      simp only [List.countP_cons, List.length_cons]
      cases finding.severity <;> simp <;> omega

end Report

end SchemaGate
