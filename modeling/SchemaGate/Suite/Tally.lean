import SchemaGate.Decimal.Binary
import SchemaGate.Suite.Outcome

/-!
# Tallies of suites

A tally is kept while the scenarios of a suite are run: how many passed and failed, how often each
finding code occurred, and the first findings of each code as samples.
-/

namespace SchemaGate

open Json (Value)

/-- The bits of the share of a part in a whole as a double. The share of nothing is zero. -/
def shareBits (part whole : Nat) : UInt64 :=
  if whole = 0 then (0 : Float).toBits else (Float.ofNat part / Float.ofNat whole).toBits

/-- The counts of a suite and the results they were taken from. -/
structure SuiteTally where
  name : String
  total : Nat := 0
  passed : Nat := 0
  failed : Nat := 0
  loadFailures : Nat := 0
  results : List ScenarioResult := []
  codes : NameMap Nat := {}
  samples : NameMap (List String) := {}

namespace SuiteTally

/-- How many samples of a code are kept. -/
def maxSamples : Nat := 3

/-- Counts a finding. -/
def record (tally : SuiteTally) (finding : Finding) : SuiteTally :=
  let code := finding.kind.code
  let samples := (tally.samples.find? code).getD []
  { tally with
    codes := tally.codes.insert code ((tally.codes.find? code).getD 0 + 1)
    samples :=
      tally.samples.insert code
        (if samples.length < maxSamples then samples ++ [finding.text] else samples) }

/-- Counts a result. -/
def add (tally : SuiteTally) (result : ScenarioResult) : SuiteTally :=
  let counted := result.outcome.findings.foldl record tally
  { counted with
    total := tally.total + 1
    passed := if result.passed then tally.passed + 1 else tally.passed
    failed := if result.passed then tally.failed else tally.failed + 1
    loadFailures :=
      if result.outcome.isLoadFailure then tally.loadFailures + 1 else tally.loadFailures
    results := tally.results ++ [result] }

/-- The tally of a suite whose scenarios had the given results. -/
def ofResults (name : String) (results : List ScenarioResult) : SuiteTally :=
  results.foldl add { name }

/-- The share of passed scenarios. -/
def passRateBits (tally : SuiteTally) : UInt64 :=
  shareBits tally.passed tally.total

/-- Whether no scenario failed. -/
def allPassed (tally : SuiteTally) : Bool :=
  tally.failed = 0

/-- The most frequent codes with their counts, in order of code among equal counts. -/
def topCodes (tally : SuiteTally) (count : Nat) : List (String × Nat) :=
  (tally.codes.entries.mergeSort fun a b => b.2 ≤ a.2).take count

/-- A tally as JSON. -/
def toJson (tally : SuiteTally) : Value :=
  .obj
    [("suite_name", .str tally.name),
     ("total_scenarios", countToJson tally.total),
     ("passed", countToJson tally.passed),
     ("failed", countToJson tally.failed),
     ("load_failures", countToJson tally.loadFailures),
     ("scenario_results", .arr (tally.results.map ScenarioResult.toJson)),
     ("finding_codes",
       .obj (tally.codes.entries.map fun entry => (entry.1, countToJson entry.2))),
     ("finding_samples",
       .obj (tally.samples.entries.map fun entry => (entry.1, .arr (entry.2.map .str))))]

end SuiteTally

end SchemaGate
