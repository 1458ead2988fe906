import SchemaGate.Suite.Tally

/-!
# Running scenarios

A scenario is a directory with a baseline, a candidate and, if it has one, a description file. A
suite is a directory of scenarios. A result goes by the name of its directory.
-/

namespace SchemaGate

/-- What a scenario says about itself. -/
structure ScenarioSpec where
  expect : Option Expectation := none
  description : Option String := none
  deriving DecidableEq, Repr, Inhabited

/-- Why a scenario or a suite cannot be run. -/
inductive SuiteError where
  /-- There is no directory of the suite. -/
  | noDirectory (path : String)
  /-- The description file cannot be read. -/
  | unreadableSpec (path : String) (cause : FileError)
  /-- The description file is no description. -/
  | badSpec (path : String)
  /-- The baseline cannot be loaded. -/
  | badBaseline (path : String) (cause : LoadError)
  /-- The candidate cannot be loaded. -/
  | badCandidate (path : String) (cause : LoadError)
  /-- One of the schemas cannot be indexed. -/
  | notIndexed (cause : LoadError)
  deriving DecidableEq, Repr

/-- The error in words. -/
def SuiteError.message : SuiteError → String
  | noDirectory path => "Suite directory not found: " ++ path
  | unreadableSpec path cause => "Failed to read " ++ path ++ ": " ++ cause.message
  | badSpec path => "Failed to parse " ++ path ++ ": <toml error>"
  | badBaseline path cause => "Failed to load baseline " ++ path ++ ": " ++ cause.message
  | badCandidate path cause => "Failed to load candidate " ++ path ++ ": " ++ cause.message
  | notIndexed cause => "Failed to index schemas: " ++ cause.message

namespace ScenarioSpec

open Toml (Value fieldOr)

/-- The description of a document. Only known keys may be given. -/
def ofValue? (value : Value) : Option ScenarioSpec := do
  let fields ← value.fields? []
  let expect ←
    fieldOr none (fun value => (value.word?.bind Expectation.ofText?).map some) "expect" fields
  let description ← fieldOr none (fun value => value.text?.map some) "description" fields
  if fields.all fun field => field.1 = "expect" ∨ field.1 = "description" then
    pure { expect, description }
  else none

/-- The description of the scenario in a directory. A scenario without a description file says
nothing. -/
def load (files : FileTree) (directory : String) : Except SuiteError ScenarioSpec :=
  let path := Path.join directory "scenario.toml"
  if files.exists? path then
    match files.readText path with
    | .error cause => .error (.unreadableSpec path cause)
    | .ok text =>
        match (Toml.read? text).bind ofValue? with
        | some spec => .ok spec
        | none => .error (.badSpec path)
  else .ok {}

end ScenarioSpec

/-- The directory of the baseline of a scenario. -/
def baselineOf (directory : String) : String :=
  Path.join directory "baseline"

/-- The directory of the candidate of a scenario. -/
def candidateOf (directory : String) : String :=
  Path.join directory "candidate"

/-- What the scenario in a directory comes to. -/
def evaluateScenario (config : Config) (files : FileTree) (directory : String) :
    Except SuiteError ScenarioOutcome :=
  match config.loader.ofPath files (baselineOf directory) with
  | .error cause => .error (.badBaseline (baselineOf directory) cause)
  | .ok baseline =>
      match config.loader.ofPath files (candidateOf directory) with
      | .error cause => .error (.badCandidate (candidateOf directory) cause)
      | .ok candidate =>
          match check config.policy baseline.tree candidate.tree with
          | .error cause => .error (.notIndexed (.duplicateType cause))
          | .ok verdict => .ok (.ofVerdict verdict)

/-- The outcome of a scenario, a load failure if it cannot be run. -/
def outcomeOf : Except SuiteError ScenarioOutcome → ScenarioOutcome
  | .ok outcome => outcome
  | .error cause => .loadFailed cause.message

/-- The result of the scenario in a directory. -/
def runScenario (config : Config) (files : FileTree) (directory : String) : ScenarioResult :=
  let name := (Path.fileName? directory).getD "unknown"
  match ScenarioSpec.load files directory with
  | .error cause => { name, outcome := .loadFailed cause.message }
  | .ok spec =>
      { name
        description := spec.description
        expected := spec.expect
        outcome := outcomeOf (evaluateScenario config files directory) }

/-- The directories of the scenarios of a suite in order of name: those that hold a baseline and a
candidate. -/
def scenariosIn (files : FileTree) (root : String) : List String :=
  ((files.directoriesIn root).map (Path.join root)).filter fun directory =>
    files.isDirectory (baselineOf directory) && files.isDirectory (candidateOf directory)

/-- The tally of the suite in a directory. -/
def runSuite (config : Config) (files : FileTree) (root : String) :
    Except SuiteError SuiteTally :=
  if files.isDirectory root then
    .ok (.ofResults ((Path.fileName? root).getD "suite")
      ((scenariosIn files root).map (runScenario config files)))
  else .error (.noDirectory root)

end SchemaGate
