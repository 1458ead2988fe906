import SchemaGate.Loading
import SchemaGate.Policy.Basic
import SchemaGate.Toml.Document

/-!
# Configuration

A configuration holds the policy for findings and the settings of the loader. It is read from TOML
text in which everything may be left out and unknown keys are ignored, but every overridden code
must be that of a finding.
-/

namespace SchemaGate

/-- Why there is no configuration. -/
inductive ConfigError where
  /-- The file cannot be read. -/
  | unreadable (cause : FileError)
  /-- The text is no TOML, or a setting has a value of the wrong type. -/
  | malformed
  /-- The word, in small letters, is no schema format. -/
  | unknownFormat (word : String)
  /-- The codes of overrides that are those of no finding. -/
  | unknownCodes (codes : List String)
  deriving DecidableEq, Repr

/-- The error in words. -/
def ConfigError.message : ConfigError → String
  | unreadable cause => "IO error: " ++ cause.message
  | malformed => "Parse error: <toml error>"
  | unknownFormat word =>
      "Parse error: Unknown schema format '" ++ word ++
        "'. Valid options: auto, lock, descriptor-set"
  | unknownCodes codes =>
      "Unknown finding code in severity overrides: " ++ Text.join ", " codes

/-- The format of a word. -/
def SchemaFormat.parse (word : String) : Except ConfigError SchemaFormat :=
  match ofWord word with
  | .ok format => .ok format
  | .error lower => .error (.unknownFormat lower)

/-- The policy for findings and the settings of the loader. -/
structure Config where
  policy : Policy := {}
  loader : Loader := {}

namespace Config

open Toml (Value fieldOr)

/-- The severities of a table of codes. -/
def readOverrides? : Value → Option SeverityOverrides
  | .table entries => do
      let severities ← entries.mapM fun (code, value) => do
        pure (code, ← value.word?.bind Severity.ofText?)
      pure ⟨.ofList severities⟩
  | _ => none

/-- The section of severities. -/
def readSeverity? (value : Value) : Option SeverityOverrides := do
  fieldOr {} readOverrides? "overrides" (← value.fields? ["overrides"])

/-- The section of listed types. -/
def readAllowlist? (value : Value) : Option (List String) := do
  let patterns? (value : Value) : Option (List String) := do (← value.items?).mapM Value.text?
  fieldOr [] patterns? "skip_types" (← value.fields? ["skip_types"])

/-- The section of the loader. -/
def readLoader? (value : Value) : Option Loader := do
  let fields ← value.fields? ["format", "validate"]
  let format ← fieldOr .auto (fun value => value.word?.bind SchemaFormat.ofText?) "format" fields
  let validate ← fieldOr true Value.boolean? "validate" fields
  pure { format, validate }

/-- The configuration of a document. -/
def ofValue? (value : Value) : Option Config := do
  let fields ← value.fields? ["severity", "allowlist", "loader"]
  let overrides ← fieldOr {} readSeverity? "severity" fields
  let skipTypes ← fieldOr [] readAllowlist? "allowlist" fields
  let loader ← fieldOr {} readLoader? "loader" fields
  pure { policy := { overrides, skipTypes }, loader }

/-- Reads a configuration from text. -/
def ofText (text : String) : Except ConfigError Config :=
  match (Toml.read? text).bind ofValue? with
  | none => .error .malformed
  | some config =>
      match config.policy.overrides.unknownCodes with
      | [] => .ok config
      | codes => .error (.unknownCodes codes)

/-- Reads a configuration from a file. -/
def ofFile (files : FileTree) (path : String) : Except ConfigError Config :=
  match files.readText path with
  | .ok text => ofText text
  | .error cause => .error (.unreadable cause)

end Config

end SchemaGate
