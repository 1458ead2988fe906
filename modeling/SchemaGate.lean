import SchemaGate.Analysis.Comparison
import SchemaGate.Analysis.Findings
import SchemaGate.Analysis.Member
import SchemaGate.Check
import SchemaGate.Command.Arguments
import SchemaGate.Command.Check
import SchemaGate.Command.Paths
import SchemaGate.Command.Result
import SchemaGate.Command.Run
import SchemaGate.Command.Schema
import SchemaGate.Command.Suite
import SchemaGate.Config
import SchemaGate.Decimal.Binary
import SchemaGate.Decimal.Places
import SchemaGate.Decimal.Shortest
import SchemaGate.Descriptor.Basic
import SchemaGate.Descriptor.Reader
import SchemaGate.Descriptor.Tree
import SchemaGate.Evolution
import SchemaGate.Files.Path
import SchemaGate.Files.Tree
import SchemaGate.Finding
import SchemaGate.Format
import SchemaGate.Json.Decode
import SchemaGate.Json.Document
import SchemaGate.Json.Float
import SchemaGate.Json.Pretty
import SchemaGate.Json.Value
import SchemaGate.LoadError
import SchemaGate.Loading
import SchemaGate.Lock.Basic
import SchemaGate.Lock.Path
import SchemaGate.Lock.Reader
import SchemaGate.Lock.Snapshot
import SchemaGate.Lock.Written
import SchemaGate.Main
import SchemaGate.NameMap
import SchemaGate.Policy.Basic
import SchemaGate.Policy.Glob
import SchemaGate.Report.Basic
import SchemaGate.Report.Json
import SchemaGate.Report.Markdown
import SchemaGate.Schema.Basic
import SchemaGate.Schema.Path
import SchemaGate.Schema.Reserved
import SchemaGate.Sha256
import SchemaGate.Suite.Outcome
import SchemaGate.Suite.Scenario
import SchemaGate.Suite.Summary
import SchemaGate.Suite.Tally
import SchemaGate.Terminal
import SchemaGate.Text.Blank
import SchemaGate.Text.CaseTable
import SchemaGate.Text.EscapeTable
import SchemaGate.Text.Hex
import SchemaGate.Text.LowerCase
import SchemaGate.Text.Quoted
import SchemaGate.Text.Split
import SchemaGate.Text.Utf8
import SchemaGate.Timestamp
import SchemaGate.Toml.Document
import SchemaGate.Toml.Number
import SchemaGate.Toml.Scalar
import SchemaGate.Toml.Table
import SchemaGate.Toml.Value
import SchemaGate.TypeIndex.Basic
import SchemaGate.TypeIndex.Reference
import SchemaGate.Validation.Basic
import SchemaGate.Validation.Issue
import SchemaGate.Verdict
import SchemaGate.Wire.Field
import SchemaGate.Wire.Message
import SchemaGate.Proofs.NameMap
import SchemaGate.Proofs.TypeIndex.Build
import SchemaGate.Proofs.Analysis.Matches
import SchemaGate.Proofs.Analysis.Breach
import SchemaGate.Proofs.Analysis.RuleTable
import SchemaGate.Proofs.Analysis.DeclaredRules
import SchemaGate.Proofs.Analysis.Compatible
import SchemaGate.Proofs.Schema.Nesting
import SchemaGate.Proofs.Enumeration
import SchemaGate.Proofs.Traversal
import SchemaGate.Proofs.Wire.Varint
import SchemaGate.Proofs.Validation.Walk
import SchemaGate.Proofs.Validation.Fault
import SchemaGate.Proofs.Validation.Issues
import SchemaGate.Proofs.Validation.WellFormed
import SchemaGate.Proofs.Text.Cutting
import SchemaGate.Proofs.Text.Utf8
import SchemaGate.Proofs.TypeIndex.Paths
import SchemaGate.Proofs.TypeIndex.Resolution
import SchemaGate.Proofs.TypeIndex.Resolves
import SchemaGate.Proofs.Schema.Oneofs
import SchemaGate.Proofs.Validation.Paths
import SchemaGate.Proofs.Lock.Path
import SchemaGate.Proofs.Lock.MapType
import SchemaGate.Proofs.Lock.MapReference
import SchemaGate.Proofs.Lock.Snapshot
import SchemaGate.Proofs.Lock.Relisted
import SchemaGate.Proofs.Lock.RoundTrip
import SchemaGate.Proofs.Lock.Depth
import SchemaGate.Proofs.Json.Scalars
import SchemaGate.Proofs.Json.RoundTrip
import SchemaGate.Proofs.Json.Records
import SchemaGate.Proofs.Loading.Sniffing
import SchemaGate.Proofs.Loading.Grouped
import SchemaGate.Proofs.Loading.Reload
import SchemaGate.Proofs.Analysis.ReleaseChain
import SchemaGate.Proofs.Analysis.Splice
import SchemaGate.Proofs.Schema.Edit
import SchemaGate.Proofs.Analysis.EditLaws
import SchemaGate.Proofs.Policy.Judgement
import SchemaGate.Proofs.Analysis.SameRules
import SchemaGate.Proofs.Analysis.Blame
import SchemaGate.Proofs.Analysis.Reordering
import SchemaGate.Proofs.Lock.Verdict
import SchemaGate.Proofs.Schema.Rearrangement
import SchemaGate.Proofs.Descriptor.Conversion
import SchemaGate.Proofs.Policy.Stars
import SchemaGate.Proofs.Files.Writing
import SchemaGate.Proofs.Report.Findings
import SchemaGate.Proofs.Suite.Agreement
import SchemaGate.Proofs.Text.ByteOrder
import SchemaGate.Proofs.InOrder
import SchemaGate.Proofs.Schema.Place
import SchemaGate.Proofs.TypeIndex.Walk
import SchemaGate.Proofs.Validation.Duplicates
import SchemaGate.Proofs.Analysis.ReportOrder
import SchemaGate.Proofs.Analysis.ByPath
import SchemaGate.Proofs.Policy.Relaxing
import SchemaGate.Proofs.Suite.Bookkeeping
import SchemaGate.Proofs.Schema.MemberOrder
import SchemaGate.Proofs.Analysis.Wording
import SchemaGate.Proofs.Lock.Conversion
import SchemaGate.Proofs.Loading.Oneofs
import SchemaGate.Proofs.Report.Summary
import SchemaGate.Proofs.Report.Tables
import SchemaGate.Proofs.Command.Effects
import SchemaGate.Proofs.Evolution
