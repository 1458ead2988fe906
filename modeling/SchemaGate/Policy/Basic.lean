import SchemaGate.NameMap
import SchemaGate.Policy.Glob
import SchemaGate.Verdict

/-!
# Policies

A policy re-grades findings by their code and drops findings on listed types. Findings that are
still errors block; the others become advisories. The empty policy blocks on every finding as it
is. The main statements are `isSkipped_iff`, which says when a type is listed, and `judge_findings`,
which says what blocks under a policy that changes something.
-/

namespace SchemaGate

/-- Severities by finding code. The codes are free text; only known ones have an effect. -/
structure SeverityOverrides where
  table : NameMap Severity := {}

namespace SeverityOverrides

/-- The severity of a kind: its override, or else the given one. -/
def severityOf (overrides : SeverityOverrides) (kind : FindingKind) (severity : Severity) :
    Severity :=
  (overrides.table.find? kind.code).getD severity

/-- Override the severity of a kind. -/
def set (overrides : SeverityOverrides) (kind : FindingKind) (severity : Severity) :
    SeverityOverrides :=
  ⟨overrides.table.insert kind.code severity⟩

/-- The codes that are those of no kind, in order. -/
def unknownCodes (overrides : SeverityOverrides) : List String :=
  overrides.table.names.filter fun code => (FindingKind.ofCode? code).isNone

end SeverityOverrides

/-- Whether a type path matches one of several patterns. A pattern without a star is only compared
with the path. -/
def isSkipped (patterns : List String) (path : String) : Bool :=
  patterns.any fun pattern =>
    if '*' ∈ pattern.toList then Glob.isMatch pattern path else pattern = path

/-- A path is listed exactly when one of the patterns matches it, with or without a star. -/
theorem isSkipped_iff {patterns : List String} {path : String} :
    isSkipped patterns path = true ↔ ∃ pattern ∈ patterns, Glob.isMatch pattern path = true := by
  rw [isSkipped, List.any_eq_true]
  refine exists_congr fun pattern => and_congr_right fun _ => ?_
  by_cases hstar : '*' ∈ pattern.toList
  · rw [if_pos hstar]
  · rw [if_neg hstar, Glob.isMatch, Glob.matches_literal_iff hstar, String.toList_inj,
      decide_eq_true_eq, eq_comm]

/-- Overrides of severities and patterns of types whose findings are dropped. -/
structure Policy where
  overrides : SeverityOverrides := {}
  skipTypes : List String := []

namespace Policy

/-- Whether the policy changes nothing. -/
def isDefault (policy : Policy) : Bool :=
  policy.overrides.table.isEmpty && policy.skipTypes.isEmpty

/-- A finding with the severity that the policy gives it, or nothing if its type is listed. -/
def grade? (policy : Policy) (finding : Finding) : Option Finding :=
  if isSkipped policy.skipTypes finding.typePath then none
  else
    some { finding with severity := policy.overrides.severityOf finding.kind finding.severity }

/-- The verdict on a list of findings. -/
def judge (policy : Policy) (findings : List Finding) : Verdict :=
  if policy.isDefault then ⟨findings, []⟩
  else
    let graded := findings.filterMap policy.grade?
    ⟨graded.filter fun finding => finding.severity = .error,
      graded.filter fun finding => finding.severity ≠ .error⟩

/-- Under a policy that changes something, the graded findings that are errors block. -/
theorem judge_findings {policy : Policy} (h : policy.isDefault = false) (findings : List Finding) :
    (policy.judge findings).findings =
      (findings.filterMap policy.grade?).filter fun finding => finding.severity = .error := by
  simp [judge, h]

end Policy

end SchemaGate
