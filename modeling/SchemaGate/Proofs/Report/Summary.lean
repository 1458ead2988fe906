import SchemaGate.Proofs.Policy.Relaxing
import SchemaGate.Report.Basic

/-!
# The summary of a report

A report counts its findings by severity, over blocking findings and advisories alike, and does not
ask what a policy did with them. The counts agree with the verdict all the same, because a policy
keeps errors and other findings apart (`Verdict.Separated`). The main statement is
`Report.summary_exact`.
-/

namespace SchemaGate

/-- What blocks are errors, and what is advised are none. -/
structure Verdict.Separated (verdict : Verdict) : Prop where
  blocking : ∀ finding ∈ verdict.findings, finding.severity = .error
  advised : ∀ finding ∈ verdict.advisories, finding.severity ≠ .error

/-- A policy keeps errors and other findings apart, also where it takes the short cut. -/
theorem Policy.separated_judge (policy : Policy) {findings : List Finding}
    (h : ∀ finding ∈ findings, finding.severity = .error) : (policy.judge findings).Separated := by
  rw [judge_eq_judgeEach h]
  constructor
  · intro finding hfinding
    exact of_decide_eq_true (List.mem_filter.1 hfinding).2
  · intro finding hfinding
    exact of_decide_eq_true (List.mem_filter.1 hfinding).2

/-- The verdict of a check keeps errors and other findings apart. -/
theorem separated_of_check {policy : Policy} {baseline candidate : SchemaTree} {verdict : Verdict}
    (h : check policy baseline candidate = .ok verdict) : verdict.Separated := by
  obtain ⟨old, new, -, -, rfl⟩ := exists_build_of_check h
  exact policy.separated_judge fun finding hfinding => severity_of_mem_findings hfinding

namespace Report

variable {report : Report}

/-- A report counts its blocking findings and its advisories. -/
theorem total_eq (report : Report) :
    report.total = report.verdict.findings.length + report.verdict.advisories.length := by
  rw [total, Verdict.all, List.length_append]

/-- If errors and other findings are kept apart, the errors are the blocking findings. -/
theorem count_error (h : report.verdict.Separated) :
    report.count .error = report.verdict.findings.length := by
  have hblocking : report.verdict.findings.countP (fun finding => finding.severity = .error) =
      report.verdict.findings.length :=
    List.countP_eq_length.2 fun finding hfinding => decide_eq_true (h.blocking finding hfinding)
  have hadvised : report.verdict.advisories.countP (fun finding => finding.severity = .error) = 0 :=
    List.countP_eq_zero.2 fun finding hfinding hsame =>
      h.advised finding hfinding (of_decide_eq_true hsame)
  rw [count, Verdict.all, List.countP_append, hblocking, hadvised, Nat.add_zero]

/-- The summary of the report on a check adds up: all findings are errors, warnings or
informations, the errors are the blocking findings and the others the advisories, and the verdict is
compatible exactly when no error is counted, whatever the policy. -/
theorem summary_exact {policy : Policy} {baseline candidate : SchemaTree}
    (h : check policy baseline candidate = .ok report.verdict) :
    report.total = report.count .error + report.count .warn + report.count .info ∧
      report.count .error = report.verdict.findings.length ∧
      report.count .warn + report.count .info = report.verdict.advisories.length ∧
      (report.verdict.compatible = true ↔ report.count .error = 0) := by
  have herrors := count_error (separated_of_check h)
  have hcounts := report.count_total
  have htotal := report.total_eq
  refine ⟨hcounts.symm, herrors, by omega, ?_⟩
  rw [herrors, Verdict.compatible, List.isEmpty_iff, List.length_eq_zero_iff]

end Report

/-- A schema with three messages, one of which has a field. -/
def marketBaseline : SchemaTree where
  files := [{ path := "market.proto", messages :=
    [{ name := "Stall", fields := [⟨"rent", 1, "int32", false, none⟩] }, { name := "Trader" },
      { name := "Draft" }] }]

/-- A schema in which only the first message is left, without its field. -/
def marketCandidate : SchemaTree where
  files := [{ path := "market.proto", messages := [{ name := "Stall" }] }]

/-- A policy that makes a warning of removed fields and lists one of the removed messages. -/
def marketPolicy : Policy where
  overrides := SeverityOverrides.set {} .removedField .warn
  skipTypes := ["Draft"]

/-- The removed message is counted as an error and the removed field as another finding, and the
verdict is not compatible. -/
theorem summary_exact_market :
    ∃ report : Report, check marketPolicy marketBaseline marketCandidate = .ok report.verdict ∧
      report.verdict.findings.map (·.kind) = [.removedType] ∧
      report.verdict.advisories.map (·.kind) = [.removedField] ∧
      report.count .error = 1 ∧ report.count .warn + report.count .info = 1 ∧
      report.verdict.compatible = false := by
  have hcheck : check marketPolicy marketBaseline marketCandidate =
      .ok (marketPolicy.judge (findings _ _)) := check_of_build rfl rfl
  obtain ⟨-, herrors, hothers, -⟩ :=
    @Report.summary_exact { timestamp := "T", verdict := _ } _ _ _ hcheck
  exact ⟨{ timestamp := "T", verdict := _ }, hcheck, by decide +kernel, by decide +kernel,
    herrors.trans (by decide +kernel), hothers.trans (by decide +kernel), by decide +kernel⟩

end SchemaGate
