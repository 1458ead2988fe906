import SchemaGate.Check
import SchemaGate.Config
import SchemaGate.Proofs.Analysis.RuleTable

/-!
# What a policy does with findings

`Policy.Judged` says, finding by finding, where a list of findings goes under a policy: what the
policy lists is dropped, what is still an error blocks, and what is re-graded becomes an advisory.
The short cut for the empty policy does not look at severities; it comes to the same because the
analysis reports nothing but errors. The main statements are `check_judged` and `judge_map`, which
says that a policy does not look at wording and files.
-/

namespace SchemaGate

/-- The verdict with all its findings changed in the same way. -/
def Verdict.map (change : Finding → Finding) (verdict : Verdict) : Verdict :=
  ⟨verdict.findings.map change, verdict.advisories.map change⟩

/-- Changing findings blocks nothing and clears nothing. -/
theorem Verdict.compatible_map (change : Finding → Finding) (verdict : Verdict) :
    (verdict.map change).compatible = verdict.compatible :=
  List.isEmpty_map

namespace Policy

/-- The type of the finding matches one of the patterns of the policy. -/
def Skips (policy : Policy) (finding : Finding) : Prop :=
  ∃ pattern ∈ policy.skipTypes, Glob.isMatch pattern finding.typePath = true

/-- The severity that the policy sets for a kind, if it sets one. -/
def override? (policy : Policy) (kind : FindingKind) : Option Severity :=
  policy.overrides.table.find? kind.code

/-- Findings go their ways under a policy, in order: each is dropped, blocks as it is, or becomes an
advisory with the severity of its override. -/
inductive Judged (policy : Policy) : List Finding → List Finding → List Finding → Prop where
  | nil : Judged policy [] [] []
  | dropped {finding : Finding} {findings blocking advisories : List Finding}
      (hskips : policy.Skips finding) (hothers : Judged policy findings blocking advisories) :
      Judged policy (finding :: findings) blocking advisories
  | blocks {finding : Finding} {findings blocking advisories : List Finding}
      (hkept : ¬policy.Skips finding)
      (hoverride : policy.override? finding.kind = none ∨
        policy.override? finding.kind = some .error)
      (hothers : Judged policy findings blocking advisories) :
      Judged policy (finding :: findings) (finding :: blocking) advisories
  | advises {finding : Finding} {findings blocking advisories : List Finding}
      (hkept : ¬policy.Skips finding) (severity : Severity)
      (hoverride : policy.override? finding.kind = some severity)
      (hlower : severity = .warn ∨ severity = .info)
      (hothers : Judged policy findings blocking advisories) :
      Judged policy (finding :: findings) blocking ({ finding with severity } :: advisories)

/-- The verdict on a list of findings when each of them is graded, whatever the policy. -/
def judgeEach (policy : Policy) (findings : List Finding) : Verdict :=
  let graded := findings.filterMap policy.grade?
  ⟨graded.filter fun finding => finding.severity = .error,
    graded.filter fun finding => finding.severity ≠ .error⟩

variable {policy : Policy} {finding : Finding} {findings : List Finding}

/-- The policy is found to list the type of a finding exactly when one of its patterns matches. -/
theorem isSkipped_iff_skips :
    isSkipped policy.skipTypes finding.typePath = true ↔ policy.Skips finding :=
  isSkipped_iff

/-- A finding of a listed type has no grade. -/
theorem grade?_of_skips (h : policy.Skips finding) : policy.grade? finding = none := by
  rw [grade?, if_pos (isSkipped_iff_skips.2 h)]

/-- Any other finding is graded by the override of its kind. -/
theorem grade?_of_not_skips (h : ¬policy.Skips finding) :
    policy.grade? finding =
      some { finding with severity := (policy.override? finding.kind).getD finding.severity } := by
  rw [grade?, if_neg fun hskipped => h (isSkipped_iff_skips.1 hskipped)]
  rfl

/-- Errors that are graded one by one go the ways of the policy. -/
theorem judged_judgeEach (h : ∀ finding ∈ findings, finding.severity = .error) :
    Judged policy findings (policy.judgeEach findings).findings
      (policy.judgeEach findings).advisories := by
  induction findings with
  | nil => exact .nil
  | cons finding findings ih =>
      have hothers := ih fun other hother => h other (List.mem_cons_of_mem _ hother)
      have herror : finding.severity = .error := h finding List.mem_cons_self
      simp only [judgeEach] at hothers ⊢
      by_cases hskips : policy.Skips finding
      · rw [List.filterMap_cons_none (grade?_of_skips hskips)]
        exact .dropped hskips hothers
      have hgrade := grade?_of_not_skips hskips
      cases hoverride : policy.override? finding.kind with
      | none =>
          -- Without an override the finding keeps its severity, which is that of an error.
          rw [hoverride, Option.getD_none] at hgrade
          rw [List.filterMap_cons_some hgrade, List.filter_cons_of_pos (by simp [herror]),
            List.filter_cons_of_neg (by simp [herror])]
          exact .blocks hskips (.inl hoverride) hothers
      | some severity =>
          rw [hoverride, Option.getD_some] at hgrade
          rw [List.filterMap_cons_some hgrade]
          by_cases hblocks : severity = .error
          · have hsame : ({ finding with severity } : Finding) = finding := by
              rw [hblocks, ← herror]
            rw [hsame, List.filter_cons_of_pos (by simp [herror]),
              List.filter_cons_of_neg (by simp [herror])]
            exact .blocks hskips (.inr (hblocks ▸ hoverride)) hothers
          · rw [List.filter_cons_of_neg (by simp [hblocks]),
              List.filter_cons_of_pos (by simp [hblocks])]
            refine .advises hskips severity hoverride ?_ hothers
            cases severity with
            | info => exact .inr rfl
            | warn => exact .inl rfl
            | error => exact absurd rfl hblocks

/-- A policy that changes nothing leaves a finding as it is. -/
theorem grade?_of_isDefault (h : policy.isDefault = true) :
    policy.grade? finding = some finding := by
  obtain ⟨htable, hskip⟩ : policy.overrides.table.entries = [] ∧ policy.skipTypes = [] := by
    simpa [isDefault, NameMap.isEmpty] using h
  have hskips : ¬policy.Skips finding := by
    intro hskips
    obtain ⟨pattern, hpattern, -⟩ := hskips
    rw [hskip] at hpattern
    cases hpattern
  have hoverride : policy.override? finding.kind = none := by
    rw [override?, NameMap.find?, htable]
    rfl
  rw [grade?_of_not_skips hskips, hoverride, Option.getD_none]

/-- Errors that are graded as they are all block. -/
theorem judgeEach_eq_of_grade?_eq_self (h : ∀ finding ∈ findings, finding.severity = .error)
    (hgrade : ∀ finding ∈ findings, policy.grade? finding = some finding) :
    policy.judgeEach findings = ⟨findings, []⟩ := by
  have hgraded : findings.filterMap policy.grade? = findings := by
    have hsome : findings.filterMap policy.grade? = findings.filterMap some :=
      List.filterMap_congr hgrade
    rw [hsome, List.filterMap_some]
  have hblocking : (findings.filter fun finding => finding.severity = .error) = findings :=
    List.filter_eq_self.2 fun finding hmem => by simp [h finding hmem]
  have hadvisories : (findings.filter fun finding => finding.severity ≠ .error) = [] :=
    List.filter_eq_nil_iff.2 fun finding hmem => by simp [h finding hmem]
  rw [judgeEach, hgraded, hblocking, hadvisories]

/-- The short cut for a policy that changes nothing comes to the same as grading each finding, since
all findings are errors. -/
theorem judge_eq_judgeEach (h : ∀ finding ∈ findings, finding.severity = .error) :
    policy.judge findings = policy.judgeEach findings := by
  unfold judge
  split
  · rename_i hdefault
    exact (judgeEach_eq_of_grade?_eq_self h fun finding _ => grade?_of_isDefault hdefault).symm
  · rfl

section Rewording

/-- A change of findings that touches nothing a policy looks at: kind, type path and severity. -/
structure Rewording (reword : Finding → Finding) : Prop where
  kind : ∀ finding, (reword finding).kind = finding.kind
  typePath : ∀ finding, (reword finding).typePath = finding.typePath
  severity : ∀ finding severity,
    reword { finding with severity } = { reword finding with severity }

variable {reword : Finding → Finding}

/-- A finding keeps its severity. -/
theorem Rewording.severity_eq (h : Rewording reword) (finding : Finding) :
    (reword finding).severity = finding.severity := by
  have hsame := congrArg Finding.severity (h.severity finding finding.severity)
  exact hsame

/-- A finding is graded in the same way before and after. -/
theorem Rewording.grade?_eq (h : Rewording reword) (policy : Policy) (finding : Finding) :
    policy.grade? (reword finding) = (policy.grade? finding).map reword := by
  unfold grade?
  rw [h.typePath]
  split
  · rfl
  · have hsame := h.severity finding (policy.overrides.severityOf finding.kind finding.severity)
    rw [Option.map_some, hsame]
    simp only [h.kind, h.typePath, h.severity_eq]

/-- A policy comes to the same verdict on findings that are worded differently. -/
theorem Rewording.judge_map (h : Rewording reword) (policy : Policy) (findings : List Finding) :
    policy.judge (findings.map reword) = (policy.judge findings).map reword := by
  have hgraded : (findings.map reword).filterMap policy.grade? =
      (findings.filterMap policy.grade?).map reword := by
    rw [List.filterMap_map, List.map_filterMap]
    exact List.filterMap_congr fun finding _ => h.grade?_eq policy finding
  have hfilter (p : Severity → Bool) (findings : List Finding) :
      (findings.map reword).filter (fun finding => p finding.severity) =
        (findings.filter fun finding => p finding.severity).map reword := by
    rw [List.filter_map]
    simp only [Function.comp_def, h.severity_eq]
  unfold judge
  split
  · rfl
  · rw [hgraded, Verdict.map]
    exact congrArg₂ Verdict.mk (hfilter (fun severity => severity = .error) _)
      (hfilter (fun severity => severity ≠ .error) _)

end Rewording

end Policy

/-- A check comes to the error of the first schema that cannot be indexed, the baseline before the
candidate. Otherwise its verdict takes every finding the way of the policy, in order; it is
compatible exactly when nothing blocks, and it is what grading each finding comes to, also where the
policy changes nothing. -/
theorem check_judged (config : Config) (baseline candidate : SchemaTree) :
    match TypeIndex.build baseline, TypeIndex.build candidate with
    | .error repeated, _ => check config.policy baseline candidate = .error repeated
    | .ok _, .error repeated => check config.policy baseline candidate = .error repeated
    | .ok old, .ok new =>
        ∃ verdict, check config.policy baseline candidate = .ok verdict ∧
          config.policy.Judged (findings old new) verdict.findings verdict.advisories ∧
          (verdict.compatible = true ↔ verdict.findings = []) ∧
          verdict = config.policy.judgeEach (findings old new) := by
  cases hold : TypeIndex.build baseline with
  | error repeated =>
      show check config.policy baseline candidate = .error repeated
      rw [check, hold]
      rfl
  | ok old =>
      cases hnew : TypeIndex.build candidate with
      | error repeated =>
          show check config.policy baseline candidate = .error repeated
          rw [check, hold, hnew]
          rfl
      | ok new =>
          have herror : ∀ finding ∈ findings old new, finding.severity = .error :=
            fun finding hfinding => severity_of_mem_findings hfinding
          have heach : config.policy.judge (findings old new) =
              config.policy.judgeEach (findings old new) := Policy.judge_eq_judgeEach herror
          refine ⟨_, check_of_build hold hnew, ?_, List.isEmpty_iff, heach⟩
          rw [heach]
          exact Policy.judged_judgeEach herror

end SchemaGate
