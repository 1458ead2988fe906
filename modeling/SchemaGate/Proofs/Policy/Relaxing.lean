import SchemaGate.Proofs.Policy.Judgement

/-!
# Relaxing a policy

A policy is relaxed by listing more types and by lowering severities. What blocks under a policy is
a selection of the findings, each as it is, and a relaxed policy selects fewer; so no candidate that
passes is held up by a relaxed policy. A policy is content with its own selection: judged once more,
all of it blocks. The main statements are `Judged.blocking_eq_filter`, `judge_judge` and
`judge_relaxed`.
-/

namespace SchemaGate

/-- Where a check comes to a verdict, both schemas can be indexed, and the verdict is that of the
policy on their findings. -/
theorem exists_build_of_check {policy : Policy} {baseline candidate : SchemaTree}
    {verdict : Verdict} (h : check policy baseline candidate = .ok verdict) :
    ∃ old new, TypeIndex.build baseline = .ok old ∧ TypeIndex.build candidate = .ok new ∧
      policy.judge (findings old new) = verdict := by
  cases hold : TypeIndex.build baseline with
  | error repeated =>
      rw [check, hold] at h
      cases h
  | ok old =>
      cases hnew : TypeIndex.build candidate with
      | error repeated =>
          rw [check, hold, hnew] at h
          cases h
      | ok new =>
          rw [check_of_build hold hnew] at h
          exact ⟨old, new, rfl, rfl, Except.ok.inj h⟩

/-- The rank of a severity: an information is less than a warning, and that less than an error. -/
def Severity.rank : Severity → Nat
  | info => 0
  | warn => 1
  | error => 2

/-- Nothing ranks as high as an error but an error. -/
theorem Severity.eq_error_of_rank_le {severity : Severity} (h : error.rank ≤ severity.rank) :
    severity = error := by
  cases severity with
  | info => exact absurd h (by decide)
  | warn => exact absurd h (by decide)
  | error => rfl

/-- If less blocks and nothing has blocked before, nothing blocks. -/
theorem Verdict.compatible_of_sublist {verdict other : Verdict}
    (h : other.findings.Sublist verdict.findings) (hcompatible : verdict.compatible = true) :
    other.compatible = true := by
  rw [compatible, List.isEmpty_iff] at hcompatible ⊢
  rw [hcompatible] at h
  exact List.sublist_nil.1 h

/-- An override is the same for a severity that it has set. -/
theorem SeverityOverrides.severityOf_severityOf (overrides : SeverityOverrides) (kind : FindingKind)
    (severity : Severity) :
    overrides.severityOf kind (overrides.severityOf kind severity) =
      overrides.severityOf kind severity := by
  unfold severityOf
  cases overrides.table.find? kind.code <;> rfl

namespace Policy

/-- The severity that findings of a kind get, which without an override are errors. -/
def effective (policy : Policy) (kind : FindingKind) : Severity :=
  (policy.override? kind).getD .error

/-- The relaxed policy lists at least the same types, and no kind gets a higher severity. -/
structure RelaxedTo (policy relaxed : Policy) : Prop where
  lists : ∀ pattern ∈ policy.skipTypes, pattern ∈ relaxed.skipTypes
  lowers : ∀ kind, (relaxed.effective kind).rank ≤ (policy.effective kind).rank

/-- The policy blocks on an error: it does not list the type, and the kind is still an error. -/
def Blocks (policy : Policy) (finding : Finding) : Prop :=
  ¬policy.Skips finding ∧ policy.effective finding.kind = .error

/-- Whether a type is listed is decided pattern by pattern. -/
instance (policy : Policy) (finding : Finding) : Decidable (policy.Skips finding) :=
  inferInstanceAs (Decidable (∃ pattern ∈ policy.skipTypes, _))

/-- Whether a policy blocks on an error is decided by its list and its override. -/
instance (policy : Policy) (finding : Finding) : Decidable (policy.Blocks finding) :=
  inferInstanceAs (Decidable (_ ∧ _))

variable {policy relaxed : Policy} {finding : Finding} {findings : List Finding}

section Selection

/-- Where findings go their ways under a policy, those that block are selected by the policy. -/
theorem Judged.blocking_eq_filter {blocking advisories : List Finding}
    (h : policy.Judged findings blocking advisories) :
    blocking = findings.filter fun finding => policy.Blocks finding := by
  induction h with
  | nil => rfl
  | @dropped finding _ _ _ hskips _ ih =>
      have hblocks : ¬policy.Blocks finding := fun hblocks => hblocks.1 hskips
      rw [List.filter_cons_of_neg (by simpa using hblocks)]
      exact ih
  | @blocks finding _ _ _ hkept hoverride _ ih =>
      have heffective : policy.effective finding.kind = .error := by
        obtain hnone | hsome := hoverride
        · rw [effective, hnone, Option.getD_none]
        · rw [effective, hsome, Option.getD_some]
      have hblocks : policy.Blocks finding := ⟨hkept, heffective⟩
      rw [List.filter_cons_of_pos (by simpa using hblocks), ih]
  | @advises finding _ _ _ hkept severity hoverride hlower _ ih =>
      have hblocks : ¬policy.Blocks finding := by
        intro hblocks
        have heffective := hblocks.2
        rw [effective, hoverride, Option.getD_some] at heffective
        obtain hwarn | hinfo := hlower
        · cases hwarn.symm.trans heffective
        · cases hinfo.symm.trans heffective
      rw [List.filter_cons_of_neg (by simpa using hblocks)]
      exact ih

/-- Of errors those block that the policy selects. -/
theorem findings_judge_eq_filter (h : ∀ finding ∈ findings, finding.severity = .error) :
    (policy.judge findings).findings = findings.filter fun finding => policy.Blocks finding := by
  rw [judge_eq_judgeEach h]
  exact (judged_judgeEach h).blocking_eq_filter

/-- What a relaxed policy blocks on the policy blocks on as well. -/
theorem RelaxedTo.blocks (h : policy.RelaxedTo relaxed) (hblocks : relaxed.Blocks finding) :
    policy.Blocks finding := by
  obtain ⟨hkept, heffective⟩ := hblocks
  refine ⟨fun hskips => hkept ?_, ?_⟩
  · obtain ⟨pattern, hpattern, hmatch⟩ := hskips
    exact ⟨pattern, h.lists pattern hpattern, hmatch⟩
  · have hlowers := h.lowers finding.kind
    rw [heffective] at hlowers
    exact Severity.eq_error_of_rank_le hlowers

/-- Of errors a relaxed policy blocks on a part, in the same order. -/
theorem RelaxedTo.findings_sublist (h : policy.RelaxedTo relaxed)
    (herror : ∀ finding ∈ findings, finding.severity = .error) :
    (relaxed.judge findings).findings.Sublist (policy.judge findings).findings := by
  rw [findings_judge_eq_filter herror, findings_judge_eq_filter herror]
  refine List.monotone_filter_right findings fun finding hblocks => ?_
  rw [decide_eq_true_eq] at hblocks ⊢
  exact h.blocks hblocks

end Selection

section Again

/-- A graded finding is graded again to what it is. -/
theorem grade?_of_grade?_eq_some {graded : Finding} (h : policy.grade? finding = some graded) :
    policy.grade? graded = some graded := by
  unfold grade? at h ⊢
  split at h
  · cases h
  · rename_i hlisted
    -- The path and the kind are those of the finding, so the list and the override are the same.
    obtain rfl := Option.some.inj h
    rw [if_neg hlisted, SeverityOverrides.severityOf_severityOf]

/-- What blocks under a policy still blocks as it is when it is judged again, and nothing is
re-graded. -/
theorem judge_judge (policy : Policy) (findings : List Finding) :
    policy.judge (policy.judge findings).findings = ⟨(policy.judge findings).findings, []⟩ := by
  cases hdefault : policy.isDefault with
  | true => simp [judge, hdefault]
  | false =>
      have hblocking : ∀ finding ∈ (policy.judge findings).findings,
          finding.severity = .error ∧ policy.grade? finding = some finding := by
        intro finding hfinding
        rw [judge_findings hdefault, List.mem_filter, List.mem_filterMap] at hfinding
        obtain ⟨⟨original, -, hgraded⟩, herror⟩ := hfinding
        exact ⟨of_decide_eq_true herror, grade?_of_grade?_eq_some hgraded⟩
      rw [judge_eq_judgeEach fun finding hmem => (hblocking finding hmem).1]
      exact judgeEach_eq_of_grade?_eq_self (fun finding hmem => (hblocking finding hmem).1)
        fun finding hmem => (hblocking finding hmem).2

end Again

end Policy

/-- If a policy is relaxed, then what blocks of the findings between two schemas is a part of what
has blocked before, in the same order, so a candidate that passes still passes. What blocks under
any policy is returned as it is, and nothing with it, when it is judged under this policy again. -/
theorem judge_relaxed {policy relaxed : Policy} (h : policy.RelaxedTo relaxed) :
    (∀ old new,
      (relaxed.judge (findings old new)).findings.Sublist
        (policy.judge (findings old new)).findings ∧
      ((policy.judge (findings old new)).compatible = true →
        (relaxed.judge (findings old new)).compatible = true)) ∧
    (∀ baseline candidate verdict, check policy baseline candidate = .ok verdict →
      ∃ lenient, check relaxed baseline candidate = .ok lenient ∧
        lenient.findings.Sublist verdict.findings ∧
        (verdict.compatible = true → lenient.compatible = true)) ∧
    ∀ (judging : Policy) (findings : List Finding),
      judging.judge (judging.judge findings).findings =
        ⟨(judging.judge findings).findings, []⟩ := by
  have hfewer (old new : TypeIndex) : (relaxed.judge (findings old new)).findings.Sublist
      (policy.judge (findings old new)).findings :=
    h.findings_sublist fun _ hfinding => severity_of_mem_findings hfinding
  refine ⟨fun old new => ⟨hfewer old new, Verdict.compatible_of_sublist (hfewer old new)⟩, ?_,
    Policy.judge_judge⟩
  intro baseline candidate verdict hverdict
  obtain ⟨old, new, hold, hnew, rfl⟩ := exists_build_of_check hverdict
  exact ⟨_, check_of_build hold hnew, hfewer old new,
    Verdict.compatible_of_sublist (hfewer old new)⟩

/-- A schema with a message that is going out of use. -/
def parkBefore : SchemaTree :=
  ⟨[{ path := "park.proto", package := ["park"]
      messages :=
        [{ name := "Fence", fields := [⟨"post", 1, "string", false, none⟩] },
         { name := "Gate", fields := [⟨"latch", 1, "string", false, none⟩,
             ⟨"hinge", 2, "string", false, none⟩], reserved := ⟨[⟨7, 7⟩], []⟩ },
         { name := "OldPath" }] }]⟩

/-- A release without this message, without two fields and with a field on a reserved number. -/
def parkAfter : SchemaTree :=
  ⟨[{ path := "park.proto", package := ["park"]
      messages := [{ name := "Fence" },
        { name := "Gate", fields := [⟨"latch", 7, "string", false, none⟩] }] }]⟩

/-- A policy that lists what is out of use. -/
def parkPolicy : Policy := { skipTypes := ["park.Old*"] }

/-- A policy that lists one more type and makes a warning of number conflicts. -/
def parkRelaxed : Policy :=
  { overrides := SeverityOverrides.set {} .tagConflict .warn
    skipTypes := ["*.Fence", "park.Old*"] }

/-- The relaxed policy still blocks on the field that is gone. -/
theorem judge_relaxed_park :
    parkPolicy.RelaxedTo parkRelaxed ∧
      ∃ verdict lenient, check parkPolicy parkBefore parkAfter = .ok verdict ∧
        check parkRelaxed parkBefore parkAfter = .ok lenient ∧
        verdict.findings.map (·.kind) = [.removedField, .removedField, .tagConflict] ∧
        lenient.findings.map (·.kind) = [.removedField] ∧
        lenient.findings.Sublist verdict.findings ∧
        parkRelaxed.judge lenient.findings = ⟨lenient.findings, []⟩ := by
  have hrelaxed : parkPolicy.RelaxedTo parkRelaxed := by
    refine ⟨by decide, fun kind => ?_⟩
    cases kind <;> decide
  obtain ⟨-, hcheck, hagain⟩ := judge_relaxed hrelaxed
  have hverdict : check parkPolicy parkBefore parkAfter =
      .ok (parkPolicy.judge (findings _ _)) := check_of_build rfl rfl
  obtain ⟨lenient, hlenient, hfewer, -⟩ := hcheck _ _ _ hverdict
  cases hlenient
  exact ⟨hrelaxed, _, _, hverdict, rfl, by decide +kernel, by decide +kernel, hfewer, hagain _ _⟩

end SchemaGate
