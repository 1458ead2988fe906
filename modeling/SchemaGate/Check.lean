import SchemaGate.Analysis.Findings
import SchemaGate.Policy.Basic

/-!
# Checking a candidate against a baseline

`check` indexes both schemas, the baseline first, and judges the findings between them. The main
statement is `check_of_build`: once both indexes exist there is a verdict.
-/

namespace SchemaGate

/-- The verdict on a candidate under a policy, or a path that two types of one schema share. -/
def check (policy : Policy) (baseline candidate : SchemaTree) : Except DuplicatePath Verdict := do
  let old ← TypeIndex.build baseline
  let new ← TypeIndex.build candidate
  pure (policy.judge (findings old new))

/-- If both schemas can be indexed, the check gives the policy's verdict on their findings. -/
theorem check_of_build {policy : Policy} {baseline candidate : SchemaTree} {old new : TypeIndex}
    (hold : TypeIndex.build baseline = .ok old) (hnew : TypeIndex.build candidate = .ok new) :
    check policy baseline candidate = .ok (policy.judge (findings old new)) := by
  unfold check
  rw [hold, hnew]
  rfl

end SchemaGate
