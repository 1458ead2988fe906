import SchemaGate.Finding

/-!
# Verdicts

A verdict is what a check comes to: the findings that block, in report order, and the advisories,
which never block. A verdict is compatible when nothing blocks.
-/

namespace SchemaGate

/-- The outcome of a check. -/
structure Verdict where
  findings : List Finding
  advisories : List Finding := []
  deriving DecidableEq, Repr, Inhabited

namespace Verdict

/-- Whether nothing blocks. -/
def compatible (verdict : Verdict) : Bool :=
  verdict.findings.isEmpty

/-- The blocking findings, then the advisories. -/
def all (verdict : Verdict) : List Finding :=
  verdict.findings ++ verdict.advisories

end Verdict

end SchemaGate
