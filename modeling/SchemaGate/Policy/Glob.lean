import SchemaGate.Text.Split

/-!
# Glob patterns

A pattern is literal text in which a star stands for any run of characters, dots included. A pattern
without a star matches only itself. The main statement is `matches_literal_iff`.
-/

namespace SchemaGate.Glob

/-- Whether a text is what the parts of a pattern after its first star leave to be matched: each
part but the last is found as far left as possible, and the last must end the text. -/
def matchesParts : List (List Char) → List Char → Bool
  | [], text => text.isEmpty
  | [last], text => Text.endsWith last text
  | part :: parts, text =>
      match Text.afterFirst? part text with
      | some rest => matchesParts parts rest
      | none => false

/-- Whether a pattern matches a text. -/
def matchesChars (pattern text : List Char) : Bool :=
  match Text.splitOn '*' pattern with
  | [] => false
  | first :: parts =>
      match Text.dropPrefix? first text with
      | some rest => matchesParts parts rest
      | none => false

/-- Whether a pattern matches a text. -/
def isMatch (pattern text : String) : Bool :=
  matchesChars pattern.toList text.toList

/-- A pattern without a star has one part. -/
theorem splitOn_literal {pattern : List Char} (h : '*' ∉ pattern) :
    Text.splitOn '*' pattern = [pattern] := by
  induction pattern with
  | nil => rfl
  | cons c rest ih =>
      have hc : c ≠ '*' := fun hc => h (by simp [hc])
      have hrest : '*' ∉ rest := fun hrest => h (by simp [hrest])
      simp [Text.splitOn, hc, ih hrest]

/-- A pattern without a star matches only itself. -/
theorem matches_literal_iff {pattern text : List Char} (h : '*' ∉ pattern) :
    matchesChars pattern text = true ↔ text = pattern := by
  have hmatch : matchesChars pattern text = true ↔ Text.dropPrefix? pattern text = some [] := by
    simp only [matchesChars, splitOn_literal h]
    cases Text.dropPrefix? pattern text <;> simp [matchesParts]
  rw [hmatch, Text.dropPrefix?_eq_some_iff]
  simp

end SchemaGate.Glob
