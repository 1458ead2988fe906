import Mathlib.Data.List.Infix
import SchemaGate.Policy.Basic

/-!
# What stars stand for

A text fits a pattern if it is what the pattern becomes when each star is replaced by some run of
characters. The matcher looks for the parts between the stars one after the other and takes the
leftmost occurrence of each. That loses no match: an occurrence further to the right leaves less of
the text, and the run before the next part can always take up what is left over. The main statement
is `isSkipped_iff_fits`.
-/

namespace SchemaGate.Glob

/-- A pattern with its stars replaced, in order, by runs of characters. -/
def fill : List Char → List (List Char) → List Char
  | [], _ => []
  | c :: pattern, runs =>
      if c = '*' then runs.headD [] ++ fill pattern runs.tail else c :: fill pattern runs

/-- The text is the pattern with every star replaced by a run of characters. -/
def Fits (pattern text : String) : Prop :=
  ∃ runs : List (List Char), runs.length = pattern.toList.count '*' ∧
    text.toList = fill pattern.toList runs

/-- Parts of a pattern, each behind a run of characters. -/
def weave : List (List Char) → List (List Char) → List Char
  | run :: runs, part :: parts => run ++ part ++ weave runs parts
  | _, _ => []

section Occurrences

variable {part text rest : List Char}

/-- What follows the leftmost occurrence of a part stands behind an occurrence. -/
theorem exists_of_afterFirst?_eq_some (h : Text.afterFirst? part text = some rest) :
    ∃ run, text = run ++ part ++ rest := by
  induction text with
  | nil =>
      rw [Text.afterFirst?, Text.dropPrefix?_eq_some_iff] at h
      exact ⟨[], h⟩
  | cons c text ih =>
      rw [Text.afterFirst?] at h
      cases hdrop : Text.dropPrefix? part (c :: text) with
      | some found =>
          rw [hdrop] at h
          cases h
          exact ⟨[], Text.dropPrefix?_eq_some_iff.1 hdrop⟩
      | none =>
          rw [hdrop] at h
          obtain ⟨run, hrun⟩ := ih h
          exact ⟨c :: run, congrArg (c :: ·) hrun⟩

/-- The leftmost occurrence of a part leaves at least what any other occurrence leaves. -/
theorem exists_afterFirst?_eq_some (run part rest : List Char) :
    ∃ most, Text.afterFirst? part (run ++ part ++ rest) = some most ∧ rest <:+ most := by
  induction run with
  | nil =>
      refine ⟨rest, ?_, List.suffix_refl rest⟩
      have hdrop : Text.dropPrefix? part (part ++ rest) = some rest :=
        Text.dropPrefix?_eq_some_iff.2 rfl
      rw [List.nil_append]
      cases htext : part ++ rest with
      | nil => rw [Text.afterFirst?, ← htext, hdrop]
      | cons c text => rw [Text.afterFirst?, ← htext, hdrop]
  | cons c run ih =>
      rw [List.cons_append, List.cons_append, Text.afterFirst?]
      cases hdrop : Text.dropPrefix? part (c :: (run ++ part ++ rest)) with
      | none => exact ih
      | some most =>
          -- Both ends belong to one text, and the part takes equally much of it.
          refine ⟨most, rfl, ?_⟩
          have htext : c :: (run ++ part ++ rest) = part ++ most :=
            Text.dropPrefix?_eq_some_iff.1 hdrop
          have hrest : rest <:+ part ++ most := ⟨c :: (run ++ part), htext⟩
          have hlength : rest.length ≤ most.length := by
            have hsame := congrArg List.length htext
            simp only [List.length_cons, List.length_append] at hsame
            omega
          exact List.suffix_of_suffix_length_le hrest (List.suffix_append part most) hlength

end Occurrences

section Parts

variable {part : List Char} {parts : List (List Char)} {text rest : List Char}

/-- The first run takes up what is put before woven parts. -/
theorem exists_weave_append (extra : List Char) {runs : List (List Char)}
    (hlength : runs.length = (part :: parts).length) :
    ∃ others : List (List Char), others.length = (part :: parts).length ∧
      extra ++ weave runs (part :: parts) = weave others (part :: parts) := by
  cases runs with
  | nil => cases hlength
  | cons run runs =>
      refine ⟨(extra ++ run) :: runs, hlength, ?_⟩
      rw [weave, weave, List.append_assoc, List.append_assoc, List.append_assoc]

/-- Of several parts the first is found as far left as possible. -/
theorem matchesParts_cons_cons {next : List Char} :
    matchesParts (part :: next :: parts) text = true ↔
      ∃ rest, Text.afterFirst? part text = some rest ∧
        matchesParts (next :: parts) rest = true := by
  rw [matchesParts]
  · cases Text.afterFirst? part text <;> simp
  · exact List.cons_ne_nil next parts

/-- What the parts after the first star leave to be matched is these parts, each behind a run. -/
theorem matchesParts_iff :
    matchesParts parts text = true ↔
      ∃ runs : List (List Char), runs.length = parts.length ∧ text = weave runs parts := by
  induction parts generalizing text with
  | nil => simp [matchesParts, weave]
  | cons part parts ih =>
      cases parts with
      | nil =>
          have hlast : matchesParts [part] text = true ↔ ∃ run, text = run ++ part := by
            rw [matchesParts, Text.endsWith, Option.isSome_iff_exists]
            simp only [Text.dropSuffix?_eq_some_iff]
          rw [hlast]
          constructor
          · rintro ⟨run, rfl⟩
            exact ⟨[run], rfl, (List.append_nil _).symm⟩
          · rintro ⟨runs, hlength, rfl⟩
            obtain ⟨run, rfl⟩ := List.length_eq_one_iff.1 hlength
            exact ⟨run, List.append_nil _⟩
      | cons next parts =>
          rw [matchesParts_cons_cons]
          constructor
          · rintro ⟨rest, hafter, hparts⟩
            obtain ⟨run, rfl⟩ := exists_of_afterFirst?_eq_some hafter
            obtain ⟨runs, hlength, rfl⟩ := ih.1 hparts
            exact ⟨run :: runs, congrArg (· + 1) hlength, rfl⟩
          · rintro ⟨runs, hlength, rfl⟩
            cases runs with
            | nil => cases hlength
            | cons run runs =>
                have hothers : runs.length = (next :: parts).length := Nat.succ.inj hlength
                obtain ⟨most, hafter, extra, rfl⟩ :=
                  exists_afterFirst?_eq_some run part (weave runs (next :: parts))
                exact ⟨_, hafter, ih.2 (exists_weave_append extra hothers)⟩

/-- A pattern has a part behind each star, and its stars are replaced by weaving these parts. -/
theorem exists_splitOn_eq_cons (pattern : List Char) :
    ∃ first parts, Text.splitOn '*' pattern = first :: parts ∧
      parts.length = pattern.count '*' ∧
      ∀ runs : List (List Char), runs.length = parts.length →
        fill pattern runs = first ++ weave runs parts := by
  induction pattern with
  | nil =>
      refine ⟨[], [], rfl, rfl, fun runs hlength => ?_⟩
      rw [List.length_eq_zero_iff.1 hlength]
      rfl
  | cons c pattern ih =>
      obtain ⟨first, parts, hsplit, hcount, hfill⟩ := ih
      by_cases hstar : c = '*'
      · subst hstar
        refine ⟨[], first :: parts, ?_, ?_, fun runs hlength => ?_⟩
        · rw [Text.splitOn, if_pos rfl, hsplit]
        · rw [List.length_cons, List.count_cons_self, hcount]
        · cases runs with
          | nil => cases hlength
          | cons run runs =>
              rw [fill, if_pos rfl, List.headD_cons, List.tail_cons,
                hfill runs (Nat.succ.inj hlength), weave, List.nil_append, List.append_assoc]
      · refine ⟨c :: first, parts, ?_, ?_, fun runs hlength => ?_⟩
        · rw [Text.splitOn, if_neg hstar, hsplit]
        · rw [List.count_cons_of_ne hstar, hcount]
        · rw [fill, if_neg hstar, hfill runs hlength, List.cons_append]

end Parts

/-- A pattern matches exactly the texts that it becomes when its stars are replaced. -/
theorem isMatch_iff_fits {pattern text : String} :
    isMatch pattern text = true ↔ Fits pattern text := by
  obtain ⟨first, parts, hsplit, hcount, hfill⟩ := exists_splitOn_eq_cons pattern.toList
  have hmatch : isMatch pattern text = true ↔
      ∃ rest, text.toList = first ++ rest ∧ matchesParts parts rest = true := by
    rw [isMatch, matchesChars, hsplit]
    simp only [← Text.dropPrefix?_eq_some_iff]
    cases Text.dropPrefix? first text.toList <;> simp
  rw [hmatch, Fits, ← hcount]
  constructor
  · rintro ⟨rest, htext, hparts⟩
    obtain ⟨runs, hlength, rfl⟩ := matchesParts_iff.1 hparts
    exact ⟨runs, hlength, htext.trans (hfill runs hlength).symm⟩
  · rintro ⟨runs, hlength, htext⟩
    exact ⟨weave runs parts, htext.trans (hfill runs hlength),
      matchesParts_iff.2 ⟨runs, hlength, rfl⟩⟩

/-- A text fits a pattern without stars only if it is the pattern. -/
theorem fits_iff_of_literal {pattern text : String} (h : '*' ∉ pattern.toList) :
    Fits pattern text ↔ text = pattern := by
  rw [← isMatch_iff_fits, isMatch, matches_literal_iff h, String.toList_inj]

end SchemaGate.Glob

namespace SchemaGate

/-- A pattern matches exactly the texts that come of it by replacing every star by some run of
characters, so one without stars matches only itself. A type is listed exactly if its path comes of
one of the patterns in this way. -/
theorem isSkipped_iff_fits (patterns : List String) (path : String) :
    (isSkipped patterns path = true ↔ ∃ pattern ∈ patterns, Glob.Fits pattern path) ∧
      ∀ pattern text : String,
        (Glob.isMatch pattern text = true ↔ Glob.Fits pattern text) ∧
        ('*' ∉ pattern.toList → (Glob.Fits pattern text ↔ text = pattern)) := by
  refine ⟨?_, fun pattern text => ⟨Glob.isMatch_iff_fits, Glob.fits_iff_of_literal⟩⟩
  simp only [isSkipped_iff, Glob.isMatch_iff_fits]

end SchemaGate
