import Mathlib.Data.List.Infix
import SchemaGate.Lock.Path
import SchemaGate.Proofs.Text.Cutting

/-!
# Paths that survive a lock file

A lock file marks the last slash of a path, and reading it back replaces every mark. The path is the
same again exactly when there was no mark in it before and none has come about by putting one behind
its directory. The main statement is `normalize_ofPath_eq_iff`.
-/

namespace SchemaGate.Protopath

/-- What is replaced by a slash. -/
def mark : List Char := [':', '/', ':']

/-- A mark at the beginning is replaced. -/
theorem normalizeChars_mark (rest : List Char) :
    normalizeChars (mark ++ rest) = '/' :: normalizeChars rest := by
  rw [mark, List.cons_append, List.cons_append, List.cons_append, List.nil_append, normalizeChars]

/-- A character that does not begin a mark is kept. -/
theorem normalizeChars_cons {c : Char} {rest : List Char} (h : ¬mark <+: c :: rest) :
    normalizeChars (c :: rest) = c :: normalizeChars rest := by
  rw [normalizeChars]
  rintro tail rfl rfl
  exact h (List.prefix_append mark tail)

/-- Whether the first mark begins with the first character of a directory can be seen from the
directory and the colon behind it. -/
theorem mark_prefix_iff {c : Char} {directory file : List Char} :
    mark <+: c :: (directory ++ mark ++ file) ↔ mark <+: c :: (directory ++ [':']) := by
  have hsplit : c :: (directory ++ mark ++ file) =
      c :: (directory ++ [':']) ++ ('/' :: ':' :: file) := by
    simp [mark]
  rw [hsplit]
  constructor
  · intro h
    cases directory with
    | nil => simp [mark] at h
    | cons next directory =>
        refine List.prefix_of_prefix_length_le h (List.prefix_append _ _) ?_
        simp [mark]
  · exact fun h => h.trans (List.prefix_append _ _)

/-- If a mark is put between a directory and a file, the marks are read as one slash between them
exactly when no mark begins before the directory ends. -/
theorem normalizeChars_append_mark_iff {directory file : List Char} (hfile : '/' ∉ file) :
    normalizeChars (directory ++ mark ++ file) = directory ++ '/' :: file ↔
      ¬mark <:+: directory ++ [':'] := by
  induction directory with
  | nil =>
      rw [List.nil_append, normalizeChars_mark, normalizeChars_eq_self hfile, List.nil_append,
        List.nil_append, eq_self, true_iff]
      intro h
      exact absurd h.length_le (by decide)
  | cons c directory ih =>
      rw [List.cons_append, List.cons_append, List.cons_append, List.cons_append,
        List.infix_cons_iff, ← mark_prefix_iff]
      by_cases hmark : mark <+: c :: (directory ++ mark ++ file)
      · -- The first mark becomes a slash, where the directory begins with a colon.
        obtain ⟨rest, hrest⟩ := hmark
        obtain rfl : ':' = c := (List.cons.inj hrest).1
        rw [← hrest, normalizeChars_mark, List.cons.injEq]
        simp [mark]
      · rw [normalizeChars_cons hmark, List.cons.injEq, eq_self, true_and, ih, or_iff_right hmark]

/-- A path survives a lock file exactly when no mark begins before its directory ends once a colon
has been put behind the directory. A path without slashes has no directory. -/
theorem normalize_ofPath_eq_iff {path : String} :
    normalize (ofPath path) = path ↔
      ∀ directory file, path.toList = directory ++ '/' :: file → '/' ∉ file →
        ¬mark <:+: directory ++ [':'] := by
  unfold ofPath normalize
  rw [← String.toList_inj, String.toList_ofList]
  cases hcut : Text.cutLast? '/' path.toList with
  | none =>
      have hnone := Text.cutLast?_eq_none_iff.1 hcut
      rw [normalizeChars_eq_self hnone, eq_self, true_iff]
      intro directory file hpath
      simp [hpath] at hnone
  | some cut =>
      obtain ⟨directory, file⟩ := cut
      obtain ⟨hpath, hfile⟩ := Text.cutLast?_eq_some_iff.1 hcut
      rw [String.toList_ofList, hpath, ← mark, normalizeChars_append_mark_iff hfile]
      constructor
      · intro h directory' file' hsplit hfile'
        have hsame := Text.cutLast?_eq_some_iff.2 ⟨hsplit, hfile'⟩
        rw [Text.cutLast?_eq_some_iff.2 ⟨rfl, hfile⟩] at hsame
        obtain ⟨rfl, rfl⟩ := Prod.mk.inj (Option.some.inj hsame)
        exact h
      · exact fun h => h directory file rfl hfile

end SchemaGate.Protopath
