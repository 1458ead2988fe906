import Mathlib.Data.List.TakeWhile
import SchemaGate.Text.Blank
import SchemaGate.Text.Split

/-!
# Cutting and joining without loss

A list of texts can be joined and cut again without loss exactly when none of them is empty or holds
the separator: `segments_join_eq_iff`. A text is cut at its first or last separator:
`cutFirst?_eq_some_iff` and `cutLast?_eq_some_iff`. A text without blanks at its ends is left alone
when blanks are removed, and removing blanks makes every text such a one: `trim_eq_self_iff` and
`trimmed_trim`.
-/

namespace SchemaGate.Text

section Pieces

variable {separator : Char}

/-- A text without separators is one piece. -/
theorem splitOn_eq_singleton {text : List Char} (h : separator ∉ text) :
    splitOn separator text = [text] := by
  induction text with
  | nil => rfl
  | cons c rest ih =>
      rw [List.mem_cons, not_or] at h
      rw [splitOn, if_neg (Ne.symm h.1), ih h.2]

/-- The pieces before a separator and the pieces behind it are the pieces of the whole text. -/
theorem splitOn_append (before after : List Char) :
    splitOn separator (before ++ separator :: after) =
      splitOn separator before ++ splitOn separator after := by
  induction before with
  | nil =>
      show (if separator = separator then [] :: splitOn separator after else _) = _
      rw [if_pos rfl]
      rfl
  | cons c rest ih =>
      rw [List.cons_append, splitOn, ih, splitOn]
      by_cases hc : c = separator
      · rw [if_pos hc, if_pos hc, List.cons_append]
      · rw [if_neg hc, if_neg hc]
        cases hpieces : splitOn separator rest with
        | nil => exact absurd hpieces (splitOn_ne_nil separator rest)
        | cons piece pieces => rfl

/-- The first piece ends before the first separator. -/
theorem splitOn_append_cons {piece : List Char} (h : separator ∉ piece) (rest : List Char) :
    splitOn separator (piece ++ separator :: rest) = piece :: splitOn separator rest := by
  rw [splitOn_append, splitOn_eq_singleton h, List.singleton_append]

/-- No piece holds a separator. -/
theorem not_mem_of_mem_splitOn {text piece : List Char} (h : piece ∈ splitOn separator text) :
    separator ∉ piece := by
  induction text generalizing piece with
  | nil =>
      rw [splitOn, List.mem_singleton] at h
      rw [h]
      exact List.not_mem_nil
  | cons c rest ih =>
      rw [splitOn] at h
      split at h
      · rcases List.mem_cons.1 h with rfl | h
        · exact List.not_mem_nil
        · exact ih h
      · rename_i hc
        cases hpieces : splitOn separator rest with
        | nil => exact absurd hpieces (splitOn_ne_nil separator rest)
        | cons first pieces =>
            rw [hpieces] at h ih
            rcases List.mem_cons.1 h with rfl | h
            · rw [List.mem_cons, not_or]
              exact ⟨Ne.symm hc, ih List.mem_cons_self⟩
            · exact ih (List.mem_cons_of_mem _ h)

/-- A segment is not empty and holds no separator. -/
theorem of_mem_segments {text segment : String} (h : segment ∈ segments separator text) :
    segment ≠ "" ∧ separator ∉ segment.toList := by
  obtain ⟨piece, hpiece, rfl⟩ := List.mem_map.1 h
  obtain ⟨hmem, hempty⟩ := List.mem_filter.1 hpiece
  rw [String.toList_ofList]
  refine ⟨?_, not_mem_of_mem_splitOn hmem⟩
  intro heq
  have hnil : piece = [] := by simpa using congrArg String.toList heq
  simp [hnil] at hempty

/-- Joining two or more texts puts a separator behind the first. -/
theorem join_cons_cons (separator text next : String) (texts : List String) :
    join separator (text :: next :: texts) =
      text ++ separator ++ join separator (next :: texts) := rfl

/-- A character of joined texts is one of the separator or of some text. -/
theorem mem_of_mem_join {separator : String} {texts : List String} {c : Char}
    (h : c ∈ (join separator texts).toList) :
    c ∈ separator.toList ∨ ∃ text ∈ texts, c ∈ text.toList := by
  induction texts with
  | nil => cases h
  | cons text texts ih =>
      cases texts with
      | nil => exact .inr ⟨text, List.mem_cons_self, h⟩
      | cons next texts =>
          rw [join_cons_cons, String.toList_append, String.toList_append, List.mem_append,
            List.mem_append] at h
          rcases h with (h | h) | h
          · exact .inr ⟨text, List.mem_cons_self, h⟩
          · exact .inl h
          · rcases ih h with hseparator | ⟨other, hother, hmem⟩
            · exact .inl hseparator
            · exact .inr ⟨other, List.mem_cons_of_mem _ hother, hmem⟩

/-- The pieces of joined texts are these texts, if none of them holds the separator. -/
theorem splitOn_toList_join {texts : List String} (hne : texts ≠ [])
    (h : ∀ text ∈ texts, separator ∉ text.toList) :
    splitOn separator (join (String.singleton separator) texts).toList =
      texts.map String.toList := by
  induction texts with
  | nil => exact absurd rfl hne
  | cons text texts ih =>
      have htext := h text List.mem_cons_self
      have htexts := fun other hother => h other (List.mem_cons_of_mem _ hother)
      cases texts with
      | nil => rw [join, splitOn_eq_singleton htext, List.map_singleton]
      | cons next others =>
          rw [join_cons_cons, String.toList_append, String.toList_append,
            String.toList_singleton, List.append_assoc, List.singleton_append,
            splitOn_append_cons htext, ih (List.cons_ne_nil _ _) htexts]
          rfl

/-- Texts are joined and cut again without loss exactly when none is empty or holds the
separator. -/
theorem segments_join_eq_iff {texts : List String} :
    segments separator (join (String.singleton separator) texts) = texts ↔
      ∀ text ∈ texts, text ≠ "" ∧ separator ∉ text.toList := by
  constructor
  · intro h text hmem
    rw [← h] at hmem
    exact of_mem_segments hmem
  · intro h
    cases texts with
    | nil => rfl
    | cons text texts =>
        have hpieces := splitOn_toList_join (List.cons_ne_nil text texts) fun other hother =>
          (h other hother).2
        have hall : ((text :: texts).map String.toList).filter (fun piece => !piece.isEmpty) =
            (text :: texts).map String.toList := by
          refine List.filter_eq_self.2 fun piece hpiece => ?_
          obtain ⟨other, hother, rfl⟩ := List.mem_map.1 hpiece
          simpa using (h other hother).1
        rw [segments, hpieces, hall, List.map_map]
        simp [Function.comp_def]

end Pieces

section Cuts

variable {separator : Char} {text before after : List Char}

/-- A text is not cut exactly when it has no separator. -/
theorem cutLast?_eq_none_iff : cutLast? separator text = none ↔ separator ∉ text := by
  induction text with
  | nil => simp [cutLast?]
  | cons c rest ih =>
      rw [cutLast?, List.mem_cons, not_or, ← ih]
      cases hrest : cutLast? separator rest with
      | some cut => simp
      | none => by_cases hc : c = separator <;> simp [hc, Ne.symm]

/-- A text is cut at the last separator. -/
theorem cutLast?_eq_some_iff :
    cutLast? separator text = some (before, after) ↔
      text = before ++ separator :: after ∧ separator ∉ after := by
  induction text generalizing before with
  | nil => simp [cutLast?]
  | cons c rest ih =>
      rw [cutLast?]
      cases before with
      | nil =>
          rw [List.nil_append, List.cons.injEq]
          cases hrest : cutLast? separator rest with
          | none =>
              have hnone := cutLast?_eq_none_iff.1 hrest
              by_cases hc : c = separator
              · simpa [hc] using fun h : rest = after => h ▸ hnone
              · simp [hc]
          | some cut =>
              have hsome : separator ∈ rest := by
                by_contra hnone
                rw [cutLast?_eq_none_iff.2 hnone] at hrest
                cases hrest
              simp only [Option.some.injEq, Prod.mk.injEq, reduceCtorEq, false_and, false_iff]
              rintro ⟨⟨-, rfl⟩, hnone⟩
              exact hnone hsome
      | cons first before =>
          rw [List.cons_append, List.cons.injEq, and_assoc, ← ih]
          cases hrest : cutLast? separator rest with
          | none => by_cases hc : c = separator <;> simp [hc]
          | some cut => simp [Prod.ext_iff, and_assoc]

/-- A text is not cut exactly when it has no separator. -/
theorem cutFirst?_eq_none_iff : cutFirst? separator text = none ↔ separator ∉ text := by
  induction text with
  | nil => simp [cutFirst?]
  | cons c rest ih =>
      rw [cutFirst?, List.mem_cons, not_or, ← ih]
      by_cases hc : c = separator
      · simp [hc]
      · simp [hc, Ne.symm hc]

/-- A text is cut at the first separator. -/
theorem cutFirst?_eq_some_iff :
    cutFirst? separator text = some (before, after) ↔
      text = before ++ separator :: after ∧ separator ∉ before := by
  induction text generalizing before with
  | nil => simp [cutFirst?]
  | cons c rest ih =>
      rw [cutFirst?]
      by_cases hc : c = separator
      · subst hc
        rw [if_pos rfl]
        cases before with
        | nil => simp [eq_comm]
        | cons first before =>
            rw [List.cons_append, List.cons.injEq, List.mem_cons, not_or]
            constructor
            · exact fun h => nomatch h
            · rintro ⟨⟨rfl, -⟩, hne, -⟩
              exact absurd rfl hne
      · rw [if_neg hc, Option.map_eq_some_iff]
        cases before with
        | nil => simp [hc]
        | cons first before =>
            rw [List.cons_append, List.cons.injEq, List.mem_cons, not_or]
            constructor
            · rintro ⟨cut, hcut, heq⟩
              obtain ⟨hfirst, rfl⟩ := Prod.mk.inj heq
              obtain ⟨rfl, rfl⟩ := List.cons.inj hfirst
              obtain ⟨hrest, hbefore⟩ := ih.1 hcut
              exact ⟨⟨rfl, hrest⟩, Ne.symm hc, hbefore⟩
            · rintro ⟨⟨rfl, hrest⟩, -, hbefore⟩
              exact ⟨(before, after), ih.2 ⟨hrest, hbefore⟩, rfl⟩

end Cuts

section Blanks

variable {text : List Char}

/-- A text has no blanks at its ends. -/
def Trimmed (text : List Char) : Prop :=
  (∀ c ∈ text.head?, isBlank c = false) ∧ ∀ c ∈ text.getLast?, isBlank c = false

/-- The blanks at the ends of a text are what is removed from it. -/
theorem exists_trim (text : List Char) :
    ∃ before after, text = before ++ trim text ++ after ∧
      (∀ c ∈ before, isBlank c = true) ∧ ∀ c ∈ after, isBlank c = true := by
  refine ⟨text.takeWhile isBlank, ((trimStart text).reverse.takeWhile isBlank).reverse, ?_, ?_, ?_⟩
  · have hend : trim text ++ ((trimStart text).reverse.takeWhile isBlank).reverse =
        trimStart text := by
      rw [trim, trimEnd, ← List.reverse_append, List.takeWhile_append_dropWhile,
        List.reverse_reverse]
    rw [List.append_assoc, hend, trimStart, List.takeWhile_append_dropWhile]
  · exact fun c hc => List.mem_takeWhile_imp hc
  · exact fun c hc => List.mem_takeWhile_imp (List.mem_reverse.1 hc)

/-- What is left after blanks have been removed at the beginning does not begin with one. -/
theorem isBlank_head?_dropWhile (text : List Char) :
    ∀ c ∈ (text.dropWhile isBlank).head?, isBlank c = false := by
  intro c hc
  have hhead := List.head?_dropWhile_not isBlank text
  rw [hc] at hhead
  exact hhead

/-- A text has no blanks at its ends after they have been removed. -/
theorem trimmed_trim (text : List Char) : Trimmed (trim text) := by
  constructor
  · intro c hc
    obtain ⟨rest, hrest⟩ : trim text <+: trimStart text := by
      rw [← List.reverse_suffix, trim, trimEnd, List.reverse_reverse]
      exact List.dropWhile_suffix _
    refine isBlank_head?_dropWhile text c ?_
    rw [← trimStart, ← hrest]
    rw [List.head?_append, Option.mem_def.1 hc, Option.some_or]
    exact Option.mem_some_self c
  · intro c hc
    rw [trim, trimEnd, List.getLast?_reverse] at hc
    exact isBlank_head?_dropWhile _ c hc

/-- A text is left alone when its outer blanks are removed exactly when it has none. -/
theorem trim_eq_self_iff : trim text = text ↔ Trimmed text := by
  constructor
  · intro h
    rw [← h]
    exact trimmed_trim text
  · exact fun h => trim_eq_self h.1 h.2

/-- A text with blanks behind it has blanks at its ends. -/
theorem not_trimmed_append {blanks : List Char} (hsome : blanks ≠ [])
    (hblanks : ∀ c ∈ blanks, isBlank c = true) : ¬Trimmed (text ++ blanks) := by
  intro h
  have hlast : (text ++ blanks).getLast? = some (blanks.getLast hsome) := by
    rw [List.getLast?_append, List.getLast?_eq_some_getLast hsome, Option.some_or]
  have hend := h.2 _ hlast
  rw [hblanks _ (List.getLast_mem hsome)] at hend
  cases hend

/-- Outer blanks are removed at once. -/
theorem trim_trim (text : List Char) : trim (trim text) = trim text :=
  trim_eq_self_iff.2 (trimmed_trim text)

/-- A character that is no blank is not removed. -/
theorem mem_trim {c : Char} (hc : c ∈ text) (hblank : isBlank c = false) : c ∈ trim text := by
  obtain ⟨before, after, htext, hbefore, hafter⟩ := exists_trim text
  rw [htext, List.mem_append, List.mem_append] at hc
  rcases hc with (hc | hc) | hc
  · rw [hbefore c hc] at hblank
    cases hblank
  · exact hc
  · rw [hafter c hc] at hblank
    cases hblank

/-- What is left without outer blanks was there before. -/
theorem mem_of_mem_trim {c : Char} (hc : c ∈ trim text) : c ∈ text := by
  obtain ⟨before, after, htext, -, -⟩ := exists_trim text
  rw [htext]
  exact List.mem_append_left _ (List.mem_append_right _ hc)

/-- Removing outer blanks keeps every occurrence of a character that is no blank. -/
theorem count_trim {c : Char} (h : isBlank c = false) : (trim text).count c = text.count c := by
  obtain ⟨before, after, htext, hbefore, hafter⟩ := exists_trim text
  have hnone {blanks : List Char} (hblanks : ∀ d ∈ blanks, isBlank d = true) :
      blanks.count c = 0 := by
    refine List.count_eq_zero.2 fun hmem => ?_
    rw [hblanks c hmem] at h
    cases h
  have hcount := congrArg (List.count c) htext
  rw [List.count_append, List.count_append, hnone hbefore, hnone hafter] at hcount
  omega

/-- A blank at the beginning makes no difference to what is left without outer blanks. -/
theorem trim_cons_of_isBlank {c : Char} (h : isBlank c = true) : trim (c :: text) = trim text := by
  rw [trim, trim, trimStart, trimStart, List.dropWhile_cons_of_pos h]

end Blanks

end SchemaGate.Text
