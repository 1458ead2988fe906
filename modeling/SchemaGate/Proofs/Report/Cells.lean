import Mathlib.Algebra.Order.BigOperators.Group.List
import Mathlib.Data.List.Induction
import SchemaGate.Report.Markdown

/-!
# The cells of a row in Markdown

A row is cut into cells at its vertical bars, but a backslash hides the character behind it, so that
a hidden bar stays in its cell and a hidden backslash hides nothing. A bar is hidden exactly when an
odd number of backslashes stand in front of it. The main statements are `cells_eq_singleton_iff` and
`cells_escapeBars_eq_singleton_iff`, which say when a text stays one cell, as it is or with its bars
escaped, and `cells_row_iff`, which says when a row has the cells that were written in it.
-/

namespace SchemaGate.Report

/-- Whether a character hides the next one: a backslash does so unless it is hidden itself. -/
def hides (hidden : Bool) (c : Char) : Bool :=
  c = '\\' && !hidden

/-- The cells of a text whose first character may be hidden. -/
def cellsFrom (hidden : Bool) : List Char → List (List Char)
  | [] => [[]]
  | c :: rest =>
      if c = '|' ∧ hidden = false then [] :: cellsFrom false rest
      else (cellsFrom (hides hidden c) rest).modifyHead (c :: ·)

/-- The cells of a row, which are the pieces between its unhidden bars. -/
def cells (row : List Char) : List (List Char) :=
  cellsFrom false row

/-- How many backslashes stand at the end of a text. -/
def trailingBackslashes (text : List Char) : Nat :=
  (text.reverse.takeWhile (· = '\\')).length

/-- An odd number of backslashes stands in front of every bar. -/
def BarsHidden (text : List Char) : Prop :=
  ∀ before after, text = before ++ '|' :: after → trailingBackslashes before % 2 = 1

/-- An even number of backslashes stands in front of every bar, so that none of them hides it. -/
def BarsBare (text : List Char) : Prop :=
  ∀ before after, text = before ++ '|' :: after → trailingBackslashes before % 2 = 0

section Hiding

/-- A last character is a further backslash at the end, or there is none at the end. -/
theorem trailingBackslashes_concat (text : List Char) (c : Char) :
    trailingBackslashes (text ++ [c]) = if c = '\\' then trailingBackslashes text + 1 else 0 := by
  rw [trailingBackslashes, List.reverse_append, List.reverse_singleton, List.singleton_append,
    List.takeWhile_cons]
  by_cases hc : c = '\\'
  · rw [if_pos hc, if_pos (decide_eq_true hc), List.length_cons]
    rfl
  · rw [if_neg hc, if_neg (by simpa using hc), List.length_nil]

/-- Read from the beginning, a text hides what follows exactly when an odd number of backslashes
stands at its end. -/
theorem foldl_hides (text : List Char) :
    text.foldl hides false = decide (trailingBackslashes text % 2 = 1) := by
  induction text using List.reverseRecOn with
  | nil => rfl
  | append_singleton text c ih =>
      rw [List.foldl_append, List.foldl_cons, List.foldl_nil, ih, hides,
        trailingBackslashes_concat]
      by_cases hc : c = '\\'
      · rw [if_pos hc, decide_eq_true hc, Bool.true_and, ← decide_not, decide_eq_decide]
        omega
      · rw [if_neg hc, decide_eq_false hc, Bool.false_and]
        rfl

/-- A text in which every bar is hidden, told by reading it from the beginning. -/
theorem barsHidden_iff {text : List Char} :
    BarsHidden text ↔
      ∀ before after, text = before ++ '|' :: after → before.foldl hides false = true := by
  simp only [BarsHidden, foldl_hides, decide_eq_true_eq]

/-- A text in which no bar is hidden, told by reading it from the beginning. -/
theorem barsBare_iff {text : List Char} :
    BarsBare text ↔
      ∀ before after, text = before ++ '|' :: after → before.foldl hides false = false := by
  simp only [BarsBare, foldl_hides, decide_eq_false_iff_not, Nat.mod_two_not_eq_one]

end Hiding

section Single

variable {hidden : Bool} {text : List Char}

/-- A character stands at some places of a longer text exactly when it is the first or stands at
these places of the rest. -/
theorem forall_split_cons {x c : Char} {rest : List Char} {P : List Char → Prop} :
    (∀ before after, c :: rest = before ++ x :: after → P before) ↔
      (c = x → P []) ∧ ∀ before after, rest = before ++ x :: after → P (c :: before) := by
  constructor
  · intro h
    refine ⟨fun hc => h [] rest (by rw [hc]; rfl), ?_⟩
    intro before after hrest
    exact h (c :: before) after (by rw [hrest]; rfl)
  · intro h before after heq
    cases before with
    | nil => exact h.1 (List.cons.inj heq).1
    | cons first before =>
        obtain ⟨hfirst, hrest⟩ := List.cons.inj heq
        rw [← hfirst]
        exact h.2 before after hrest

/-- A first character that ends no cell leaves one cell exactly when the rest is one. -/
theorem modifyHead_cons_eq_singleton_iff {c : Char} {pieces : List (List Char)} :
    pieces.modifyHead (c :: ·) = [c :: text] ↔ pieces = [text] := by
  cases pieces with
  | nil => simp
  | cons piece pieces => simp

/-- A character that ends no cell stays in front of its cell. -/
theorem cellsFrom_cons_of_ne {c : Char} (h : ¬(c = '|' ∧ hidden = false)) :
    cellsFrom hidden (c :: text) = (cellsFrom (hides hidden c) text).modifyHead (c :: ·) := by
  rw [cellsFrom, if_neg h]

/-- An unhidden bar ends a cell. -/
theorem cellsFrom_bar : cellsFrom false ('|' :: text) = [] :: cellsFrom false text := by
  rw [cellsFrom, if_pos ⟨rfl, rfl⟩]

/-- There is at least one cell. -/
theorem cellsFrom_ne_nil (hidden : Bool) (text : List Char) : cellsFrom hidden text ≠ [] := by
  induction text generalizing hidden with
  | nil => exact List.cons_ne_nil _ _
  | cons c rest ih =>
      by_cases h : c = '|' ∧ hidden = false
      · rw [cellsFrom, if_pos h]
        exact List.cons_ne_nil _ _
      · rw [cellsFrom_cons_of_ne h]
        intro hnil
        exact ih (hides hidden c) (by simpa using hnil)

/-- A text is one cell exactly when every bar in it is hidden. -/
theorem cellsFrom_eq_singleton_iff :
    cellsFrom hidden text = [text] ↔
      ∀ before after, text = before ++ '|' :: after → before.foldl hides hidden = true := by
  induction text generalizing hidden with
  | nil => simp [cellsFrom]
  | cons c rest ih =>
      rw [forall_split_cons]
      by_cases h : c = '|' ∧ hidden = false
      · obtain ⟨rfl, rfl⟩ := h
        simp [cellsFrom_bar]
      · rw [cellsFrom_cons_of_ne h, modifyHead_cons_eq_singleton_iff, ih]
        have hfirst : c = '|' → hidden = true := fun hc => by
          simpa using fun hhidden => h ⟨hc, hhidden⟩
        exact (and_iff_right hfirst).symm

/-- A text with its bars escaped is one cell exactly when no bar in it was hidden before. -/
theorem cellsFrom_escapeBars_eq_singleton_iff :
    cellsFrom hidden (escapeBars text) = [escapeBars text] ↔
      ∀ before after, text = before ++ '|' :: after → before.foldl hides hidden = false := by
  induction text generalizing hidden with
  | nil => simp [escapeBars, cellsFrom]
  | cons c rest ih =>
      rw [forall_split_cons]
      by_cases hc : c = '|'
      · -- The bar gets its own backslash, which hides it unless it is hidden itself.
        subst hc
        have hescape : escapeBars ('|' :: rest) = '\\' :: '|' :: escapeBars rest := rfl
        rw [hescape, cellsFrom_cons_of_ne (fun h => absurd h.1 (by decide)),
          modifyHead_cons_eq_singleton_iff]
        cases hidden with
        | true => simp [hides, cellsFrom_bar]
        | false =>
            have hnext : hides false '\\' = true := rfl
            rw [hnext, cellsFrom_cons_of_ne (by decide), modifyHead_cons_eq_singleton_iff]
            exact ih.trans (and_iff_right fun _ => rfl).symm
      · have hescape : escapeBars (c :: rest) = c :: escapeBars rest := by
          rw [escapeBars, List.flatMap_cons, if_neg hc]
          rfl
        rw [hescape, cellsFrom_cons_of_ne (fun h => hc h.1), modifyHead_cons_eq_singleton_iff, ih]
        exact (and_iff_right fun h => absurd h hc).symm

/-- A text is one cell exactly when every bar in it is hidden. -/
theorem cells_eq_singleton_iff : cells text = [text] ↔ BarsHidden text :=
  cellsFrom_eq_singleton_iff.trans barsHidden_iff.symm

/-- A text with its bars escaped is one cell exactly when no bar in it was hidden before. -/
theorem cells_escapeBars_eq_singleton_iff :
    cells (escapeBars text) = [escapeBars text] ↔ BarsBare text :=
  cellsFrom_escapeBars_eq_singleton_iff.trans barsBare_iff.symm

-- A bar that was hidden already is laid bare by the backslash that it gets.
example : cells (escapeBars "a\\|b".toList) = ["a\\\\".toList, "b".toList] := by decide

/-- A text without bars is one cell. -/
theorem cellsFrom_eq_singleton (h : '|' ∉ text) : cellsFrom hidden text = [text] := by
  refine cellsFrom_eq_singleton_iff.2 fun before after htext => ?_
  rw [htext] at h
  exact absurd (List.mem_append_right before List.mem_cons_self) h

/-- Nothing but backslashes is added where bars are escaped. -/
theorem mem_of_mem_escapeBars {c : Char} (hslash : c ≠ '\\') (h : c ∈ escapeBars text) :
    c ∈ text := by
  obtain ⟨first, hfirst, hmem⟩ := List.mem_flatMap.1 h
  split at hmem
  · rename_i hbar
    rw [List.mem_cons, List.mem_singleton, or_iff_right hslash] at hmem
    rw [hmem, ← hbar]
    exact hfirst
  · rw [List.mem_singleton.1 hmem]
    exact hfirst

/-- Bars are counted behind a first character that is neither a bar nor a backslash. -/
theorem cells_cons_eq_singleton_iff {c : Char} (hbar : c ≠ '|') (hslash : c ≠ '\\') :
    cells (c :: text) = [c :: text] ↔ cells text = [text] := by
  rw [cells, cellsFrom_cons_of_ne (fun h => hbar h.1), modifyHead_cons_eq_singleton_iff, hides,
    decide_eq_false hslash, Bool.false_and, cells]

/-- An end without bars makes no difference to whether a text is one cell. -/
theorem cellsFrom_append_eq_singleton_iff {ending : List Char} (h : '|' ∉ ending) :
    cellsFrom hidden (text ++ ending) = [text ++ ending] ↔ cellsFrom hidden text = [text] := by
  induction text generalizing hidden with
  | nil =>
      rw [List.nil_append]
      exact iff_of_true (cellsFrom_eq_singleton h) rfl
  | cons c rest ih =>
      rw [List.cons_append]
      by_cases hc : c = '|' ∧ hidden = false
      · obtain ⟨rfl, rfl⟩ := hc
        simp [cellsFrom_bar]
      · rw [cellsFrom_cons_of_ne hc, cellsFrom_cons_of_ne hc, modifyHead_cons_eq_singleton_iff,
          modifyHead_cons_eq_singleton_iff, ih]

end Single

section Row

/-- A text between two bars of a row, with a blank on each side. -/
def cell (text : List Char) : List Char :=
  ' ' :: (text ++ [' '])

/-- A row with a bar in front of its cells and behind each. -/
def row (texts : List (List Char)) : List Char :=
  '|' :: texts.flatMap fun text => cell text ++ ['|']

variable {text : List Char} {texts : List (List Char)}

/-- What stands in a row, apart from bars and blanks, stands in one of its texts. -/
theorem not_mem_row {c : Char} (hbar : c ≠ '|') (hblank : c ≠ ' ')
    (h : ∀ text ∈ texts, c ∉ text) : c ∉ row texts := by
  simpa [row, cell, hbar, hblank] using h

/-- The blanks at its sides make no difference to whether a text is one cell. -/
theorem cells_cell_eq_singleton_iff : cells (cell text) = [cell text] ↔ cells text = [text] := by
  rw [cell, cells_cons_eq_singleton_iff (by decide) (by decide), cells,
    cellsFrom_append_eq_singleton_iff (by decide)]
  rfl

/-- A text that hides nothing behind it is cut from what follows the bar. -/
theorem cellsFrom_append_bar {hidden : Bool} (h : text.foldl hides hidden = false)
    (rest : List Char) :
    cellsFrom hidden (text ++ '|' :: rest) = cellsFrom hidden text ++ cells rest := by
  induction text generalizing hidden with
  | nil =>
      have hshown : hidden = false := h
      rw [hshown, List.nil_append, cellsFrom_bar]
      rfl
  | cons c text ih =>
      rw [List.cons_append]
      rw [List.foldl_cons] at h
      by_cases hc : c = '|' ∧ hidden = false
      · obtain ⟨rfl, rfl⟩ := hc
        have hrest : text.foldl hides false = false := h
        rw [cellsFrom_bar, cellsFrom_bar, ih hrest, List.cons_append]
      · rw [cellsFrom_cons_of_ne hc, cellsFrom_cons_of_ne hc, ih h]
        cases hcells : cellsFrom (hides hidden c) text with
        | nil => exact absurd hcells (cellsFrom_ne_nil _ _)
        | cons first others => rfl

/-- The blank behind a text keeps its backslashes from hiding the bar. -/
theorem foldl_hides_cell (text : List Char) : (cell text).foldl hides false = false := by
  rw [cell, ← List.cons_append, List.foldl_append]
  rfl

/-- The cells of a row are those of the texts in it, between two empty ones. -/
theorem cells_row (texts : List (List Char)) :
    cells (row texts) = [] :: (texts.flatMap fun text => cells (cell text)) ++ [[]] := by
  rw [row, cells, cellsFrom_bar, List.cons_append]
  congr 1
  induction texts with
  | nil => rfl
  | cons text texts ih =>
      rw [List.flatMap_cons, List.flatMap_cons, List.append_assoc, List.singleton_append,
        cellsFrom_append_bar (foldl_hides_cell text), cells, ih, List.append_assoc]
      rfl

/-- If each item gives at least one result, then the results are one per item exactly when each item
gives just that one. -/
theorem flatMap_eq_map_iff {α β : Type} {items : List α} {results : α → List β} {result : α → β}
    (h : ∀ item ∈ items, results item ≠ []) :
    items.flatMap results = items.map result ↔ ∀ item ∈ items, results item = [result item] := by
  induction items with
  | nil => simp
  | cons item items ih =>
      rw [List.forall_mem_cons] at h ⊢
      rw [List.flatMap_cons, List.map_cons, ← ih h.2]
      constructor
      · intro heq
        -- Further results of the first item would leave too few for the others.
        have hlength : items.length ≤ (items.flatMap results).length := by
          rw [List.length_flatMap, ← List.length_map fun item => (results item).length]
          refine List.length_le_sum_of_one_le _ fun length hmem => ?_
          obtain ⟨other, hother, rfl⟩ := List.mem_map.1 hmem
          exact List.length_pos_iff.2 (h.2 other hother)
        obtain ⟨first, further, hfirst⟩ := List.exists_cons_of_ne_nil h.1
        rw [hfirst, List.cons_append, List.cons.injEq] at heq
        have hcount := congrArg List.length heq.2
        rw [List.length_append, List.length_map] at hcount
        have hnone : further = [] := List.eq_nil_of_length_eq_zero (by omega)
        rw [hnone, List.nil_append] at heq
        rw [hfirst, hnone, heq.1]
        exact ⟨rfl, heq.2⟩
      · intro heq
        rw [heq.1, heq.2, List.singleton_append]

/-- A row has the cells that were written in it, and no others, exactly when each text in it stays
one cell. -/
theorem cells_row_iff :
    cells (row texts) = [] :: texts.map cell ++ [[]] ↔ ∀ text ∈ texts, cells text = [text] := by
  have hsome : ∀ text ∈ texts, cells (cell text) ≠ [] := fun text _ => cellsFrom_ne_nil false _
  rw [cells_row, List.cons_append, List.cons_append, List.cons.injEq, List.append_cancel_right_eq,
    and_iff_right rfl, flatMap_eq_map_iff hsome]
  exact forall₂_congr fun text _ => cells_cell_eq_singleton_iff

end Row

end SchemaGate.Report
