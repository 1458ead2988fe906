import Mathlib.Data.List.Infix
import SchemaGate.Lock.Snapshot
import SchemaGate.Proofs.Text.Cutting

/-!
# Map types that survive a snapshot

A snapshot lists a map field by the types of its keys and values, and reading it back writes them as
the text of a map type again. `splitType_eq` says which two types a text is split into, and
`trim_dropOpenings_eq_iff` and `trim_dropClosings_eq_iff` say when a type loses something on the way.
The main statement is `mapTypeText_splitType_iff`: the texts that are written again as they were.
-/

namespace SchemaGate.LockMap

open Text (Trimmed)

/-- The beginning of the text of a map type. -/
def opening : List Char := ['m', 'a', 'p', '<']

/-- A type is listed as a map type exactly when its text has the beginning of one. -/
theorem isMapType_iff {typeName : String} :
    isMapType typeName = true ↔ opening <+: typeName.toList := by
  have hopening : "map<".toList = opening := rfl
  rw [isMapType, Text.startsWith, hopening, Option.isSome_iff_exists]
  simp only [Text.dropPrefix?_eq_some_iff]
  exact ⟨fun ⟨rest, h⟩ => ⟨rest, h.symm⟩, fun ⟨rest, h⟩ => ⟨rest, h.symm⟩⟩

/-- The text of a map type as characters. -/
theorem toList_mapTypeText (key value : String) :
    (mapTypeText key value).toList =
      opening ++ (key.toList ++ ',' :: ' ' :: (value.toList ++ ['>'])) := by
  simp [mapTypeText, opening]

/-- The text that is written for a map type is that of a map type. -/
theorem isMapType_mapTypeText (key value : String) : isMapType (mapTypeText key value) = true := by
  rw [isMapType_iff, toList_mapTypeText]
  exact List.prefix_append _ _

section Ends

variable {text : List Char}

/-- A beginning is dropped. -/
theorem dropOpenings_opening (rest : List Char) :
    dropOpenings (opening ++ rest) = dropOpenings rest := rfl

/-- A text without a beginning is left alone. -/
theorem dropOpenings_eq_self (h : ¬opening <+: text) : dropOpenings text = text := by
  unfold dropOpenings
  split
  · exact absurd (List.prefix_append opening _) h
  · rfl

/-- What is dropped is a number of brackets, and none is left at the end. -/
theorem exists_dropClosings (text : List Char) :
    ∃ n, text = dropClosings text ++ List.replicate n '>' ∧
      (dropClosings text).getLast? ≠ some '>' := by
  refine ⟨(text.reverse.takeWhile fun c => c = '>').length, ?_, ?_⟩
  · have hbrackets : text.reverse.takeWhile (fun c => c = '>') =
        List.replicate (text.reverse.takeWhile fun c => c = '>').length '>' := by
      refine List.eq_replicate_iff.2 ⟨rfl, fun c hc => ?_⟩
      simpa using List.mem_takeWhile_imp hc
    rw [dropClosings, ← List.reverse_replicate, ← hbrackets, ← List.reverse_append,
      List.takeWhile_append_dropWhile, List.reverse_reverse]
  · intro hlast
    rw [dropClosings, List.getLast?_reverse] at hlast
    have hhead := List.head?_dropWhile_not (fun c => decide (c = '>')) text.reverse
    rw [hlast] at hhead
    simp at hhead

/-- Brackets are dropped up to the last character that is none. -/
theorem dropClosings_append_replicate (h : text.getLast? ≠ some '>') (n : Nat) :
    dropClosings (text ++ List.replicate n '>') = text := by
  rw [dropClosings, List.reverse_append, List.reverse_replicate,
    List.dropWhile_append_of_pos (by simp)]
  have hself : text.reverse.dropWhile (fun c => c = '>') = text.reverse := by
    rw [← List.head?_reverse] at h
    cases hreverse : text.reverse with
    | nil => rfl
    | cons c rest =>
        rw [hreverse, List.head?_cons, ne_eq, Option.some_inj] at h
        rw [List.dropWhile_cons_of_neg (by simpa using h)]
  rw [hself, List.reverse_reverse]

/-- A character before a text makes no difference to whether it ends in a bracket. -/
theorem getLast?_cons_eq_bracket_iff {c : Char} (hc : c ≠ '>') :
    (c :: text).getLast? = some '>' ↔ text.getLast? = some '>' := by
  cases text with
  | nil => simpa using hc
  | cons next rest => rw [List.getLast?_cons_cons]

/-- A text that does not end in a bracket is left alone. -/
theorem dropClosings_eq_self (h : text.getLast? ≠ some '>') : dropClosings text = text := by
  simpa using dropClosings_append_replicate h 0

/-- One more bracket at the end is dropped as well. -/
theorem dropClosings_concat (text : List Char) :
    dropClosings (text ++ ['>']) = dropClosings text := by
  simp [dropClosings]

/-- What is left without beginnings is the end of the text. -/
theorem dropOpenings_suffix (text : List Char) : dropOpenings text <:+ text := by
  fun_induction dropOpenings text with
  | case1 rest ih => exact ih.trans (List.suffix_append opening rest)
  | case2 text hnone => exact List.suffix_refl text

/-- A character that is not in a text is not in what is left of it. -/
theorem not_mem_dropOpenings {c : Char} (h : c ∉ text) : c ∉ dropOpenings text := fun hmem =>
  h ((dropOpenings_suffix text).subset hmem)

/-- A text that is cut at a comma has a beginning only if its first part has one. -/
theorem opening_prefix_of_append {key rest : List Char} (h : opening <+: key ++ ',' :: rest) :
    opening <+: key := by
  have hcomma : ',' ∉ opening := by decide
  have hcut : key ++ [','] <+: key ++ ',' :: rest := ⟨rest, by simp⟩
  rcases List.prefix_or_prefix_of_prefix h hcut with hbefore | hafter
  · rcases List.prefix_concat_iff.1 hbefore with heq | hkey
    · exact absurd (by simp [heq]) hcomma
    · exact hkey
  · exact absurd (hafter.subset (by simp)) hcomma

/-- Beginnings are dropped up to a comma at most. -/
theorem dropOpenings_append_comma (key rest : List Char) :
    dropOpenings (key ++ ',' :: rest) = dropOpenings key ++ ',' :: rest := by
  fun_induction dropOpenings key with
  | case1 key ih => exact ih
  | case2 key hnone =>
      refine dropOpenings_eq_self fun hbegins => ?_
      obtain ⟨key, rfl⟩ := opening_prefix_of_append hbegins
      exact hnone key rfl

/-- Brackets are dropped back to a comma at most. -/
theorem dropClosings_append_comma (text value : List Char) :
    dropClosings (text ++ ',' :: value) = text ++ ',' :: dropClosings value := by
  obtain ⟨n, hvalue, hlast⟩ := exists_dropClosings value
  have hend : (text ++ ',' :: dropClosings value).getLast? ≠ some '>' := by
    rw [List.getLast?_append_of_ne_nil _ (List.cons_ne_nil _ _), ne_eq,
      getLast?_cons_eq_bracket_iff (by decide)]
    exact hlast
  conv_lhs => rw [hvalue, ← List.cons_append, ← List.append_assoc]
  exact dropClosings_append_replicate hend n

/-- Dropping beginnings changes a text by more than outer blanks exactly when it has one. -/
theorem trim_dropOpenings_eq_iff :
    Text.trim (dropOpenings text) = Text.trim text ↔ ¬opening <+: text := by
  constructor
  · rintro h ⟨rest, rfl⟩
    -- The bracket of the first beginning is no blank and is lost.
    have hcount := congrArg (List.count '<') h
    rw [Text.count_trim (by decide), Text.count_trim (by decide), dropOpenings_opening,
      List.count_append] at hcount
    have hrest := (dropOpenings_suffix rest).sublist.count_le '<'
    have hopening : opening.count '<' = 1 := by decide
    omega
  · intro h
    rw [dropOpenings_eq_self h]

/-- Dropping brackets changes a text by more than outer blanks exactly when it ends in one. -/
theorem trim_dropClosings_eq_iff :
    Text.trim (dropClosings text) = Text.trim text ↔ text.getLast? ≠ some '>' := by
  constructor
  · intro h
    obtain ⟨n, htext, hlast⟩ := exists_dropClosings text
    have hcount := congrArg (List.count '>') h
    rw [Text.count_trim (by decide), Text.count_trim (by decide)] at hcount
    have hdropped := congrArg (List.count '>') htext
    rw [List.count_append, List.count_replicate_self] at hdropped
    obtain rfl : n = 0 := by omega
    rw [List.replicate_zero, List.append_nil] at htext
    rwa [htext]
  · intro h
    rw [dropClosings_eq_self h]

end Ends

/-- The two types into which the text of a map type with a comma is split. -/
theorem splitType_eq {typeName : String} {key value : List Char}
    (htype : typeName.toList = opening ++ (key ++ ',' :: value)) (hkey : ',' ∉ key) :
    splitType typeName = (String.ofList (Text.trim (dropOpenings key)),
      String.ofList (Text.trim (dropClosings value))) := by
  have hinner : dropClosings (dropOpenings typeName.toList) =
      dropOpenings key ++ ',' :: dropClosings value := by
    rw [htype, dropOpenings_opening, dropOpenings_append_comma, dropClosings_append_comma]
  rw [splitType, hinner, Text.cutFirst?_eq_some_iff.2 ⟨rfl, not_mem_dropOpenings hkey⟩]

/-- The text of a map type as a snapshot writes it: the beginning, the key type, comma and blank,
the value type and one bracket, where no other reading is possible. -/
def IsMapText (typeName : String) : Prop :=
  ∃ key value : String, typeName = "map<" ++ key ++ ", " ++ value ++ ">" ∧
    Trimmed key.toList ∧ Trimmed value.toList ∧ ',' ∉ key.toList ∧
    ¬"map<".toList <+: key.toList ∧ value.toList.getLast? ≠ some '>'

/-- The text that is written for two types is split into them again if no other reading is
possible. -/
theorem splitType_mapTypeText {key value : String} (hkey : Trimmed key.toList)
    (hvalue : Trimmed value.toList) (hcomma : ',' ∉ key.toList) (hopening : ¬opening <+: key.toList)
    (hlast : value.toList.getLast? ≠ some '>') :
    splitType (mapTypeText key value) = (key, value) := by
  have hvalueLast : (' ' :: value.toList).getLast? ≠ some '>' := by
    rwa [ne_eq, getLast?_cons_eq_bracket_iff (by decide)]
  rw [splitType_eq (toList_mapTypeText key value) hcomma, dropOpenings_eq_self hopening,
    ← List.cons_append, dropClosings_concat, dropClosings_eq_self hvalueLast,
    Text.trim_cons_of_isBlank (by decide), Text.trim_eq_self_iff.2 hkey,
    Text.trim_eq_self_iff.2 hvalue, String.ofList_toList, String.ofList_toList]

/-- If the text that is written for two parts is that of the parts, the types that are written have
neither a beginning nor a bracket at the end. -/
theorem of_written_eq {before after : List Char} (hbefore : ',' ∉ before)
    (h : Text.trim (dropOpenings before) ++
        ',' :: ' ' :: (Text.trim (dropClosings after) ++ ['>']) = before ++ ',' :: after) :
    ¬opening <+: Text.trim (dropOpenings before) ∧
      (Text.trim (dropClosings after)).getLast? ≠ some '>' := by
  have hnone : ',' ∉ Text.trim (dropOpenings before) := fun hmem =>
    not_mem_dropOpenings hbefore (Text.mem_of_mem_trim hmem)
  have hcut := Text.cutFirst?_eq_some_iff.2 ⟨h.symm, hnone⟩
  rw [Text.cutFirst?_eq_some_iff.2 ⟨rfl, hbefore⟩] at hcut
  obtain ⟨hkey, hvalue⟩ := Prod.mk.inj (Option.some.inj hcut)
  constructor
  · -- What is written before the comma is what was there, so no beginning was dropped.
    have hself : Text.trim before = before := by rw [hkey, Text.trim_trim]
    rw [← hkey]
    exact trim_dropOpenings_eq_iff.1 (hkey.symm.trans hself.symm)
  · -- The same holds of the brackets behind the comma but for the last.
    intro hlast
    rw [← getLast?_cons_eq_bracket_iff (c := ' ') (by decide)] at hlast
    refine trim_dropClosings_eq_iff.1 ?_ hlast
    rw [← dropClosings_concat, List.cons_append, ← hvalue, Text.trim_cons_of_isBlank (by decide),
      Text.trim_trim]

/-- A type that is listed as a map type is written again as it was exactly when its text has the
form in which a snapshot writes it. -/
theorem mapTypeText_splitType_iff {typeName : String} (h : isMapType typeName = true) :
    mapTypeText (splitType typeName).1 (splitType typeName).2 = typeName ↔ IsMapText typeName := by
  constructor
  · intro heq
    obtain ⟨rest, hrest⟩ := isMapType_iff.1 h
    have hwritten := congrArg String.toList heq
    rw [toList_mapTypeText, ← hrest, List.append_cancel_left_eq] at hwritten
    -- The written text has a comma, so the text itself has one.
    have hcomma : ',' ∈ rest := by
      rw [← hwritten]
      simp
    obtain ⟨before, after, rfl, hbefore⟩ := List.eq_append_cons_of_mem hcomma
    have hsplit := splitType_eq hrest.symm hbefore
    rw [hsplit, String.toList_ofList, String.toList_ofList] at hwritten
    obtain ⟨hopening, hlast⟩ := of_written_eq hbefore hwritten
    refine ⟨String.ofList (Text.trim (dropOpenings before)),
      String.ofList (Text.trim (dropClosings after)), by rw [← heq, hsplit, mapTypeText], ?_⟩
    rw [String.toList_ofList, String.toList_ofList]
    exact ⟨Text.trimmed_trim _, Text.trimmed_trim _,
      fun hmem => not_mem_dropOpenings hbefore (Text.mem_of_mem_trim hmem), hopening, hlast⟩
  · rintro ⟨key, value, rfl, hkey, hvalue, hcomma, hopening, hlast⟩
    rw [← mapTypeText, splitType_mapTypeText hkey hvalue hcomma hopening hlast]

end SchemaGate.LockMap
