import SchemaGate.Proofs.Lock.MapType
import SchemaGate.Proofs.TypeIndex.Resolves

/-!
# Map types as references

The text of a map type is read twice: as a reference when a schema is validated, and for a snapshot
that lists the types of keys and values. The first reader ignores outer blanks and takes off one
beginning and one bracket, the second takes off as many as there are and ignores no blanks before.
`readers_agree_iff` says on which texts they agree. The other main statement is
`isResolvable_splitType_iff`: what is written for a map type that resolves resolves again exactly
when there are no blanks around it.
-/

namespace SchemaGate.LockMap

open Text (Trimmed)
open TypeIndex (BracketFree)

variable {index : TypeIndex} {scope typeName : String} {key value : String}

/-- A text between a beginning and a bracket has no outer blanks. -/
theorem trimmed_opening (inner : List Char) : Trimmed (opening ++ (inner ++ ['>'])) := by
  constructor
  · intro c hc
    rw [← Option.some.inj hc]
    decide
  · intro c hc
    rw [← List.append_assoc, List.getLast?_concat] at hc
    rw [← Option.some.inj hc]
    decide

/-- The text that is written for two types resolves exactly when both do. -/
theorem isResolvable_mapTypeText (before after : List Char) (hcomma : ',' ∉ before) :
    index.isResolvable
        (mapTypeText (String.ofList (Text.trim before)) (String.ofList (Text.trim after))) scope =
      ((index.resolve? (String.ofList (Text.trim before)) scope).isSome &&
        (index.resolve? (String.ofList (Text.trim after)) scope).isSome) := by
  have htext : (mapTypeText (String.ofList (Text.trim before))
      (String.ofList (Text.trim after))).toList =
        opening ++ (Text.trim before ++ ',' :: (' ' :: Text.trim after) ++ ['>']) := by
    rw [toList_mapTypeText, String.toList_ofList, String.toList_ofList]
    simp
  have hkey : ',' ∉ Text.trim before := fun hmem => hcomma (Text.mem_of_mem_trim hmem)
  have hmap : mapReference? (mapTypeText (String.ofList (Text.trim before))
      (String.ofList (Text.trim after))) =
        some (String.ofList (Text.trim before), String.ofList (Text.trim after)) := by
    refine mapReference?_eq_some_iff.2
      ⟨Text.trim before, ' ' :: Text.trim after, ?_, hkey, ?_, ?_⟩
    · rw [htext, Text.trim_eq_self_iff.2 (trimmed_opening _)]
      rfl
    · rw [Text.trim_trim]
    · rw [Text.trim_cons_of_isBlank (by decide), Text.trim_trim]
  rw [TypeIndex.isResolvable, hmap]

/-- A type that is listed as a map type has blanks at most at its end. -/
theorem exists_trim_of_isMapType (h : isMapType typeName = true) :
    ∃ blanks, typeName.toList = Text.trim typeName.toList ++ blanks ∧
      ∀ c ∈ blanks, Text.isBlank c = true := by
  obtain ⟨rest, hrest⟩ := isMapType_iff.1 h
  obtain ⟨before, after, htext, hbefore, hafter⟩ := Text.exists_trim typeName.toList
  cases before with
  | nil => exact ⟨after, htext, hafter⟩
  | cons c before =>
      -- The text begins with a letter.
      rw [← hrest] at htext
      have hfirst : 'm' = c := (List.cons.inj htext).1
      have hblank := hbefore c List.mem_cons_self
      rw [← hfirst] at hblank
      exact absurd hblank (by decide)

/-- A map reference resolves exactly when both of its types do. -/
theorem isResolvable_iff_of_mapReference? {reference : String}
    (hreference : mapReference? reference = some (key, value)) :
    index.isResolvable reference scope = true ↔
      (index.resolve? key scope).isSome = true ∧ (index.resolve? value scope).isSome = true := by
  rw [TypeIndex.isResolvable, hreference]
  exact Bool.and_eq_true_iff

/-- A type that is listed as a map type and resolves is a map reference whose types resolve. -/
theorem exists_mapReference (hfree : BracketFree index) (h : isMapType typeName = true)
    (hresolves : index.isResolvable typeName scope = true) :
    ∃ key value, mapReference? typeName = some (key, value) ∧
      (index.resolve? key scope).isSome = true ∧ (index.resolve? value scope).isSome = true := by
  cases hmap : mapReference? typeName with
  | none =>
      have hplain : (index.resolve? typeName scope).isSome = true := by
        simpa [TypeIndex.isResolvable, hmap] using hresolves
      have hbracket : '<' ∈ typeName.toList := (isMapType_iff.1 h).subset (by decide)
      exact absurd (Text.mem_trim hbracket (by decide)) (hfree.not_mem hplain).1
  | some types =>
      exact ⟨types.1, types.2, rfl, (isResolvable_iff_of_mapReference? hmap).1 hresolves⟩

/-- A part of a map type whose type resolves is not written with brackets. -/
theorem not_mem_of_resolves (hfree : BracketFree index) {part : List Char}
    (h : (index.resolve? (String.ofList (Text.trim part)) scope).isSome = true) :
    '<' ∉ part ∧ '>' ∉ part := by
  have hnone := hfree.not_mem h
  rw [String.toList_ofList, Text.trim_trim] at hnone
  exact ⟨fun hmem => hnone.1 (Text.mem_trim hmem (by decide)),
    fun hmem => hnone.2 (Text.mem_trim hmem (by decide))⟩

/-- The text of a map type as a reference reads it: two parts around the first comma, a bracket
behind them, and blanks behind the bracket. -/
structure Parts (typeName : String) where
  before : List Char
  after : List Char
  blanks : List Char
  toList_eq : typeName.toList = opening ++ (before ++ ',' :: after ++ ['>']) ++ blanks
  comma_not_mem : ',' ∉ before
  isBlank_of_mem : ∀ c ∈ blanks, Text.isBlank c = true

/-- A map type that is read as a reference has such parts, and they hold the two types. -/
theorem exists_parts (h : isMapType typeName = true)
    (hreference : mapReference? typeName = some (key, value)) :
    ∃ parts : Parts typeName, key = String.ofList (Text.trim parts.before) ∧
      value = String.ofList (Text.trim parts.after) := by
  obtain ⟨before, after, htrim, hcomma, rfl, rfl⟩ := mapReference?_eq_some_iff.1 hreference
  obtain ⟨blanks, htext, hblanks⟩ := exists_trim_of_isMapType h
  rw [htrim] at htext
  exact ⟨⟨before, after, blanks, htext, hcomma, hblanks⟩, rfl, rfl⟩

namespace Parts

variable (parts : Parts typeName)

/-- The types that are listed are what is left of the parts without beginnings and brackets. -/
theorem splitType_eq :
    splitType typeName = (String.ofList (Text.trim (dropOpenings parts.before)),
      String.ofList (Text.trim (dropClosings (parts.after ++ '>' :: parts.blanks)))) := by
  refine LockMap.splitType_eq ?_ parts.comma_not_mem
  rw [parts.toList_eq]
  simp

/-- No bracket is the last of the blanks. -/
theorem getLast?_blanks_ne : parts.blanks.getLast? ≠ some '>' := fun hlast =>
  absurd (parts.isBlank_of_mem '>' (List.mem_of_getLast? hlast)) (by decide)

/-- The blanks behind a map type keep the bracket before them. -/
theorem dropClosings_eq_self (hblanks : parts.blanks ≠ []) :
    dropClosings (parts.after ++ '>' :: parts.blanks) = parts.after ++ '>' :: parts.blanks := by
  refine LockMap.dropClosings_eq_self ?_
  rw [List.append_cons, List.getLast?_append_of_ne_nil _ hblanks]
  exact parts.getLast?_blanks_ne

/-- The text ends in a bracket exactly when there are no blanks behind it. -/
theorem getLast?_eq_bracket_iff : typeName.toList.getLast? = some '>' ↔ parts.blanks = [] := by
  rw [parts.toList_eq]
  by_cases hblanks : parts.blanks = []
  · rw [hblanks, List.append_nil, ← List.append_assoc, List.getLast?_concat]
    exact iff_of_true rfl rfl
  · rw [List.getLast?_append_of_ne_nil _ hblanks]
    exact iff_of_false parts.getLast?_blanks_ne hblanks

/-- The text has no outer blanks exactly when there are none behind the bracket. -/
theorem trimmed_iff : Trimmed typeName.toList ↔ parts.blanks = [] := by
  rw [parts.toList_eq]
  by_cases hblanks : parts.blanks = []
  · rw [hblanks, List.append_nil]
    exact iff_of_true (trimmed_opening _) rfl
  · exact iff_of_false (Text.not_trimmed_append hblanks parts.isBlank_of_mem) hblanks

/-- The text has two beginnings exactly when the first part has one. -/
theorem opening_prefix_iff :
    "map<map<".toList <+: typeName.toList ↔ opening <+: parts.before := by
  have htwo : "map<map<".toList = opening ++ opening := rfl
  rw [htwo, parts.toList_eq, List.append_assoc, List.prefix_append_right_inj,
    List.append_assoc parts.before, List.cons_append, List.append_assoc]
  exact ⟨opening_prefix_of_append, fun hbegins => hbegins.trans (List.prefix_append _ _)⟩

/-- A text without blanks behind it ends in two brackets exactly when the second part ends in
one. -/
theorem bracket_suffix_iff (hblanks : parts.blanks = []) :
    ">>".toList <:+ typeName.toList ↔ parts.after.getLast? = some '>' := by
  have htwo : ">>".toList = ['>'] ++ ['>'] := rfl
  rw [htwo, parts.toList_eq, hblanks, List.append_nil, ← List.append_assoc,
    List.suffix_append_self_iff, ← List.append_assoc, ← getLast?_cons_eq_bracket_iff (c := ',')
    (by decide), ← List.getLast?_append_of_ne_nil (opening ++ parts.before) (List.cons_ne_nil _ _),
    List.getLast?_eq_some_iff]
  exact exists_congr fun _ => eq_comm

/-- The listed key is the key of the reference exactly when the first part has no beginning. -/
theorem key_eq_iff :
    (splitType typeName).1 = String.ofList (Text.trim parts.before) ↔
      ¬opening <+: parts.before := by
  rw [parts.splitType_eq, String.ofList_inj, trim_dropOpenings_eq_iff]

/-- The listed value is the value of the reference exactly when nothing is behind the bracket and
the second part does not end in one. -/
theorem value_eq_iff :
    (splitType typeName).2 = String.ofList (Text.trim parts.after) ↔
      parts.blanks = [] ∧ parts.after.getLast? ≠ some '>' := by
  rw [parts.splitType_eq, String.ofList_inj]
  by_cases hblanks : parts.blanks = []
  · rw [hblanks, dropClosings_concat, trim_dropClosings_eq_iff]
    simp
  · refine iff_of_false (fun heq => ?_) fun h => hblanks h.1
    -- The bracket before the blanks is listed as well.
    rw [parts.dropClosings_eq_self hblanks] at heq
    have hcount := congrArg (List.count '>') heq
    rw [Text.count_trim (by decide), Text.count_trim (by decide), List.count_append,
      List.count_cons_self] at hcount
    omega

/-- The listed types are those of a reference that resolves exactly when there are no blanks around
the map type. -/
theorem splitType_eq_iff (hfree : BracketFree index)
    (hkey : (index.resolve? (String.ofList (Text.trim parts.before)) scope).isSome = true)
    (hvalue : (index.resolve? (String.ofList (Text.trim parts.after)) scope).isSome = true) :
    splitType typeName = (String.ofList (Text.trim parts.before),
      String.ofList (Text.trim parts.after)) ↔ Trimmed typeName.toList := by
  have hopening : ¬opening <+: parts.before := fun hbegins =>
    (not_mem_of_resolves hfree hkey).1 (hbegins.subset (by decide))
  have hlast : parts.after.getLast? ≠ some '>' := fun hlast =>
    (not_mem_of_resolves hfree hvalue).2 (List.mem_of_getLast? hlast)
  rw [Prod.ext_iff, parts.key_eq_iff, parts.value_eq_iff, parts.trimmed_iff]
  exact ⟨fun h => h.2.1, fun h => ⟨hopening, h, hlast⟩⟩

end Parts

/-- What is written for the types of a map type that resolves resolves again exactly when there are
no blanks around the map type. -/
theorem isResolvable_splitType_iff (hfree : BracketFree index) (h : isMapType typeName = true)
    (hresolves : index.isResolvable typeName scope = true) :
    index.isResolvable (mapTypeText (splitType typeName).1 (splitType typeName).2) scope = true ↔
      Trimmed typeName.toList := by
  obtain ⟨key, value, hreference, hkey, hvalue⟩ := exists_mapReference hfree h hresolves
  obtain ⟨parts, rfl, rfl⟩ := exists_parts h hreference
  constructor
  · intro hagain
    by_contra hblanks
    rw [parts.trimmed_iff] at hblanks
    rw [parts.splitType_eq, parts.dropClosings_eq_self hblanks,
      isResolvable_mapTypeText _ _ (not_mem_dropOpenings parts.comma_not_mem),
      Bool.and_eq_true] at hagain
    exact (not_mem_of_resolves hfree hagain.2).2 (by simp)
  · intro htrimmed
    rw [(parts.splitType_eq_iff hfree hkey hvalue).2 htrimmed,
      isResolvable_mapTypeText _ _ parts.comma_not_mem, hkey, hvalue]
    rfl

/-- A map type that is read as a reference is listed with the key of the reference exactly when no
second beginning follows the first, and with the value exactly when it ends in a bracket and not in
two. If it resolves, where no path is written with brackets, both types are those of the reference
exactly when there are no blanks around it. -/
theorem readers_agree_iff (h : isMapType typeName = true)
    (hreference : mapReference? typeName = some (key, value)) :
    ((splitType typeName).1 = key ↔ ¬"map<map<".toList <+: typeName.toList) ∧
    ((splitType typeName).2 = value ↔
      typeName.toList.getLast? = some '>' ∧ ¬">>".toList <:+ typeName.toList) ∧
    ∀ index scope, BracketFree index → index.isResolvable typeName scope = true →
      (splitType typeName = (key, value) ↔ Trimmed typeName.toList) := by
  obtain ⟨parts, rfl, rfl⟩ := exists_parts h hreference
  refine ⟨?_, ?_, ?_⟩
  · rw [parts.key_eq_iff, parts.opening_prefix_iff]
  · rw [parts.value_eq_iff, parts.getLast?_eq_bracket_iff]
    exact and_congr_right fun hblanks => not_congr (parts.bracket_suffix_iff hblanks).symm
  · intro index scope hfree hresolves
    obtain ⟨hkey, hvalue⟩ := (isResolvable_iff_of_mapReference? hreference).1 hresolves
    exact parts.splitType_eq_iff hfree hkey hvalue

/-- A nested map type is listed with the types of its reference if a blank parts the brackets, and
so is a map type that resolves and has blanks between its parts. -/
theorem readers_agree_iff_spaced :
    (isMapType "map<string, map<int32, bool> >" = true ∧
      mapReference? "map<string, map<int32, bool> >" = some ("string", "map<int32, bool>") ∧
      splitType "map<string, map<int32, bool> >" = ("string", "map<int32, bool>")) ∧
    isMapType "map< string ,int64 >" = true ∧
      mapReference? "map< string ,int64 >" = some ("string", "int64") ∧
      TypeIndex.isResolvable {} "map< string ,int64 >" "" = true ∧
      splitType "map< string ,int64 >" = ("string", "int64") := by
  have hnested : isMapType "map<string, map<int32, bool> >" = true := by decide
  have hnestedTypes : mapReference? "map<string, map<int32, bool> >" =
      some ("string", "map<int32, bool>") := by decide
  have hplain : isMapType "map< string ,int64 >" = true := by decide
  have hplainTypes : mapReference? "map< string ,int64 >" = some ("string", "int64") := by decide
  have hresolves : TypeIndex.isResolvable {} "map< string ,int64 >" "" = true := by decide
  obtain ⟨hkey, hvalue, -⟩ := readers_agree_iff hnested hnestedTypes
  obtain ⟨-, -, hresolved⟩ := readers_agree_iff hplain hplainTypes
  have hfree : BracketFree {} := fun path hpath => nomatch hpath
  refine ⟨⟨hnested, hnestedTypes, Prod.ext (hkey.2 (by decide)) (hvalue.2 (by decide))⟩,
    hplain, hplainTypes, hresolves, (hresolved {} "" hfree hresolves).2 ?_⟩
  exact Text.trim_eq_self_iff.1 (by decide)

/-- The blank behind a map type keeps the bracket before it, so not every map type is listed with
the types of its reference. -/
theorem readers_disagree :
    ¬∀ typeName key value, isMapType typeName = true →
      mapReference? typeName = some (key, value) → splitType typeName = (key, value) := by
  intro h
  have hsame := h "map<string, string> " "string" "string" (by decide) (by decide)
  exact absurd hsame (by decide)

/-- A nested map type loses a bracket of its own if no blank parts the two. -/
example : mapReference? "map<string, map<int32, bool>>" = some ("string", "map<int32, bool>") ∧
    splitType "map<string, map<int32, bool>>" = ("string", "map<int32, bool") := by decide

end SchemaGate.LockMap
