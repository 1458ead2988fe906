import Mathlib.Data.List.Induction
import Mathlib.Data.List.Sort
import SchemaGate.NameMap

/-!
# Tables built from lists

A table built from a list of entries answers with the last entry of a name. The main statement is
`find?_ofList_eq_some_iff`; `mem_values_iff` reads the values of a table through look-ups, and
`pairwise_values` says that they come in strictly increasing order of name. A table is determined by
what look-ups find: `entries_eq_map`.
-/

namespace SchemaGate.NameMap

variable {α : Type}

/-- The empty table finds nothing. -/
@[simp] theorem find?_empty (name : String) : (∅ : NameMap α).find? name = none := rfl

/-- After an insertion a table holds the new name and the old ones. -/
theorem contains_insert {table : NameMap α} {name other : String} {value : α} :
    (table.insert name value).contains other = true ↔
      name = other ∨ table.contains other = true := by
  simp only [contains, find?_insert]
  by_cases h : name = other <;> simp [h]

/-- A table is empty exactly when it holds no name. -/
theorem isEmpty_iff {table : NameMap α} :
    table.isEmpty = true ↔ ∀ name, ¬table.contains name = true := by
  simp only [isEmpty, contains, Option.isSome_iff_exists, ← mem_entries_iff, List.isEmpty_iff,
    List.eq_nil_iff_forall_not_mem, Prod.forall, not_exists]

/-- Appending an entry to the list inserts it into the table. -/
@[simp] theorem ofList_append_singleton (entries : List (String × α)) (entry : String × α) :
    ofList (entries ++ [entry]) = (ofList entries).insert entry.1 entry.2 := by
  simp [ofList]

/-- A look-up in the table of a list goes through the list from its end. -/
theorem find?_ofList (entries : List (String × α)) (name : String) :
    (ofList entries).find? name =
      (entries.reverse.find? fun entry => entry.1 = name).map (·.2) := by
  -- The induction takes entries off the end, where the one that counts stands.
  induction entries using List.reverseRecOn with
  | nil => rfl
  | append_singleton entries entry ih =>
      rw [ofList_append_singleton, find?_insert, ih, List.reverse_append, List.reverse_singleton,
        List.singleton_append, List.find?_cons]
      by_cases h : entry.1 = name <;> simp [h]

/-- The table of a list holds a value under a name exactly when some entry has both and no later
entry has the name. -/
theorem find?_ofList_eq_some_iff {entries : List (String × α)} {name : String} {value : α} :
    (ofList entries).find? name = some value ↔
      ∃ before after, entries = before ++ (name, value) :: after ∧
        ∀ entry ∈ after, entry.1 ≠ name := by
  simp only [find?_ofList, Option.map_eq_some_iff, List.find?_eq_some_iff_append]
  constructor
  · rintro ⟨⟨_, _⟩, ⟨hname, later, earlier, hsplit, hlater⟩, rfl⟩
    refine ⟨earlier.reverse, later.reverse, ?_, ?_⟩
    · have hreverse := congrArg List.reverse hsplit
      simpa [← of_decide_eq_true hname] using hreverse
    · intro entry hentry
      simpa using hlater entry (List.mem_reverse.1 hentry)
  · rintro ⟨before, after, rfl, hafter⟩
    refine ⟨(name, value), ⟨by simp, after.reverse, before.reverse, by simp, ?_⟩, rfl⟩
    intro entry hentry
    simpa using hafter entry (List.mem_reverse.1 hentry)

/-- The table of a list holds a name exactly when some entry has it. -/
theorem contains_ofList {entries : List (String × α)} {name : String} :
    (ofList entries).contains name = true ↔ ∃ entry ∈ entries, entry.1 = name := by
  simp [contains, find?_ofList]

/-- The values of a table are what look-ups find. -/
theorem mem_values_iff {table : NameMap α} {value : α} :
    value ∈ table.values ↔ ∃ name, table.find? name = some value := by
  simp only [values, List.mem_map, Prod.exists, exists_eq_right, mem_entries_iff]

/-- If a function gives back the name under which each value stands, the values come in strictly
increasing order of that function. -/
theorem pairwise_values {table : NameMap α} {nameOf : α → String}
    (h : ∀ name value, table.find? name = some value → nameOf value = name) :
    table.values.Pairwise fun a b => nameOf a < nameOf b := by
  have hnames : ∀ entry ∈ table.entries, nameOf entry.2 = entry.1 := by
    intro entry hentry
    exact h entry.1 entry.2 (mem_entries_iff.1 hentry)
  rw [values, List.pairwise_map]
  refine table.ordered.imp_of_mem ?_
  intro a b ha hb hlt
  rwa [hnames a ha, hnames b hb]

/-- Lists of entries in strictly increasing order of name are equal if they hold the same. -/
theorem eq_of_ordered {entries others : List (String × α)}
    (h : entries.Pairwise fun a b => a.1 < b.1) (hothers : others.Pairwise fun a b => a.1 < b.1)
    (hmem : ∀ entry, entry ∈ entries ↔ entry ∈ others) : entries = others := by
  have hasymm : Std.Asymm fun a b : String × α => a.1 < b.1 :=
    ⟨fun _ _ hlt hgt => String.lt_asymm hlt hgt⟩
  exact h.eq_of_mem_iff hothers hmem

/-- If a table finds under each name the image of what another finds, its entries are those of the
other with the images as their values. -/
theorem entries_eq_map {β : Type} {table : NameMap α} {other : NameMap β} {image : α → β}
    (h : ∀ name, other.find? name = (table.find? name).map image) :
    other.entries = table.entries.map fun entry => (entry.1, image entry.2) := by
  have hordered : (table.entries.map fun entry => (entry.1, image entry.2)).Pairwise
      fun a b => a.1 < b.1 := List.pairwise_map.2 table.ordered
  refine eq_of_ordered other.ordered hordered fun entry => ?_
  obtain ⟨name, value⟩ := entry
  rw [mem_entries_iff, h, Option.map_eq_some_iff, List.mem_map]
  constructor
  · rintro ⟨original, hfind, rfl⟩
    exact ⟨(name, original), mem_entries_iff.2 hfind, rfl⟩
  · rintro ⟨⟨_, original⟩, hentry, heq⟩
    obtain ⟨rfl, rfl⟩ := Prod.mk.inj heq
    exact ⟨original, mem_entries_iff.1 hentry, rfl⟩

/-- Tables that find the same are the same. -/
theorem eq_of_find?_eq {table other : NameMap α}
    (h : ∀ name, other.find? name = table.find? name) : other = table := by
  have hentries : other.entries = table.entries.map fun entry => (entry.1, id entry.2) :=
    entries_eq_map fun name => (h name).trans Option.map_id_apply.symm
  obtain ⟨entries, ordered⟩ := table
  obtain ⟨others, ordered'⟩ := other
  simpa using hentries

end SchemaGate.NameMap
