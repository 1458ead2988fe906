/-!
# Tables ordered by name

A `NameMap` is a finite table from names to values whose entries stand in strictly increasing order
of name, so its list of entries is determined by what it holds. Names are compared character by
character, which for UTF-8 text is the order of the bytes. The main statements are `find?_insert`,
which gives a look-up after an insertion, and `mem_entries_iff`, which says that the entries are
exactly what look-ups find.
-/

namespace SchemaGate

/-- A table from names to values, in strictly increasing order of name. -/
structure NameMap (α : Type) where
  entries : List (String × α)
  ordered : entries.Pairwise fun a b => a.1 < b.1

namespace NameMap

variable {α : Type}

/-- The table without entries. -/
def empty : NameMap α := ⟨[], .nil⟩

instance : EmptyCollection (NameMap α) := ⟨empty⟩

instance : Inhabited (NameMap α) := ⟨empty⟩

/-- Insert an entry at its place in an ordered list, replacing the value of an equal name. -/
def insertEntry (name : String) (value : α) : List (String × α) → List (String × α)
  | [] => [(name, value)]
  | entry :: rest =>
      if name < entry.1 then (name, value) :: entry :: rest
      else if name = entry.1 then (name, value) :: rest
      else entry :: insertEntry name value rest

/-- The names after an insertion are the old ones and the new one. -/
theorem fst_mem_insertEntry {name : String} {value : α} {entries : List (String × α)}
    {entry : String × α} (h : entry ∈ insertEntry name value entries) :
    entry.1 = name ∨ entry ∈ entries := by
  induction entries with
  | nil => simp_all [insertEntry]
  | cons first rest ih =>
      unfold insertEntry at h
      split at h
      · rcases List.mem_cons.1 h with rfl | h
        · exact .inl rfl
        · exact .inr h
      · split at h
        · rcases List.mem_cons.1 h with rfl | h
          · exact .inl rfl
          · exact .inr (List.mem_cons_of_mem _ h)
        · rcases List.mem_cons.1 h with rfl | h
          · exact .inr List.mem_cons_self
          · exact (ih h).imp id (List.mem_cons_of_mem _)

/-- Of two names neither of which is below the other, one is the other. -/
theorem eq_of_not_lt {a b : String} (hab : ¬a < b) (hba : ¬b < a) : a = b :=
  String.le_antisymm (String.not_lt.1 hba) (String.not_lt.1 hab)

/-- Insertion keeps the order. -/
theorem ordered_insertEntry {name : String} {value : α} {entries : List (String × α)}
    (h : entries.Pairwise fun a b => a.1 < b.1) :
    (insertEntry name value entries).Pairwise fun a b => a.1 < b.1 := by
  induction entries with
  | nil => simp [insertEntry]
  | cons first rest ih =>
      have hrest := List.pairwise_cons.1 h
      unfold insertEntry
      split
      · rename_i hlt
        refine List.pairwise_cons.2 ⟨?_, h⟩
        intro entry hentry
        rcases List.mem_cons.1 hentry with rfl | hentry
        · exact hlt
        · exact String.lt_trans hlt (hrest.1 entry hentry)
      · split
        · rename_i heq
          exact List.pairwise_cons.2 ⟨fun entry hentry => heq ▸ hrest.1 entry hentry, hrest.2⟩
        · rename_i hlt hne
          refine List.pairwise_cons.2 ⟨?_, ih hrest.2⟩
          intro entry hentry
          rcases fst_mem_insertEntry hentry with hname | hentry
          · rw [hname]
            exact Decidable.byContradiction fun hcon => hne (eq_of_not_lt hlt hcon)
          · exact hrest.1 entry hentry

/-- The table with an entry added, or replaced if the name is there. -/
def insert (table : NameMap α) (name : String) (value : α) : NameMap α :=
  ⟨insertEntry name value table.entries, ordered_insertEntry table.ordered⟩

/-- The value under a name. -/
def find? (table : NameMap α) (name : String) : Option α :=
  (table.entries.find? fun entry => entry.1 = name).map (·.2)

/-- Whether a name is in the table. -/
def contains (table : NameMap α) (name : String) : Bool :=
  (table.find? name).isSome

/-- The names in order. -/
def names (table : NameMap α) : List String :=
  table.entries.map (·.1)

/-- The values in the order of their names. -/
def values (table : NameMap α) : List α :=
  table.entries.map (·.2)

/-- How many names the table holds. -/
def size (table : NameMap α) : Nat :=
  table.entries.length

/-- Whether the table holds no name. -/
def isEmpty (table : NameMap α) : Bool :=
  table.entries.isEmpty

/-- The first name of the table that is not below a given text. -/
def firstFrom? (table : NameMap α) (least : String) : Option String :=
  table.names.find? fun name => !decide (name < least)

/-- The table of a list of entries, in which a later entry replaces an earlier one of its name. -/
def ofList (entries : List (String × α)) : NameMap α :=
  entries.foldl (fun table entry => table.insert entry.1 entry.2) empty

/-- The entries of a table are exactly what look-ups find. -/
theorem mem_entries_iff {table : NameMap α} {name : String} {value : α} :
    (name, value) ∈ table.entries ↔ table.find? name = some value := by
  obtain ⟨entries, ordered⟩ := table
  simp only [find?]
  induction entries with
  | nil => simp
  | cons first rest ih =>
      have hrest := List.pairwise_cons.1 ordered
      rw [List.find?_cons]
      by_cases hname : first.1 = name
      · simp only [hname, decide_true, Option.map_some, Option.some.injEq, List.mem_cons]
        constructor
        · rintro (rfl | hmem)
          · rfl
          · exact absurd (hname ▸ hrest.1 _ hmem) (String.lt_irrefl _)
        · intro hvalue
          exact .inl (Prod.ext hname.symm hvalue.symm)
      · simp only [hname, decide_false, List.mem_cons]
        rw [← ih hrest.2]
        constructor
        · rintro (rfl | hmem)
          · exact absurd rfl hname
          · exact hmem
        · exact .inr

/-- A look-up after an insertion finds the new value under the new name and the old values under
all others. -/
theorem find?_insert (table : NameMap α) (name other : String) (value : α) :
    (table.insert name value).find? other =
      if name = other then some value else table.find? other := by
  obtain ⟨entries, ordered⟩ := table
  simp only [find?, insert]
  induction entries with
  | nil => by_cases h : name = other <;> simp [insertEntry, h]
  | cons first rest ih =>
      have hrest := List.pairwise_cons.1 ordered
      unfold insertEntry
      split
      · by_cases h : name = other <;> simp [List.find?_cons, h]
      · split
        · rename_i hname
          by_cases h : name = other
          · simp [h]
          · simp [h, ← hname]
        · rename_i hne
          rw [List.find?_cons, List.find?_cons]
          by_cases hfirst : first.1 = other
          · have : name ≠ other := fun h => hne (h.trans hfirst.symm)
            simp [hfirst, this]
          · simpa [hfirst] using ih hrest.2

/-- A table holds as many names as it has entries, each once. -/
theorem nodup_names (table : NameMap α) : table.names.Nodup := by
  unfold names
  rw [List.nodup_iff_pairwise_ne, List.pairwise_map]
  refine table.ordered.imp ?_
  intro a b hlt heq
  rw [heq] at hlt
  exact String.lt_irrefl _ hlt

end NameMap

end SchemaGate
