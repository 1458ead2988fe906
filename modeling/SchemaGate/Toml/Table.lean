import SchemaGate.Toml.Value

/-!
# TOML tables under construction

The lines of a text add to tables that earlier lines have begun. A table remembers how it came to
be: by a header of its own, by the header of a table inside it, or by a dotted key. A header may
take up only a table of the second kind, and a dotted key only one that no header has taken up.
-/

namespace SchemaGate.Toml

/-- How a table came to be. -/
inductive Origin where
  | header
  | implied
  | dotted
  deriving DecidableEq, Repr

/-- What stands under a key: a finished value, a table, or the tables of a repeated header. -/
inductive Item where
  | value (content : Value)
  | table (origin : Origin) (entries : List (String × Item))
  | tables (elements : List (List (String × Item)))
  deriving Inhabited

/-- The entries of a table. -/
abbrev Entries := List (String × Item)

namespace Item

mutual

/-- The finished value of an item. -/
def toValue : Item → Value
  | value content => content
  | table _ entries => .table (entriesToValues entries)
  | tables elements => .list (elementsToValues elements)

/-- The finished values of entries. -/
def entriesToValues : List (String × Item) → List (String × Value)
  | [] => []
  | (key, item) :: entries => (key, item.toValue) :: entriesToValues entries

/-- The finished values of the tables of a repeated header. -/
def elementsToValues : List (List (String × Item)) → List Value
  | [] => []
  | entries :: elements => .table (entriesToValues entries) :: elementsToValues elements

end

end Item

namespace Entries

/-- The entries with an item under a key, in place of one that is there. -/
def set (key : String) (item : Item) : Entries → Entries
  | [] => [(key, item)]
  | entry :: entries =>
      if entry.1 = key then (key, item) :: entries else entry :: set key item entries

/-- Changes the last of the tables of a repeated header. -/
def changeLast (change : Entries → Option Entries) : List Entries → Option (List Entries)
  | [] => none
  | [entries] => do pure [← change entries]
  | entries :: elements => do pure (entries :: (← changeLast change elements))

/-- Changes the table at the end of a path. Tables on the way that are not there are made, by a
dotted key or by a header. The change is told whether the table was made by a dotted key. -/
def descend (dotted : Bool) (change : Bool → Entries → Option Entries) :
    (path : List String) → (byDottedKey : Bool) → Entries → Option Entries
  | [], byDottedKey, entries => change byDottedKey entries
  | key :: path, _, entries =>
      match entries.lookup key with
      | none => do
          let inner ← descend dotted change path dotted []
          pure (set key (.table (if dotted then .dotted else .implied) inner) entries)
      | some (.value _) => none
      | some (.tables elements) => do
          let elements ← changeLast (descend dotted change path false) elements
          pure (set key (.tables elements) entries)
      | some (.table origin inner) =>
          if dotted ∧ origin = .header then none
          else do
            let inner ← descend dotted change path (origin = .dotted) inner
            pure (set key (.table origin inner) entries)

/-- Gives a key of a table a value. -/
def addKey (key : String) (value : Value) (entries : Entries) : Option Entries :=
  if (entries.lookup key).isSome then none else some (entries ++ [(key, .value value)])

/-- Gives a dotted key a value. All but its last part are tables made by dotted keys. -/
def assign (path : List String) (key : String) (value : Value) (entries : Entries) :
    Option Entries :=
  descend true
    (fun byDottedKey inner =>
      if byDottedKey = path.isEmpty then none else addKey key value inner)
    path false entries

/-- Begins the table of a header. -/
def openTable (key : String) (entries : Entries) : Option Entries :=
  match entries.lookup key with
  | none => some (set key (.table .header []) entries)
  | some (.table .implied inner) => some (set key (.table .header inner) entries)
  | some _ => none

/-- Begins one more table of a repeated header. -/
def openElement (key : String) (entries : Entries) : Option Entries :=
  match entries.lookup key with
  | none => some (set key (.tables [[]]) entries)
  | some (.tables elements) => some (set key (.tables (elements ++ [[]])) entries)
  | some _ => none

end Entries

end SchemaGate.Toml
