import SchemaGate.Text.Split

/-!
# TOML values

The values of a configuration text. Numbers and dates are checked when they are read, but no setting
holds one, so they are kept without their content.
-/

namespace SchemaGate.Toml

/-- A value: text, truth value, number, date or time, list, or table. -/
inductive Value where
  | text (content : String)
  | boolean (value : Bool)
  | number
  | dateTime
  | list (items : List Value)
  | table (entries : List (String × Value))
  deriving Inhabited

namespace Value

/-- The fields of a record with the given keys: the entries of a table, or the items of a list in
order. A date stands for a record of which no field is known. -/
def fields? (keys : List String) : Value → Option (List (String × Value))
  | table entries => some entries
  | list items => some (keys.zip items)
  | dateTime => some []
  | _ => none

/-- The text of a value. -/
def text? : Value → Option String
  | text content => some content
  | _ => none

/-- The truth value of a value. -/
def boolean? : Value → Option Bool
  | boolean value => some value
  | _ => none

/-- The items of a list. -/
def items? : Value → Option (List Value)
  | list items => some items
  | _ => none

/-- Whether a value is an empty list or table. -/
def isEmpty : Value → Bool
  | list items => items.isEmpty
  | table entries => entries.isEmpty
  | _ => false

/-- The word of an alternative: a text, or the key of an empty value in a table of one entry. -/
def word? : Value → Option String
  | text content => some content
  | table [(key, value)] => if value.isEmpty then some key else none
  | _ => none

end Value

/-- The value of a field, or a default if the field is absent. -/
def fieldOr {α : Type} (default : α) (read? : Value → Option α) (key : String)
    (fields : List (String × Value)) : Option α :=
  match fields.lookup key with
  | some value => read? value
  | none => some default

end SchemaGate.Toml
