import SchemaGate.Toml.Number
import SchemaGate.Toml.Scalar
import SchemaGate.Toml.Table

/-!
# Reading TOML

`Toml.read?` reads a text of TOML 1.0 line by line: assignments, headers and comments. Lists and
tables inside lines may be nested only so deeply, and keys may have only so many parts.
-/

namespace SchemaGate.Toml

/-- One more than the levels of nesting inside a line, and than the parts of a key. -/
def levelBound : Nat := 80

/-- A key with its path and its last part. -/
def readPath? (text : List Char) : Option (List String × String × List Char) := do
  let (parts, rest) ← readKey? (text.length + 1) text
  if parts.length < levelBound then pure (parts.dropLast, ← parts.getLast?, rest) else none

/-- A number or a date, and the rest. -/
def readPlainValue? (text : List Char) : Option (Value × List Char) :=
  match readDateTime? text with
  | some rest => some (.dateTime, rest)
  | none => ((readFloat? text).or (readInteger? text)).map fun rest => (.number, rest)

/-- A string as a value, and the rest. -/
def readText? (text : List Char) : Option (Value × List Char) :=
  (readString? text).map fun (content, rest) => (.text (.ofList content), rest)

/-- A word, string, number or date, and the rest. -/
def readScalar? : List Char → Option (Value × List Char)
  | 't' :: 'r' :: 'u' :: 'e' :: rest => some (.boolean true, rest)
  | 'f' :: 'a' :: 'l' :: 's' :: 'e' :: rest => some (.boolean false, rest)
  | '\"' :: rest => readText? ('\"' :: rest)
  | '\'' :: rest => readText? ('\'' :: rest)
  | text => readPlainValue? text

mutual

/-- A value with `room` levels of nesting, and the rest. Each step of `fuel` uses up a character or
enters a list or table. -/
def readValue? (room : Nat) : (fuel : Nat) → List Char → Option (Value × List Char)
  | 0, _ => none
  | fuel + 1, '[' :: rest =>
      match room with
      | 0 => none
      | room + 1 => do
          let (items, rest) ← readItems? room fuel rest
          pure (.list items, rest)
  | fuel + 1, '\x7b' :: rest =>
      match room with
      | 0 => none
      | room + 1 =>
          match skipBlanks rest with
          | '\x7d' :: rest => some (.table [], rest)
          | rest => do
              let (entries, rest) ← readPairs? room [] fuel rest
              pure (.table (Item.entriesToValues entries), rest)
  | _ + 1, text => readScalar? text

/-- The items of a list up to its closing bracket. -/
def readItems? (room : Nat) : (fuel : Nat) → List Char → Option (List Value × List Char)
  | 0, _ => none
  | fuel + 1, text => do
      match ← skipLines (text.length + 1) text with
      | ']' :: rest => pure ([], rest)
      | text =>
          let (item, rest) ← readValue? room fuel text
          match ← skipLines (rest.length + 1) rest with
          | ']' :: rest => pure ([item], rest)
          | ',' :: rest =>
              let (items, rest) ← readItems? room fuel rest
              pure (item :: items, rest)
          | _ => none

/-- The entries of a table inside a line up to its closing brace, at least one, added to entries. -/
def readPairs? (room : Nat) (entries : Entries) :
    (fuel : Nat) → List Char → Option (Entries × List Char)
  | 0, _ => none
  | fuel + 1, text => do
      let (path, key, rest) ← readPath? text
      let rest ← readMark? '=' rest
      let (value, rest) ← readValue? room fuel (skipBlanks rest)
      let entries ← entries.assign path key value
      match skipBlanks rest with
      | '\x7d' :: rest => pure (entries, rest)
      | ',' :: rest => readPairs? room entries fuel rest
      | _ => none

end

/-- A document read so far: its entries and the path of the table that lines add to. -/
structure Draft where
  entries : Entries := []
  current : List String := []

namespace Draft

/-- Adds the entry of a line to the current table. -/
def assign (draft : Draft) (path : List String) (key : String) (value : Value) : Option Draft := do
  let entries ← Entries.descend false (fun _ inner => inner.assign path key value) draft.current
    false draft.entries
  pure { draft with entries }

/-- Begins a table, by a change of the table in which its header puts it. -/
def enter (draft : Draft) (path : List String) (key : String)
    (change : String → Entries → Option Entries) : Option Draft := do
  let entries ← Entries.descend false (fun _ inner => change key inner) path false draft.entries
  pure ⟨entries, path ++ [key]⟩

/-- Reads the header of a table after its opening bracket, or of one more table of a list after two
opening brackets. -/
def readHeader? (draft : Draft) : List Char → Option (Draft × List Char)
  | '[' :: rest => do
      let (path, key, rest) ← readPath? rest
      let rest ← readMark? ']' (← readMark? ']' rest)
      pure (← draft.enter path key Entries.openElement, rest)
  | rest => do
      let (path, key, rest) ← readPath? rest
      let rest ← readMark? ']' rest
      pure (← draft.enter path key Entries.openTable, rest)

/-- Reads the assignment of a line. -/
def readAssignment? (draft : Draft) (text : List Char) : Option (Draft × List Char) := do
  let (path, key, rest) ← readPath? text
  let rest ← readMark? '=' rest
  let (value, rest) ← readValue? (levelBound - 1) (2 * text.length) (skipBlanks rest)
  pure (← draft.assign path key value, rest)

/-- Reads lines up to the end of the text. -/
def readLines? (draft : Draft) : (fuel : Nat) → List Char → Option Draft
  | 0, _ => none
  | fuel + 1, text =>
      match skipBlanks text with
      | [] => some draft
      | '#' :: rest => do draft.readLines? fuel (← readLineEnd? ('#' :: rest))
      | '\n' :: rest => draft.readLines? fuel rest
      | '\r' :: rest => do draft.readLines? fuel (← readBreak? ('\r' :: rest))
      | '[' :: rest => do
          let (draft, rest) ← draft.readHeader? rest
          draft.readLines? fuel (← readLineEnd? rest)
      | rest => do
          let (draft, rest) ← draft.readAssignment? rest
          draft.readLines? fuel (← readLineEnd? rest)

end Draft

/-- A text without the mark of its byte order. -/
def skipByteOrderMark : List Char → List Char
  | '\ufeff' :: rest => rest
  | text => text

/-- The table of a text. -/
def read? (text : String) : Option Value := do
  let text := skipByteOrderMark text.toList
  let draft ← ({} : Draft).readLines? (text.length + 1) text
  pure (.table (Item.entriesToValues draft.entries))

end SchemaGate.Toml
