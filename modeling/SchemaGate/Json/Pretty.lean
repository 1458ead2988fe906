import SchemaGate.Json.Float
import SchemaGate.Json.Value
import SchemaGate.Text.Hex

/-!
# Writing JSON

Values are written over several lines with two blanks of indentation per level; empty arrays and
objects stay on one line. Quotes, backslashes and control characters in strings are escaped, all
other characters are written as they are.
-/

namespace SchemaGate.Json

/-- One character inside a written string. -/
def escapeChar (c : Char) : List Char :=
  if c = '\"' then ['\\', '\"']
  else if c = '\\' then ['\\', '\\']
  else if c = '\n' then ['\\', 'n']
  else if c = '\r' then ['\\', 'r']
  else if c = '\t' then ['\\', 't']
  else if c = '\x08' then ['\\', 'b']
  else if c = '\x0c' then ['\\', 'f']
  else if c.toNat < 0x20 then
    ['\\', 'u', '0', '0', Text.hexDigit (c.toNat / 16), Text.hexDigit (c.toNat % 16)]
  else [c]

/-- The characters of a text inside a written string. -/
def escape (text : List Char) : List Char :=
  text.flatMap escapeChar

/-- A text as a JSON string. -/
def stringText (text : String) : List Char :=
  '\"' :: escape text.toList ++ ['\"']

/-- A line break followed by the indentation of a level. -/
def newline (level : Nat) : List Char :=
  '\n' :: List.replicate (2 * level) ' '

namespace Value

mutual

/-- The text of a value whose first line is already indented to a level. -/
def chars (level : Nat) : Value → List Char
  | null => "null".toList
  | bool true => "true".toList
  | bool false => "false".toList
  | int value => (toString value).toList
  | float bits => floatText bits
  | str text => stringText text
  | arr [] => ['[', ']']
  | arr (item :: items) =>
      '[' :: newline (level + 1) ++ item.chars (level + 1) ++
        charsItems (level + 1) items ++ newline level ++ [']']
  | obj [] => ['\x7b', '\x7d']
  | obj ((key, value) :: members) =>
      '\x7b' :: newline (level + 1) ++ stringText key ++ [':', ' '] ++ value.chars (level + 1) ++
        charsMembers (level + 1) members ++ newline level ++ ['\x7d']

/-- The items of an array after the first. -/
def charsItems (level : Nat) : List Value → List Char
  | [] => []
  | item :: items => ',' :: newline level ++ item.chars level ++ charsItems level items

/-- The members of an object after the first. -/
def charsMembers (level : Nat) : List (String × Value) → List Char
  | [] => []
  | (key, value) :: members =>
      ',' :: newline level ++ stringText key ++ [':', ' '] ++ value.chars level ++
        charsMembers level members

end

/-- The text of a value. -/
def pretty (value : Value) : String :=
  String.ofList (value.chars 0)

end Value

end SchemaGate.Json
