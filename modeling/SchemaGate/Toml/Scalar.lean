import SchemaGate.Text.Hex

/-!
# Words of TOML

Readers of the parts of a line: blanks, comments, strings and keys. A reader takes a text and gives
back what it has read and the rest, or nothing if the text does not begin with what it reads.
-/

namespace SchemaGate.Toml

/-- The blanks inside a line. -/
def isBlank (c : Char) : Bool :=
  c == ' ' || c == '\t'

/-- A text without the blanks at its beginning. -/
def skipBlanks (text : List Char) : List Char :=
  text.dropWhile isBlank

/-- The characters that may stand in comments and strings: all but control characters. -/
def isPlain (c : Char) : Bool :=
  c == '\t' || (c.toNat ≥ 0x20 && c.toNat != 0x7F)

/-- What follows a line break. -/
def readBreak? : List Char → Option (List Char)
  | '\n' :: rest => some rest
  | '\r' :: '\n' :: rest => some rest
  | _ => none

/-- A text without the comment at its beginning. -/
def skipComment : List Char → List Char
  | '#' :: rest => rest.dropWhile isPlain
  | text => text

/-- What follows the end of a line, which may hold a comment. -/
def readLineEnd? (text : List Char) : Option (List Char) :=
  match skipComment (skipBlanks text) with
  | [] => some []
  | rest => readBreak? rest

/-- A text without the blanks, comments and line breaks at its beginning. A comment must be followed
by a line break. -/
def skipLines : (fuel : Nat) → List Char → Option (List Char)
  | 0, _ => none
  | fuel + 1, text =>
      match skipBlanks text with
      | '#' :: rest => (readBreak? (rest.dropWhile isPlain)).bind (skipLines fuel)
      | '\n' :: rest => skipLines fuel rest
      | '\r' :: rest => (readBreak? ('\r' :: rest)).bind (skipLines fuel)
      | rest => some rest

/-- The character of a one-letter escape. -/
def simpleEscape? (c : Char) : Option Char :=
  match c with
  | 'b' => some '\x08'
  | 't' => some '\t'
  | 'n' => some '\n'
  | 'f' => some '\x0c'
  | 'r' => some '\r'
  | '\"' => some '\"'
  | '\\' => some '\\'
  | _ => none

/-- The character whose number is given by hexadecimal digits, unless there is none. -/
def charOfDigits? (digits : List Char) : Option Char := do
  let n ← digits.foldlM (fun n c => (Text.hexValue? c).map (16 * n + ·)) 0
  if n < 0xD800 ∨ (0xE000 ≤ n ∧ n ≤ 0x10FFFF) then some (Char.ofNat n) else none

/-- Puts a character in front of what a reader gives. -/
def prepend (c : Char) (read : Option (List Char × List Char)) : Option (List Char × List Char) :=
  read.map fun (text, rest) => (c :: text, rest)

/-- A string in double quotes on one line, after its opening quote. -/
def readBasic? : List Char → Option (List Char × List Char)
  | [] => none
  | '\"' :: rest => some ([], rest)
  | '\\' :: 'u' :: a :: b :: c :: d :: rest => do
      prepend (← charOfDigits? [a, b, c, d]) (readBasic? rest)
  | '\\' :: 'U' :: a :: b :: c :: d :: e :: f :: g :: h :: rest => do
      prepend (← charOfDigits? [a, b, c, d, e, f, g, h]) (readBasic? rest)
  | '\\' :: e :: rest => do prepend (← simpleEscape? e) (readBasic? rest)
  | c :: rest => if isPlain c ∧ c ≠ '\\' then prepend c (readBasic? rest) else none

/-- A string in single quotes on one line, after its opening quote. -/
def readLiteral? : List Char → Option (List Char × List Char)
  | [] => none
  | '\'' :: rest => some ([], rest)
  | c :: rest => if isPlain c then prepend c (readLiteral? rest) else none

/-- The quotes, two at most, that belong to a string although its closing quotes come before them.
-/
def extraQuotes (quote : Char) (text : List Char) : List Char × List Char :=
  let quotes := (text.take 2).takeWhile fun c => c = quote
  (quotes, text.drop quotes.length)

/-- Whether nothing but blanks stands before the next line break. -/
def breakFollows (text : List Char) : Bool :=
  (readBreak? (skipBlanks text)).isSome

/-- A string in double quotes over several lines, after its opening quotes. A backslash at the end
of a line is left out with all blanks and line breaks after it; while they are left out, `skipping`
is set. -/
def readMultiBasic? (skipping : Bool) : List Char → Option (List Char × List Char)
  | [] => none
  | '\"' :: '\"' :: '\"' :: rest => some (extraQuotes '\"' rest)
  | '\\' :: 'u' :: a :: b :: c :: d :: rest => do
      prepend (← charOfDigits? [a, b, c, d]) (readMultiBasic? false rest)
  | '\\' :: 'U' :: a :: b :: c :: d :: e :: f :: g :: h :: rest => do
      prepend (← charOfDigits? [a, b, c, d, e, f, g, h]) (readMultiBasic? false rest)
  | '\r' :: '\n' :: rest =>
      if skipping then readMultiBasic? true rest else prepend '\n' (readMultiBasic? false rest)
  | '\\' :: e :: rest =>
      if breakFollows (e :: rest) then readMultiBasic? true rest
      else do prepend (← simpleEscape? e) (readMultiBasic? false rest)
  | c :: rest =>
      if skipping ∧ (isBlank c ∨ c = '\n') then readMultiBasic? true rest
      else if c = '\n' ∨ (isPlain c ∧ c ≠ '\\') then prepend c (readMultiBasic? false rest)
      else none

/-- A string in single quotes over several lines, after its opening quotes. -/
def readMultiLiteral? : List Char → Option (List Char × List Char)
  | [] => none
  | '\'' :: '\'' :: '\'' :: rest => some (extraQuotes '\'' rest)
  | '\r' :: '\n' :: rest => prepend '\n' (readMultiLiteral? rest)
  | c :: rest => if c = '\n' ∨ isPlain c then prepend c (readMultiLiteral? rest) else none

/-- A text without the line break at its beginning. -/
def skipBreak (text : List Char) : List Char :=
  (readBreak? text).getD text

/-- A string of any kind, as a value. -/
def readString? : List Char → Option (List Char × List Char)
  | '\"' :: '\"' :: '\"' :: rest => readMultiBasic? false (skipBreak rest)
  | '\'' :: '\'' :: '\'' :: rest => readMultiLiteral? (skipBreak rest)
  | '\"' :: rest => readBasic? rest
  | '\'' :: rest => readLiteral? rest
  | _ => none

/-- The characters of keys without quotes. -/
def isKeyChar (c : Char) : Bool :=
  c.isAlphanum || c == '_' || c == '-'

/-- One part of a key. -/
def readKeyPart? : List Char → Option (List Char × List Char)
  | '\"' :: rest => readBasic? rest
  | '\'' :: rest => readLiteral? rest
  | text =>
      match text.takeWhile isKeyChar with
      | [] => none
      | name => some (name, text.dropWhile isKeyChar)

/-- The parts of a key between dots, with blanks around them. -/
def readKey? : (fuel : Nat) → List Char → Option (List String × List Char)
  | 0, _ => none
  | fuel + 1, text => do
      let (part, rest) ← readKeyPart? (skipBlanks text)
      match skipBlanks rest with
      | '.' :: rest =>
          let (parts, rest) ← readKey? fuel rest
          pure (String.ofList part :: parts, rest)
      | rest => pure ([String.ofList part], rest)

end SchemaGate.Toml
