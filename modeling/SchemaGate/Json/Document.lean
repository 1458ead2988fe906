import SchemaGate.Decimal.Binary
import SchemaGate.Json.Value
import SchemaGate.Text.Hex

/-!
# Reading JSON

`Document.read` reads a text as far as it is JSON. Where the text stops being JSON the document
holds a break: a value that is `broken`, or an array or object that is not closed. A document with a
break still shows everything before it, so a reader of documents can report the first fault of a
text in the order of the text, whether it is a fault of form or of content. Strings with unpaired
surrogate escapes and numbers too large for a double are kept as such, because they are faults only
where they are read as values.
-/

namespace SchemaGate.Json

/-- A number: an integer between the least signed and the greatest unsigned number of 64 bits, any
other number that a double can hold, or a number beyond all doubles. -/
inductive Number where
  | integer (value : Int)
  | floating
  | tooLarge
  deriving DecidableEq, Repr

/-- A JSON text as read up to its first fault of form. -/
inductive Document where
  | null
  | bool (value : Bool)
  | num (value : Number)
  | str (text : Option String)
  | arr (items : List Document) (closed : Bool)
  | obj (members : List (Option String × Document)) (closed : Bool)
  | broken
  deriving Inhabited

/-- The blanks between the words of a JSON text. -/
def isSpace (c : Char) : Bool :=
  c == ' ' || c == '\t' || c == '\n' || c == '\r'

/-- A text without the blanks at its beginning. -/
def skipSpace (text : List Char) : List Char :=
  text.dropWhile isSpace

/-- The number of four hexadecimal digits. -/
def hexValue4? (a b c d : Char) : Option Nat := do
  let high := (← Text.hexValue? a) * 16 + (← Text.hexValue? b)
  let low := (← Text.hexValue? c) * 16 + (← Text.hexValue? d)
  pure (high * 256 + low)

/-- A character of a string, or a code unit given by number. -/
inductive StringUnit where
  | char (c : Char)
  | code (n : Nat)
  deriving DecidableEq, Repr

/-- The character of a one-letter escape. -/
def simpleEscape? (c : Char) : Option Char :=
  match c with
  | '\"' => some '\"'
  | '\\' => some '\\'
  | '/' => some '/'
  | 'b' => some '\x08'
  | 'f' => some '\x0c'
  | 'n' => some '\n'
  | 'r' => some '\r'
  | 't' => some '\t'
  | _ => none

/-- The units of a string up to its closing quote, and the text after the quote. -/
def readUnits? : List Char → Option (List StringUnit × List Char)
  | [] => none
  | '\"' :: rest => some ([], rest)
  | '\\' :: 'u' :: a :: b :: c :: d :: rest => do
      let n ← hexValue4? a b c d
      let (units, rest) ← readUnits? rest
      pure (.code n :: units, rest)
  | '\\' :: e :: rest => do
      let c ← simpleEscape? e
      let (units, rest) ← readUnits? rest
      pure (.char c :: units, rest)
  | c :: rest =>
      if c.toNat < 0x20 ∨ c = '\\' then none
      else do
        let (units, rest) ← readUnits? rest
        pure (.char c :: units, rest)

/-- Whether a code unit is the first of a pair. -/
def isHighSurrogate (n : Nat) : Bool :=
  0xD800 ≤ n && n ≤ 0xDBFF

/-- Whether a code unit is the second of a pair. -/
def isLowSurrogate (n : Nat) : Bool :=
  0xDC00 ≤ n && n ≤ 0xDFFF

/-- The characters of units, unless a surrogate stands alone. -/
def charsOfUnits? : List StringUnit → Option (List Char)
  | [] => some []
  | .char c :: units => (charsOfUnits? units).map (c :: ·)
  | .code high :: .code low :: units =>
      if isHighSurrogate high then
        if isLowSurrogate low then
          (charsOfUnits? units).map
            (Char.ofNat (0x10000 + (high - 0xD800) * 0x400 + (low - 0xDC00)) :: ·)
        else none
      else if isLowSurrogate high then none
      else (charsOfUnits? (.code low :: units)).map (Char.ofNat high :: ·)
  | .code n :: units =>
      if isHighSurrogate n || isLowSurrogate n then none
      else (charsOfUnits? units).map (Char.ofNat n :: ·)

/-- A string after its opening quote, and the text after its closing quote. -/
def readString? (text : List Char) : Option (Option String × List Char) :=
  (readUnits? text).map fun (units, rest) => ((charsOfUnits? units).map String.ofList, rest)

/-- The value of decimal digits. -/
def digitsValue (digits : List Char) : Nat :=
  digits.foldl (fun n c => 10 * n + (c.toNat - 0x30)) 0

/-- The bound of the numbers of 64 bits. -/
def wordBound : Nat := 0x10000000000000000

/-- The first digits that fit into 64 bits, as a number, and the digits after them. -/
def takeWord (number : Nat) : List Char → Nat × List Char
  | [] => (number, [])
  | c :: digits =>
      let next := 10 * number + (c.toNat - 0x30)
      if next < wordBound then takeWord next digits else (number, c :: digits)

/-- A natural number rounded to 53 significant bits, a half to the even neighbour. -/
def roundToDouble (n : Nat) : Nat :=
  if n < 0x20000000000000 then n
  else
    let unit := 1 <<< (n.log2 - 52)
    let quotient := n / unit
    let twice := 2 * (n % unit)
    if twice < unit ∨ (twice = unit ∧ quotient % 2 = 0) then quotient * unit
    else (quotient + 1) * unit

/-- Whether `significand * 10 ^ exponent` is beyond all doubles. The two factors are rounded to
doubles first; powers of ten above `1e308` are no doubles. -/
def overflows (significand : Nat) (exponent : Int) : Bool :=
  if significand = 0 ∨ exponent < 0 then false
  else if 308 < exponent then true
  else
    Decimal.doubleBound ≤ roundToDouble significand * roundToDouble (Nat.pow 10 exponent.toNat)

/-- The parts of a number that is no integer: the digits before and after the point, and the
exponent. Digits beyond 64 bits only count for the exponent. -/
def floatingNumber (whole fraction : List Char) (exponent : Int) : Number :=
  let (significand, dropped) := takeWord 0 whole
  let (significand, ignored) := takeWord significand fraction
  if overflows significand (exponent + dropped.length - (fraction.length - ignored.length : Nat))
  then .tooLarge
  else .floating

/-- The number of digits without point and exponent. A negative zero is no integer. -/
def integerNumber (negative : Bool) (digits : List Char) : Number :=
  let n := digitsValue digits
  if negative then
    if n ≠ 0 ∧ n ≤ 0x8000000000000000 then .integer (-(n : Int)) else floatingNumber digits [] 0
  else if n < wordBound then .integer n
  else floatingNumber digits [] 0

/-- The digits at the beginning of a text, at least one, and the text after them. -/
def readDigits? (text : List Char) : Option (List Char × List Char) :=
  match text.takeWhile Char.isDigit with
  | [] => none
  | digits => some (digits, text.dropWhile Char.isDigit)

/-- The digits before the point; a zero must stand alone. -/
def readWhole? (text : List Char) : Option (List Char × List Char) := do
  let (digits, rest) ← readDigits? text
  if digits.head? = some '0' ∧ digits.length ≠ 1 then none else pure (digits, rest)

/-- The digits after the point, if there is one. -/
def readFraction? : List Char → Option (List Char × List Char)
  | '.' :: rest => readDigits? rest
  | rest => some ([], rest)

/-- The signed number of an exponent. -/
def readSigned? : List Char → Option (Int × List Char)
  | '-' :: rest => (readDigits? rest).map fun (digits, rest) => (-(digitsValue digits : Int), rest)
  | '+' :: rest => (readDigits? rest).map fun (digits, rest) => (digitsValue digits, rest)
  | rest => (readDigits? rest).map fun (digits, rest) => (digitsValue digits, rest)

/-- The exponent, if there is one. -/
def readExponent? : List Char → Option (Option Int × List Char)
  | 'e' :: rest | 'E' :: rest =>
      (readSigned? rest).map fun (exponent, rest) => (some exponent, rest)
  | rest => some (none, rest)

/-- The digits, point and exponent of a number, and the text after them. -/
def readUnsigned? (negative : Bool) (text : List Char) : Option (Number × List Char) := do
  let (whole, rest) ← readWhole? text
  let (fraction, rest) ← readFraction? rest
  let (exponent, rest) ← readExponent? rest
  if fraction.isEmpty ∧ exponent.isNone then pure (integerNumber negative whole, rest)
  else pure (floatingNumber whole fraction (exponent.getD 0), rest)

/-- A number and the text after it. -/
def readNumber? : List Char → Option (Number × List Char)
  | '-' :: rest => readUnsigned? true rest
  | text => readUnsigned? false text

namespace Document

/-- A word, a string or a number at the beginning of a text, and the text after it. -/
def readScalar : List Char → Document × Option (List Char)
  | 'n' :: 'u' :: 'l' :: 'l' :: rest => (.null, some rest)
  | 't' :: 'r' :: 'u' :: 'e' :: rest => (.bool true, some rest)
  | 'f' :: 'a' :: 'l' :: 's' :: 'e' :: rest => (.bool false, some rest)
  | '\"' :: rest =>
      match readString? rest with
      | some (text, rest) => (.str text, some rest)
      | none => (.broken, none)
  | text =>
      match readNumber? text with
      | some (number, rest) => (.num number, some rest)
      | none => (.broken, none)

mutual

/-- A value at the beginning of a text, and the text after it unless the value has a break. Two
steps of `fuel` are enough for each character. -/
def readValue : Nat → List Char → Document × Option (List Char)
  | 0, _ => (.broken, none)
  | fuel + 1, text =>
      match skipSpace text with
      | '[' :: rest =>
          match skipSpace rest with
          | ']' :: rest => (.arr [] true, some rest)
          | rest =>
              let (items, rest) := readItems fuel rest
              (.arr items rest.isSome, rest)
      | '\x7b' :: rest =>
          match skipSpace rest with
          | '\x7d' :: rest => (.obj [] true, some rest)
          | rest =>
              let (members, rest) := readMembers fuel rest
              (.obj members rest.isSome, rest)
      | rest => readScalar rest

/-- The items of an array up to its closing bracket, at least one. -/
def readItems : Nat → List Char → List Document × Option (List Char)
  | 0, _ => ([], none)
  | fuel + 1, text =>
      match readValue fuel text with
      | (item, none) => ([item], none)
      | (item, some rest) =>
          match skipSpace rest with
          | ']' :: rest => ([item], some rest)
          | ',' :: rest =>
              let (items, rest) := readItems fuel rest
              (item :: items, rest)
          | _ => ([item], none)

/-- The members of an object up to its closing brace, at least one. -/
def readMembers : Nat → List Char → List (Option String × Document) × Option (List Char)
  | 0, _ => ([], none)
  | fuel + 1, text =>
      match skipSpace text with
      | '\"' :: rest =>
          match readString? rest with
          | none => ([], none)
          | some (key, rest) =>
              match skipSpace rest with
              | ':' :: rest =>
                  match readValue fuel rest with
                  | (value, none) => ([(key, value)], none)
                  | (value, some rest) =>
                      match skipSpace rest with
                      | '\x7d' :: rest => ([(key, value)], some rest)
                      | ',' :: rest =>
                          let (members, rest) := readMembers fuel rest
                          ((key, value) :: members, rest)
                      | _ => ([(key, value)], none)
              | _ => ([(key, .broken)], none)
      | _ => ([], none)

end

/-- The document of a text, and whether the text is one value with nothing but blanks around it. -/
def read (text : List Char) : Document × Bool :=
  match readValue (2 * text.length + 2) text with
  | (document, some rest) => (document, (skipSpace rest).isEmpty)
  | (document, none) => (document, false)

mutual

/-- Whether a document has no break. -/
def isWhole : Document → Bool
  | broken => false
  | arr items closed => closed && allWhole items
  | obj members closed => closed && allWholeMembers members
  | _ => true

/-- Whether no document of a list has a break. -/
def allWhole : List Document → Bool
  | [] => true
  | item :: items => item.isWhole && allWhole items

/-- Whether no value of a list of members has a break. -/
def allWholeMembers : List (Option String × Document) → Bool
  | [] => true
  | (_, value) :: members => value.isWhole && allWholeMembers members

end

end Document

end SchemaGate.Json
