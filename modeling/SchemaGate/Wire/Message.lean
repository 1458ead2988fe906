import SchemaGate.Wire.Field

/-!
# Messages on the wire

A message is read by folding its fields into a value. Fields of known numbers must have the right
kind of payload, also where their content is of no use and dropped; fields of unknown numbers are
passed over. Every message inside another one, and every group passed over, takes one level of
`room`.
-/

namespace SchemaGate.Wire

/-- How many messages and groups may be nested inside one another. -/
def maxLevels : Nat := 100

/-- A field that is known by its number, and how its payload is put into the value read so far. -/
structure KnownField (α : Type) where
  number : Nat
  put : α → Payload → Option α

namespace KnownField

/-- The known field whose payload is read on its own before it is put into the value. -/
def ofReader {α β : Type} (number : Nat) (read : Payload → Option β) (put : α → β → α) :
    KnownField α where
  number
  put := fun value payload => (read payload).map (put value)

end KnownField

/-- Reads a signed number of 32 bits: the low bits of an integer of variable length. -/
def int32? : Payload → Option Int32
  | .varint value => some (Int32.ofNat value)
  | _ => none

/-- Reads a truth value, which is any integer but zero. -/
def bool? : Payload → Option Bool
  | .varint value => some (value != 0)
  | _ => none

/-- Reads a text, which must be UTF-8. -/
def text? : Payload → Option String
  | .bytes content => Text.Utf8.decode? content
  | _ => none

/-- Reads an integer of variable length. -/
def integer? : Payload → Option Nat
  | .varint value => some value
  | _ => none

/-- Reads integers of variable length up to the end of the bytes. -/
def readIntegers? (bytes : List UInt8) : Option (List Nat) :=
  if bytes.isEmpty then some []
  else
    match h : readVarint? bytes with
    | none => none
    | some (value, rest) =>
        have := readVarint?_length_lt h
        (readIntegers? rest).map (value :: ·)
termination_by bytes.length

/-- Reads a payload of a field with several integers: one of them, or some in one run of bytes. -/
def integers? : Payload → Option (List Nat)
  | .varint value => some [value]
  | .bytes content => readIntegers? content
  | _ => none

/-- Reads eight bytes. -/
def eightBytes? : Payload → Option Unit
  | .eightBytes => some ()
  | _ => none

/-- Reads bytes. -/
def bytes? : Payload → Option (List UInt8)
  | .bytes content => some content
  | _ => none

/-- Reads a message inside another one, for which there must be room. -/
def inner? {α : Type} (read : Nat → List UInt8 → Option α) : (room : Nat) → Payload → Option α
  | room + 1, .bytes content => read room content
  | _, _ => none

/-- The field of a number whose payload is read and dropped. -/
def dropped {α β : Type} (number : Nat) (read : Payload → Option β) : KnownField α :=
  .ofReader number read fun value _ => value

/-- Puts one field into a value. -/
def putField {α : Type} (known : List (KnownField α)) (room : Nat) (value : α) (field : Field) :
    Option α :=
  match known.find? fun candidate => candidate.number = field.1 with
  | some candidate => candidate.put value field.2
  | none => if field.2.levels ≤ room then some value else none

/-- Reads a message with the given known fields into a value. -/
def readMessage {α : Type} (known : List (KnownField α)) (room : Nat) (blank : α)
    (bytes : List UInt8) : Option α := do
  (← fields? bytes).foldlM (putField known room) blank

end SchemaGate.Wire
