import SchemaGate.Text.Utf8

/-!
# Fields on the wire

A binary message is a run of fields, each a key and a payload. The key holds the field number and
the kind of payload: an integer of variable length, eight or four bytes, bytes with their length in
front, or a group of further fields. `fields?` cuts bytes into fields without knowing what the
message is. The main statement is `readVarint?_length_lt`: reading an integer uses up bytes.
-/

namespace SchemaGate.Wire

/-- What stands behind a key. The contents of fixed-size payloads are of no use to this library. -/
inductive Payload where
  | varint (value : Nat)
  | eightBytes
  | bytes (content : List UInt8)
  | group (fields : List (Nat × Payload))
  | fourBytes
  deriving Inhabited

/-- A field number with what stands behind it. -/
abbrev Field := Nat × Payload

namespace Payload

mutual

/-- How many levels of nesting it takes to pass over a payload. -/
def levels : Payload → Nat
  | group fields => levelsOfFields fields + 1
  | _ => 1

/-- How many levels of nesting it takes to pass over several fields. -/
def levelsOfFields : List (Nat × Payload) → Nat
  | [] => 0
  | (_, payload) :: fields => max payload.levels (levelsOfFields fields)

end

end Payload

/-- The bound of integers of variable length. -/
def varintBound : Nat := 0x10000000000000000

/-- Reads at most `most` further bytes of an integer, of which the first counts `scale`. Each byte
gives seven bits, low bits first, and its top bit says that another byte follows. -/
def readVarintDigits? (scale : Nat) : (most : Nat) → List UInt8 → Option (Nat × List UInt8)
  | 0, _ | _, [] => none
  | most + 1, byte :: bytes =>
      if byte.toNat < 128 then some (byte.toNat * scale, bytes)
      else do
        let (value, rest) ← readVarintDigits? (scale * 128) most bytes
        pure ((byte.toNat - 128) * scale + value, rest)

/-- Reads an integer of at most ten bytes and 64 bits. -/
def readVarint? (bytes : List UInt8) : Option (Nat × List UInt8) := do
  let (value, rest) ← readVarintDigits? 1 10 bytes
  if value < varintBound then pure (value, rest) else none

/-- Bytes without the first `count` ones, if there are so many. -/
def drop? (count : Nat) (bytes : List UInt8) : Option (List UInt8) :=
  if count ≤ bytes.length then some (bytes.drop count) else none

/-- The bound of keys. -/
def keyBound : Nat := 0x100000000

/-- Reads a key: the number of a field, at least one, and the kind of its payload. -/
def readKey? (bytes : List UInt8) : Option (Nat × Nat × List UInt8) := do
  let (key, rest) ← readVarint? bytes
  if key < keyBound ∧ 8 ≤ key then pure (key / 8, key % 8, rest) else none

mutual

/-- Reads the payload of a field of the given number and kind. -/
def readPayload? (number kind : Nat) : (fuel : Nat) → List UInt8 → Option (Payload × List UInt8)
  | 0, _ => none
  | fuel + 1, bytes =>
      match kind with
      | 0 => do
          let (value, rest) ← readVarint? bytes
          pure (.varint value, rest)
      | 1 => do pure (.eightBytes, ← drop? 8 bytes)
      | 2 => do
          let (length, rest) ← readVarint? bytes
          pure (.bytes (rest.take length), ← drop? length rest)
      | 3 => do
          let (fields, rest) ← readFields? (some number) fuel bytes
          pure (.group fields, rest)
      | 5 => do pure (.fourBytes, ← drop? 4 bytes)
      | _ => none

/-- Reads fields up to the end mark of the group of a number, or up to the end of the bytes. -/
def readFields? (group : Option Nat) :
    (fuel : Nat) → List UInt8 → Option (List Field × List UInt8)
  | 0, _ => none
  | fuel + 1, bytes =>
      if bytes.isEmpty then if group.isNone then some ([], []) else none
      else do
        let (number, kind, rest) ← readKey? bytes
        if kind = 4 then
          if group = some number then pure ([], rest) else none
        else
          let (payload, rest) ← readPayload? number kind fuel rest
          let (fields, rest) ← readFields? group fuel rest
          pure ((number, payload) :: fields, rest)

end

/-- The fields of a message. Each level of the reader uses up a byte, which bounds the steps. -/
def fields? (bytes : List UInt8) : Option (List Field) := do
  let (fields, _) ← readFields? none (2 * bytes.length + 2) bytes
  pure fields

/-- Reading an integer uses up at least one byte. -/
theorem readVarint?_length_lt {bytes rest : List UInt8} {value : Nat}
    (h : readVarint? bytes = some (value, rest)) : rest.length < bytes.length := by
  have hdigits : ∀ (most scale value : Nat) (bytes rest : List UInt8),
      readVarintDigits? scale most bytes = some (value, rest) → rest.length < bytes.length := by
    intro most
    induction most with
    | zero => intro scale value bytes rest h; simp [readVarintDigits?] at h
    | succ most ih =>
        intro scale value bytes rest h
        cases bytes with
        | nil => simp [readVarintDigits?] at h
        | cons byte bytes =>
            rw [readVarintDigits?] at h
            split at h
            · cases h; simp
            · simp only [Option.bind_eq_bind, Option.bind_eq_some_iff] at h
              obtain ⟨⟨tail, after⟩, htail, heq⟩ := h
              have := ih _ _ _ _ htail
              cases heq
              simp only [List.length_cons]
              omega
  unfold readVarint? at h
  simp only [Option.bind_eq_bind, Option.bind_eq_some_iff] at h
  obtain ⟨⟨read, after⟩, hread, h⟩ := h
  split at h
  · cases h; exact hdigits _ _ _ _ _ hread
  · simp at h

end SchemaGate.Wire
