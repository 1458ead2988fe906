/-!
# UTF-8

`Utf8.decode` reads bytes as text or tells where they stop being UTF-8. A sequence is described by
its first byte: the bits it contributes and the ranges in which the bytes after it must lie, so that
overlong sequences, surrogates and numbers beyond the last character are ruled out by the ranges
alone.
-/

namespace SchemaGate.Text.Utf8

/-- Where bytes stop being UTF-8: at a byte that cannot follow the `length` bytes of a sequence
begun at `index` (one byte if it cannot begin a sequence), or at the end inside a sequence. -/
inductive Fault where
  | invalid (length index : Nat)
  | incomplete (index : Nat)
  deriving DecidableEq, Repr

/-- The fault in words. -/
def Fault.message : Fault → String
  | invalid length index =>
      "invalid utf-8 sequence of " ++ toString length ++ " bytes from index " ++ toString index
  | incomplete index => "incomplete utf-8 byte sequence from index " ++ toString index

/-- The range of most bytes after the first byte of a sequence. -/
def continuation : Nat × Nat := (0x80, 0xBF)

/-- The bits of a first byte and the ranges of the bytes that follow it. -/
def lead? (byte : Nat) : Option (Nat × List (Nat × Nat)) :=
  if byte < 0x80 then some (byte, [])
  else if byte < 0xC2 then none
  else if byte < 0xE0 then some (byte % 32, [continuation])
  else if byte = 0xE0 then some (byte % 16, [(0xA0, 0xBF), continuation])
  else if byte = 0xED then some (byte % 16, [(0x80, 0x9F), continuation])
  else if byte < 0xF0 then some (byte % 16, [continuation, continuation])
  else if byte = 0xF0 then some (byte % 8, [(0x90, 0xBF), continuation, continuation])
  else if byte < 0xF4 then some (byte % 8, [continuation, continuation, continuation])
  else if byte = 0xF4 then some (byte % 8, [(0x80, 0x8F), continuation, continuation])
  else none

/-- Reads bytes of which `count` belong to the sequence begun at `index`, whose bits so far are
`bits` and whose other bytes must lie in the given ranges. -/
def decodeFrom (index count bits : Nat) :
    List (Nat × Nat) → List UInt8 → Except Fault (List Char)
  | [], [] => .ok []
  | _ :: _, [] => .error (.incomplete index)
  | [], byte :: bytes =>
      match lead? byte.toNat with
      | none => .error (.invalid 1 index)
      | some (first, []) => (Char.ofNat first :: ·) <$> decodeFrom (index + 1) 0 0 [] bytes
      | some (first, ranges) => decodeFrom index 1 first ranges bytes
  | (low, high) :: ranges, byte :: bytes =>
      if low ≤ byte.toNat ∧ byte.toNat ≤ high then
        let bits := bits * 64 + byte.toNat % 64
        match ranges with
        | [] => (Char.ofNat bits :: ·) <$> decodeFrom (index + count + 1) 0 0 [] bytes
        | _ => decodeFrom index (count + 1) bits ranges bytes
      else .error (.invalid count index)

/-- The text of bytes. -/
def decode (bytes : List UInt8) : Except Fault (List Char) :=
  decodeFrom 0 0 0 [] bytes

/-- The text of bytes, if they are UTF-8. -/
def decode? (bytes : List UInt8) : Option String :=
  match decode bytes with
  | .ok text => some (String.ofList text)
  | .error _ => none

/-- The bytes of a text. -/
def encode (text : List Char) : List UInt8 :=
  text.flatMap String.utf8EncodeChar

end SchemaGate.Text.Utf8
