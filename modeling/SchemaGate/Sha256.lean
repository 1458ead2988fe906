import SchemaGate.Text.Hex

/-!
# SHA-256

The digest of a message. The message is padded to whole blocks of sixteen words, and each block is
mixed into a state of eight words by sixty-four rounds. The main statement is `length_padding`: a
padded message consists of whole blocks.
-/

namespace SchemaGate.Sha256

/-- The eight words of a state. -/
structure State where
  a : UInt32
  b : UInt32
  c : UInt32
  d : UInt32
  e : UInt32
  f : UInt32
  g : UInt32
  h : UInt32

namespace State

/-- The state before the first block: the fractions of the square roots of the first eight primes.
-/
def start : State :=
  ⟨0x6a09e667, 0xbb67ae85, 0x3c6ef372, 0xa54ff53a, 0x510e527f, 0x9b05688c, 0x1f83d9ab, 0x5be0cd19⟩

/-- The sum of two states, word by word. -/
def add (x y : State) : State :=
  ⟨x.a + y.a, x.b + y.b, x.c + y.c, x.d + y.d, x.e + y.e, x.f + y.f, x.g + y.g, x.h + y.h⟩

/-- The words of a state in order. -/
def words (state : State) : List UInt32 :=
  [state.a, state.b, state.c, state.d, state.e, state.f, state.g, state.h]

end State

/-- The round constants: the fractions of the cube roots of the first sixty-four primes. -/
def constants : List UInt32 :=
  [0x428a2f98, 0x71374491, 0xb5c0fbcf, 0xe9b5dba5, 0x3956c25b, 0x59f111f1, 0x923f82a4, 0xab1c5ed5,
   0xd807aa98, 0x12835b01, 0x243185be, 0x550c7dc3, 0x72be5d74, 0x80deb1fe, 0x9bdc06a7, 0xc19bf174,
   0xe49b69c1, 0xefbe4786, 0x0fc19dc6, 0x240ca1cc, 0x2de92c6f, 0x4a7484aa, 0x5cb0a9dc, 0x76f988da,
   0x983e5152, 0xa831c66d, 0xb00327c8, 0xbf597fc7, 0xc6e00bf3, 0xd5a79147, 0x06ca6351, 0x14292967,
   0x27b70a85, 0x2e1b2138, 0x4d2c6dfc, 0x53380d13, 0x650a7354, 0x766a0abb, 0x81c2c92e, 0x92722c85,
   0xa2bfe8a1, 0xa81a664b, 0xc24b8b70, 0xc76c51a3, 0xd192e819, 0xd6990624, 0xf40e3585, 0x106aa070,
   0x19a4c116, 0x1e376c08, 0x2748774c, 0x34b0bcb5, 0x391c0cb3, 0x4ed8aa4a, 0x5b9cca4f, 0x682e6ff3,
   0x748f82ee, 0x78a5636f, 0x84c87814, 0x8cc70208, 0x90befffa, 0xa4506ceb, 0xbef9a3f7, 0xc67178f2]

/-- A word rotated to the right. -/
def rotate (word amount : UInt32) : UInt32 :=
  (word >>> amount) ||| (word <<< (32 - amount))

/-- The words of a message in rounds, from its first words and the number of words to come. Each new
word is made of four of the sixteen before it. -/
def schedule : (count : Nat) → List UInt32 → List UInt32
  | count + 1, first :: second :: others =>
      let ninth := others.getD 7 0
      let last := others.getD 12 0
      let low := rotate second 7 ^^^ rotate second 18 ^^^ (second >>> 3)
      let high := rotate last 17 ^^^ rotate last 19 ^^^ (last >>> 10)
      first :: schedule count (second :: others ++ [first + low + ninth + high])
  | _, words => words

/-- One round with a round constant and a word of the message. -/
def round (state : State) (input : UInt32 × UInt32) : State :=
  let ⟨a, b, c, d, e, f, g, h⟩ := state
  let choice := (e &&& f) ^^^ (~~~e &&& g)
  let majority := (a &&& b) ^^^ (a &&& c) ^^^ (b &&& c)
  let first := h + (rotate e 6 ^^^ rotate e 11 ^^^ rotate e 25) + choice + input.1 + input.2
  let second := (rotate a 2 ^^^ rotate a 13 ^^^ rotate a 22) + majority
  ⟨first + second, a, b, c, d + first, e, f, g⟩

/-- Mixes a block of sixteen words into a state. -/
def compress (state : State) (block : List UInt32) : State :=
  ((constants.zip (schedule 48 block)).foldl round state).add state

/-- Mixes a number of blocks into a state. -/
def compressBlocks : (count : Nat) → State → List UInt32 → State
  | 0, state, _ => state
  | count + 1, state, words =>
      compressBlocks count (compress state (words.take 16)) (words.drop 16)

/-- The bytes of a number, most significant first. -/
def bigEndian : (count : Nat) → Nat → List UInt8
  | 0, _ => []
  | count + 1, n => bigEndian count (n / 256) ++ [UInt8.ofNat (n % 256)]

/-- The words of bytes, most significant byte first. -/
def wordsOfBytes : List UInt8 → List UInt32
  | a :: b :: c :: d :: rest =>
      (a.toUInt32 <<< 24 ||| b.toUInt32 <<< 16 ||| c.toUInt32 <<< 8 ||| d.toUInt32) ::
        wordsOfBytes rest
  | _ => []

/-- What is added to a message of a number of bytes: a single bit, zeros, and the number of bits. -/
def padding (length : Nat) : List UInt8 :=
  0x80 :: List.replicate ((119 - length % 64) % 64) 0 ++ bigEndian 8 (8 * length)

/-- The digest of a message. -/
def digest (message : List UInt8) : List UInt8 :=
  let words := wordsOfBytes (message ++ padding message.length)
  (compressBlocks (words.length / 16) .start words).words.flatMap fun word =>
    bigEndian 4 word.toNat

/-- The digest of a message in hexadecimal digits. -/
def digestText (message : List UInt8) : String :=
  Text.hexText (digest message)

/-- A number is written in as many bytes as asked for. -/
@[simp] theorem length_bigEndian (count n : Nat) : (bigEndian count n).length = count := by
  induction count generalizing n with
  | zero => rfl
  | succ count ih => simp [bigEndian, ih]

/-- A padded message consists of whole blocks. -/
theorem length_padding (length : Nat) : 64 ∣ length + (padding length).length := by
  simp only [padding, List.cons_append, List.length_cons, List.length_append,
    List.length_replicate, length_bigEndian]
  omega

end SchemaGate.Sha256
