import Mathlib.Tactic.Common
import SchemaGate.Text.Utf8

/-!
# Texts survive UTF-8

Every character is written as one to four bytes, which the reader takes for this character and
nothing else. `lead?_two`, `exists_lead?_three` and `exists_lead?_four` say what the reader expects
after the first byte. The main statement is `decode_encode`.
-/

namespace SchemaGate.Text.Utf8

section Leads

variable {v : Nat}

/-- The first of two bytes. -/
theorem lead?_two (hlow : 0x80 ≤ v) (hhigh : v ≤ 0x7FF) :
    lead? (v / 64 % 32 + 0xC0) = some (v / 64, [continuation]) := by
  rw [lead?, if_neg (by omega), if_neg (by omega), if_pos (by omega)]
  have hbits : (v / 64 % 32 + 0xC0) % 32 = v / 64 := by omega
  rw [hbits]

/-- The first of three bytes. The second one lies in the range that is asked for, because the
character needs three bytes and is no surrogate. -/
theorem exists_lead?_three (hlow : 0x800 ≤ v) (hhigh : v ≤ 0xFFFF)
    (hchar : v < 0xD800 ∨ 0xDFFF < v) :
    ∃ low high, lead? (v / 4096 % 16 + 0xE0) = some (v / 4096, [(low, high), continuation]) ∧
      low ≤ v / 64 % 64 + 0x80 ∧ v / 64 % 64 + 0x80 ≤ high := by
  have hbits : (v / 4096 % 16 + 0xE0) % 16 = v / 4096 := by omega
  rw [lead?, if_neg (by omega), if_neg (by omega), if_neg (by omega), hbits]
  by_cases hfirst : v / 4096 % 16 + 0xE0 = 0xE0
  · rw [if_pos hfirst]
    exact ⟨_, _, rfl, by omega, by omega⟩
  · rw [if_neg hfirst]
    by_cases hsurrogates : v / 4096 % 16 + 0xE0 = 0xED
    · rw [if_pos hsurrogates]
      exact ⟨_, _, rfl, by omega, by omega⟩
    · rw [if_neg hsurrogates, if_pos (by omega)]
      exact ⟨_, _, rfl, by omega, by omega⟩

/-- The first of four bytes. The second one lies in the range that is asked for, because the
character needs four bytes and there is none beyond the last. -/
theorem exists_lead?_four (hlow : 0x10000 ≤ v) (hhigh : v < 0x110000) :
    ∃ low high, lead? (v / 262144 % 8 + 0xF0) =
        some (v / 262144, [(low, high), continuation, continuation]) ∧
      low ≤ v / 4096 % 64 + 0x80 ∧ v / 4096 % 64 + 0x80 ≤ high := by
  have hbits : (v / 262144 % 8 + 0xF0) % 8 = v / 262144 := by omega
  rw [lead?, if_neg (by omega), if_neg (by omega), if_neg (by omega), if_neg (by omega),
    if_neg (by omega), if_neg (by omega), hbits]
  by_cases hfirst : v / 262144 % 8 + 0xF0 = 0xF0
  · rw [if_pos hfirst]
    exact ⟨_, _, rfl, by omega, by omega⟩
  · rw [if_neg hfirst]
    by_cases hinner : v / 262144 % 8 + 0xF0 < 0xF4
    · rw [if_pos hinner]
      exact ⟨_, _, rfl, by omega, by omega⟩
    · rw [if_neg hinner, if_pos (by omega)]
      exact ⟨_, _, rfl, by omega, by omega⟩

end Leads

section Steps

variable {index count bits low high : Nat} {byte : UInt8} {bytes : List UInt8}

/-- The bytes of a sequence are taken one by one. -/
theorem decodeFrom_inner {next : Nat × Nat} {ranges : List (Nat × Nat)}
    (hlow : low ≤ byte.toNat) (hhigh : byte.toNat ≤ high) :
    decodeFrom index count bits ((low, high) :: next :: ranges) (byte :: bytes) =
      decodeFrom index (count + 1) (bits * 64 + byte.toNat % 64) (next :: ranges) bytes := by
  rw [decodeFrom, if_pos ⟨hlow, hhigh⟩]

/-- The last byte of a sequence completes the character. -/
theorem decodeFrom_last (hlow : low ≤ byte.toNat) (hhigh : byte.toNat ≤ high) :
    decodeFrom index count bits [(low, high)] (byte :: bytes) =
      (Char.ofNat (bits * 64 + byte.toNat % 64) :: ·) <$>
        decodeFrom (index + count + 1) 0 0 [] bytes := by
  rw [decodeFrom, if_pos ⟨hlow, hhigh⟩]

end Steps

/-- A byte made of a number below 256 has that number. -/
theorem toNat_ofNat {n : Nat} (h : n < 256) : (UInt8.ofNat n).toNat = n := by
  rw [UInt8.toNat_ofNat', Nat.mod_eq_of_lt h]

/-- The first byte of a sequence of several bytes says which bytes are expected. -/
theorem decodeFrom_lead {index first bits : Nat} {range : Nat × Nat} {ranges : List (Nat × Nat)}
    (hfirst : first < 256) (h : lead? first = some (bits, range :: ranges)) (bytes : List UInt8) :
    decodeFrom index 0 0 [] (UInt8.ofNat first :: bytes) =
      decodeFrom index 1 bits (range :: ranges) bytes := by
  rw [decodeFrom, toNat_ofNat hfirst, h]

section Characters

variable {index v : Nat} {bytes : List UInt8}

/-- A character of one byte is read. -/
theorem decodeFrom_one (hhigh : v ≤ 0x7F) :
    decodeFrom index 0 0 [] ([UInt8.ofNat v] ++ bytes) =
      (Char.ofNat v :: ·) <$> decodeFrom (index + 1) 0 0 [] bytes := by
  rw [List.singleton_append, decodeFrom, toNat_ofNat (by omega), lead?, if_pos (by omega)]

/-- A character of two bytes is read. -/
theorem decodeFrom_two (hlow : 0x80 ≤ v) (hhigh : v ≤ 0x7FF) :
    decodeFrom index 0 0 []
        ([UInt8.ofNat (v / 64 % 32 + 0xC0), UInt8.ofNat (v % 64 + 0x80)] ++ bytes) =
      (Char.ofNat v :: ·) <$> decodeFrom (index + 1 + 1) 0 0 [] bytes := by
  have hlead := lead?_two hlow hhigh
  have hsecond := toNat_ofNat (n := v % 64 + 0x80) (by omega)
  have hbits : v / 64 * 64 + (v % 64 + 0x80) % 64 = v := by omega
  rw [List.cons_append, List.singleton_append, decodeFrom_lead (by omega) hlead, continuation,
    decodeFrom_last (by omega) (by omega), hsecond, hbits]

/-- A character of three bytes is read. -/
theorem decodeFrom_three (hlow : 0x800 ≤ v) (hhigh : v ≤ 0xFFFF)
    (hchar : v < 0xD800 ∨ 0xDFFF < v) :
    decodeFrom index 0 0 []
        ([UInt8.ofNat (v / 4096 % 16 + 0xE0), UInt8.ofNat (v / 64 % 64 + 0x80),
          UInt8.ofNat (v % 64 + 0x80)] ++ bytes) =
      (Char.ofNat v :: ·) <$> decodeFrom (index + (1 + 1) + 1) 0 0 [] bytes := by
  obtain ⟨low, high, hlead, hsecondLow, hsecondHigh⟩ := exists_lead?_three hlow hhigh hchar
  have hsecond := toNat_ofNat (n := v / 64 % 64 + 0x80) (by omega)
  have hlast := toNat_ofNat (n := v % 64 + 0x80) (by omega)
  have hbits :
      (v / 4096 * 64 + (v / 64 % 64 + 0x80) % 64) * 64 + (v % 64 + 0x80) % 64 = v := by
    omega
  rw [List.cons_append, List.cons_append, List.singleton_append,
    decodeFrom_lead (by omega) hlead, decodeFrom_inner (by omega) (by omega), hsecond,
    continuation, decodeFrom_last (by omega) (by omega), hlast, hbits]

/-- A character of four bytes is read. -/
theorem decodeFrom_four (hlow : 0x10000 ≤ v) (hhigh : v < 0x110000) :
    decodeFrom index 0 0 []
        ([UInt8.ofNat (v / 262144 % 8 + 0xF0), UInt8.ofNat (v / 4096 % 64 + 0x80),
          UInt8.ofNat (v / 64 % 64 + 0x80), UInt8.ofNat (v % 64 + 0x80)] ++ bytes) =
      (Char.ofNat v :: ·) <$> decodeFrom (index + (1 + 1 + 1) + 1) 0 0 [] bytes := by
  obtain ⟨low, high, hlead, hsecondLow, hsecondHigh⟩ := exists_lead?_four hlow hhigh
  have hsecond := toNat_ofNat (n := v / 4096 % 64 + 0x80) (by omega)
  have hthird := toNat_ofNat (n := v / 64 % 64 + 0x80) (by omega)
  have hlast := toNat_ofNat (n := v % 64 + 0x80) (by omega)
  have hbits : ((v / 262144 * 64 + (v / 4096 % 64 + 0x80) % 64) * 64 +
      (v / 64 % 64 + 0x80) % 64) * 64 + (v % 64 + 0x80) % 64 = v := by
    omega
  rw [List.cons_append, List.cons_append, List.cons_append, List.singleton_append,
    decodeFrom_lead (by omega) hlead, decodeFrom_inner (by omega) (by omega), hsecond,
    continuation, decodeFrom_inner (by omega) (by omega), hthird,
    decodeFrom_last (by omega) (by omega), hlast, hbits]

end Characters

/-- The bytes of a character are read as the character. -/
theorem exists_decodeFrom_utf8EncodeChar (index : Nat) (c : Char) (bytes : List UInt8) :
    ∃ next, decodeFrom index 0 0 [] (String.utf8EncodeChar c ++ bytes) =
      (c :: ·) <$> decodeFrom next 0 0 [] bytes := by
  have hvalid : c.val.toNat < 0xD800 ∨ 0xDFFF < c.val.toNat ∧ c.val.toNat < 0x110000 := c.valid
  have hchar : Char.ofNat c.val.toNat = c := Char.ofNat_toNat c
  generalize hv : c.val.toNat = v at hvalid hchar
  unfold String.utf8EncodeChar
  rw [hv, ← hchar]
  dsimp only
  -- The number of the character decides how many bytes there are.
  by_cases hone : v ≤ 0x7F
  · rw [if_pos hone]
    exact ⟨_, decodeFrom_one hone⟩
  rw [if_neg hone]
  by_cases htwo : v ≤ 0x7FF
  · rw [if_pos htwo]
    exact ⟨_, decodeFrom_two (by omega) htwo⟩
  rw [if_neg htwo]
  by_cases hthree : v ≤ 0xFFFF
  · rw [if_pos hthree]
    exact ⟨_, decodeFrom_three (by omega) hthree (by omega)⟩
  · rw [if_neg hthree]
    exact ⟨_, decodeFrom_four (by omega) (by omega)⟩

/-- Reading the bytes of a text gives the text. -/
theorem decode_encode (text : List Char) : decode (encode text) = .ok text := by
  have hfrom : ∀ index, decodeFrom index 0 0 [] (encode text) = .ok text := by
    induction text with
    | nil => intro index; rfl
    | cons c text ih =>
        intro index
        obtain ⟨next, hnext⟩ := exists_decodeFrom_utf8EncodeChar index c (encode text)
        rw [encode, List.flatMap_cons, ← encode, hnext, ih next]
        rfl
  exact hfrom 0

end SchemaGate.Text.Utf8
