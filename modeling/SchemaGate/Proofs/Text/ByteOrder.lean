import Mathlib.Tactic.Common
import SchemaGate.Proofs.Text.Utf8

/-!
# The order of bytes

Texts are compared character by character, and it comes to the same to compare their UTF-8 bytes:
a greater character has greater bytes, whatever follows it (`utf8EncodeChar_append_lt`). The main
statement is `lt_iff_bytes_lt`.
-/

namespace SchemaGate.Text

/-- The UTF-8 bytes of a text. -/
def bytes (text : String) : List UInt8 :=
  Utf8.encode text.toList

namespace Utf8

/-- A byte made of a smaller number is smaller. -/
theorem ofNat_lt_ofNat_iff {m n : Nat} (hm : m < 256) (hn : n < 256) :
    UInt8.ofNat m < UInt8.ofNat n ↔ m < n := by
  rw [UInt8.lt_iff_toNat_lt, toNat_ofNat hm, toNat_ofNat hn]

/-- A byte is made of one number only. -/
theorem ofNat_eq_ofNat_iff {m n : Nat} (hm : m < 256) (hn : n < 256) :
    UInt8.ofNat m = UInt8.ofNat n ↔ m = n := by
  rw [← UInt8.toNat_inj, toNat_ofNat hm, toNat_ofNat hn]

/-- Of two numbers to base 64 the one with the smaller rest is smaller, or the rest is the same and
its last digit is smaller. -/
theorem digit_lt {m n : Nat} (h : m < n) :
    m / 64 < n / 64 ∨ m / 64 = n / 64 ∧ m % 64 < n % 64 := by
  omega

/-- The first digit to base 64 in which two numbers of at most four digits differ decides. -/
theorem digits_lt {v w : Nat} (h : v < w) :
    v / 262144 < w / 262144 ∨ v / 262144 = w / 262144 ∧
      (v / 4096 % 64 < w / 4096 % 64 ∨ v / 4096 % 64 = w / 4096 % 64 ∧
        (v / 64 % 64 < w / 64 % 64 ∨ v / 64 % 64 = w / 64 % 64 ∧ v % 64 < w % 64)) := by
  rcases digit_lt h with hrest | ⟨hrest, hlast⟩
  · rcases digit_lt hrest with hfirst | ⟨hfirst, hmiddle⟩
    · rcases digit_lt hfirst with hlead | ⟨hlead, hsecond⟩
      · omega
      · omega
    · omega
  · omega

/-- The bytes of a greater character are greater, whatever follows them. -/
theorem utf8EncodeChar_append_lt {c d : Char} (h : c < d) (rest others : List UInt8) :
    String.utf8EncodeChar c ++ rest < String.utf8EncodeChar d ++ others := by
  have hlt : c.val.toNat < d.val.toNat := h
  have hvalid : d.val.toNat < 0xD800 ∨ 0xDFFF < d.val.toNat ∧ d.val.toNat < 0x110000 := d.valid
  unfold String.utf8EncodeChar
  generalize c.val.toNat = v at hlt
  generalize d.val.toNat = w at hlt hvalid
  have hdigits := digits_lt hlt
  have hv : v / 262144 % 8 = v / 262144 := Nat.mod_eq_of_lt (by omega)
  have hw : w / 262144 % 8 = w / 262144 := Nat.mod_eq_of_lt (by omega)
  dsimp only
  -- Sequences of different lengths differ in the first byte, and those of one length where the
  -- numbers differ for the first time.
  split_ifs
  all_goals
    simp (disch := omega) only [List.cons_append, List.nil_append, List.cons_lt_cons_iff,
      ofNat_lt_ofNat_iff, ofNat_eq_ofNat_iff]
    omega

/-- The bytes of a greater text are greater. -/
theorem encode_lt_encode {text other : List Char} (h : text < other) :
    encode text < encode other := by
  induction h with
  | @nil c rest =>
      have hpositive : encode (c :: rest) ≠ [] := by
        rw [encode, List.flatMap_cons]
        exact List.append_ne_nil_of_left_ne_nil String.utf8EncodeChar_ne_nil _
      cases hbytes : encode (c :: rest) with
      | nil => exact absurd hbytes hpositive
      | cons byte bytes => exact List.nil_lt_cons byte bytes
  | rel h =>
      rw [encode, encode, List.flatMap_cons, List.flatMap_cons]
      exact utf8EncodeChar_append_lt h _ _
  | cons _ ih =>
      rw [encode, encode, List.flatMap_cons, List.flatMap_cons]
      exact List.append_left_lt ih

end Utf8

/-- Texts are in the order of their bytes. -/
theorem lt_iff_bytes_lt {text other : String} : text < other ↔ bytes text < bytes other := by
  refine ⟨Utf8.encode_lt_encode, fun h => ?_⟩
  by_contra hnot
  by_cases hgt : other < text
  · exact List.lt_asymm h (Utf8.encode_lt_encode hgt)
  · obtain rfl : text = other := String.le_antisymm (String.not_lt.1 hgt) (String.not_lt.1 hnot)
    exact List.lt_irrefl _ h

end SchemaGate.Text
