import Mathlib.Data.List.Basic
import Mathlib.Tactic.Common
import SchemaGate.Json.Document
import SchemaGate.Json.Pretty

/-!
# Written strings and numbers are read back

A string is escaped when it is written, and the reader undoes the escapes: `readString?_escape`. An
integer of 64 bits is written in decimal digits, and the reader takes these digits for the same
integer if what follows cannot belong to a number: `readNumber?_toString`.
-/

namespace SchemaGate.Json

section Strings

/-- The unit as which an escaped character is read. -/
def unitOfChar (c : Char) : StringUnit :=
  if c.toNat < 0x20 ∧ c ≠ '\n' ∧ c ≠ '\r' ∧ c ≠ '\t' ∧ c ≠ '\x08' ∧ c ≠ '\x0c' then .code c.toNat
  else .char c

/-- A backslash and the letter of a character are read as the character. -/
theorem readUnits?_simple {e d : Char} (he : simpleEscape? e = some d) (hu : e ≠ 'u')
    (rest : List Char) :
    readUnits? ('\\' :: e :: rest) =
      (readUnits? rest).map fun read => (.char d :: read.1, read.2) := by
  rw [readUnits?, he]
  · cases readUnits? rest <;> rfl
  · rintro a b c d tail rfl
    exact absurd rfl hu

/-- The four digits of a number below 256 are read as the number. -/
theorem hexValue4?_hexDigit {n : Nat} (h : n < 256) :
    hexValue4? '0' '0' (Text.hexDigit (n / 16)) (Text.hexDigit (n % 16)) = some n := by
  have hzero : Text.hexValue? '0' = some 0 := rfl
  have hhigh := Text.hexValue?_hexDigit (n := n / 16) (by omega)
  have hlow := Text.hexValue?_hexDigit (n := n % 16) (by omega)
  rw [hexValue4?, hzero, hhigh, hlow]
  show some (0 * 256 + (n / 16 * 16 + n % 16)) = _
  congr 1
  omega

/-- A character that needs no escape is read as itself. -/
theorem readUnits?_plain {c : Char} (hcontrol : ¬c.toNat < 0x20) (hquote : c ≠ '\"')
    (hslash : c ≠ '\\') (rest : List Char) :
    readUnits? (c :: rest) = (readUnits? rest).map fun read => (.char c :: read.1, read.2) := by
  rw [readUnits?, if_neg (by simp [hcontrol, hslash])]
  · cases readUnits? rest <;> rfl
  · exact hquote
  · exact fun _ _ _ _ _ h _ => hslash h
  · exact fun _ _ h _ => hslash h

/-- An escaped character is read as one unit. -/
theorem readUnits?_escapeChar (c : Char) (rest : List Char) :
    readUnits? (escapeChar c ++ rest) =
      (readUnits? rest).map fun read => (unitOfChar c :: read.1, read.2) := by
  unfold escapeChar
  by_cases hquote : c = '\"'
  · subst hquote
    exact readUnits?_simple rfl (by decide) rest
  by_cases hslash : c = '\\'
  · subst hslash
    exact readUnits?_simple rfl (by decide) rest
  by_cases hbreak : c = '\n'
  · subst hbreak
    exact readUnits?_simple rfl (by decide) rest
  by_cases hreturn : c = '\r'
  · subst hreturn
    exact readUnits?_simple rfl (by decide) rest
  by_cases htab : c = '\t'
  · subst htab
    exact readUnits?_simple rfl (by decide) rest
  by_cases hback : c = '\x08'
  · subst hback
    exact readUnits?_simple rfl (by decide) rest
  by_cases hfeed : c = '\x0c'
  · subst hfeed
    exact readUnits?_simple rfl (by decide) rest
  rw [if_neg hquote, if_neg hslash, if_neg hbreak, if_neg hreturn, if_neg htab, if_neg hback,
    if_neg hfeed]
  by_cases hcontrol : c.toNat < 0x20
  · have hcode : unitOfChar c = .code c.toNat :=
      if_pos ⟨hcontrol, hbreak, hreturn, htab, hback, hfeed⟩
    rw [if_pos hcontrol, hcode]
    simp only [List.cons_append, List.nil_append]
    rw [readUnits?, hexValue4?_hexDigit (by omega)]
    cases readUnits? rest <;> rfl
  · have hplain : unitOfChar c = .char c := if_neg fun h => hcontrol h.1
    rw [if_neg hcontrol, hplain, List.singleton_append, readUnits?_plain hcontrol hquote hslash]

/-- An escaped text is read up to the quote. -/
theorem readUnits?_escape (text rest : List Char) :
    readUnits? (escape text ++ '\"' :: rest) = some (text.map unitOfChar, rest) := by
  induction text with
  | nil => rfl
  | cons c text ih =>
      rw [escape, List.flatMap_cons, ← escape, List.append_assoc, readUnits?_escapeChar, ih]
      rfl

/-- The code of a control character is no surrogate and stands for the character. -/
theorem charsOfUnits?_code {n : Nat} (h : n < 0x20) (units : List StringUnit) :
    charsOfUnits? (.code n :: units) = (charsOfUnits? units).map (Char.ofNat n :: ·) := by
  have hhigh : isHighSurrogate n = false := by
    simp only [isHighSurrogate, Bool.and_eq_false_iff, decide_eq_false_iff_not]
    omega
  have hlow : isLowSurrogate n = false := by
    simp only [isLowSurrogate, Bool.and_eq_false_iff, decide_eq_false_iff_not]
    omega
  cases units with
  | nil => simp [charsOfUnits?, hhigh, hlow]
  | cons unit units => cases unit <;> simp [charsOfUnits?, hhigh, hlow]

/-- The units of a text stand for its characters. -/
theorem charsOfUnits?_map (text : List Char) : charsOfUnits? (text.map unitOfChar) = some text := by
  induction text with
  | nil => rfl
  | cons c text ih =>
      rw [List.map_cons, unitOfChar]
      split
      · rename_i hcontrol
        rw [charsOfUnits?_code hcontrol.1, ih, Char.ofNat_toNat]
        rfl
      · rw [charsOfUnits?, ih]
        rfl

/-- A written string is read back. -/
theorem readString?_escape (text rest : List Char) :
    readString? (escape text ++ '\"' :: rest) = some (some (String.ofList text), rest) := by
  rw [readString?, readUnits?_escape, Option.map_some]
  dsimp only
  rw [charsOfUnits?_map]
  rfl

end Strings

section Numbers

/-- What follows a number does not belong to it: no digit, point or exponent. -/
def EndsNumber (rest : List Char) : Prop :=
  ∀ c ∈ rest.head?, c.isDigit = false ∧ c ≠ '.' ∧ c ≠ 'e' ∧ c ≠ 'E'

/-- A text does not belong to a number if its first character does not. -/
theorem endsNumber_cons {c : Char} {rest : List Char}
    (h : c.isDigit = false ∧ c ≠ '.' ∧ c ≠ 'e' ∧ c ≠ 'E') : EndsNumber (c :: rest) := by
  intro first hfirst
  rw [← Option.some.inj hfirst]
  exact h

/-- The digits of a number are read up to what does not belong to it. -/
theorem readDigits?_toDigits (n : Nat) {rest : List Char} (h : EndsNumber rest) :
    readDigits? (Nat.toDigits 10 n ++ rest) = some (Nat.toDigits 10 n, rest) := by
  have hdigits : ∀ c ∈ Nat.toDigits 10 n, c.isDigit = true := fun c hc =>
    Nat.isDigit_of_mem_toDigits (by decide) (by decide) hc
  have hrest : rest.takeWhile Char.isDigit = [] ∧ rest.dropWhile Char.isDigit = rest := by
    cases rest with
    | nil => exact ⟨rfl, rfl⟩
    | cons c rest =>
        have hc := (h c rfl).1
        exact ⟨List.takeWhile_cons_of_neg (by simp [hc]), List.dropWhile_cons_of_neg (by simp [hc])⟩
  rw [readDigits?, List.takeWhile_append_of_pos hdigits, List.dropWhile_append_of_pos hdigits,
    hrest.1, hrest.2, List.append_nil]
  cases hn : Nat.toDigits 10 n with
  | nil => exact absurd hn Nat.toDigits_ne_nil
  | cons c digits => rfl

/-- The value of the digits of a number is the number. -/
theorem digitsValue_toDigits (n : Nat) : digitsValue (Nat.toDigits 10 n) = n := by
  exact Nat.ofDigitChars_ten_toDigits

/-- The digits of a number begin with a zero only if that is the only one. -/
theorem toDigits_eq_zero_of_head? {n : Nat} (h : (Nat.toDigits 10 n).head? = some '0') :
    Nat.toDigits 10 n = ['0'] := by
  by_cases hn : n < 10
  · rw [Nat.toDigits_of_lt_base hn] at h ⊢
    rw [List.head?_cons] at h
    rw [Option.some.inj h]
  · -- The digits before the last are those of a smaller number, which is not zero.
    have hlast := Nat.toDigits_of_base_le (b := 10) (n := n) (by decide) (by omega)
    rw [hlast, List.head?_append_of_ne_nil _ Nat.toDigits_ne_nil] at h
    have hfirst := digitsValue_toDigits (n / 10)
    rw [toDigits_eq_zero_of_head? h] at hfirst
    have hzero : digitsValue ['0'] = 0 := rfl
    omega
termination_by n

/-- The digits of a number are read as the digits of an integer. -/
theorem readUnsigned?_toDigits (negative : Bool) (n : Nat) {rest : List Char}
    (h : EndsNumber rest) :
    readUnsigned? negative (Nat.toDigits 10 n ++ rest) =
      some (integerNumber negative (Nat.toDigits 10 n), rest) := by
  have hwhole : readWhole? (Nat.toDigits 10 n ++ rest) = some (Nat.toDigits 10 n, rest) := by
    rw [readWhole?, readDigits?_toDigits n h]
    have halone : ¬((Nat.toDigits 10 n).head? = some '0' ∧ (Nat.toDigits 10 n).length ≠ 1) := by
      rintro ⟨hhead, hlength⟩
      rw [toDigits_eq_zero_of_head? hhead] at hlength
      exact hlength rfl
    exact if_neg halone
  have hfraction : readFraction? rest = some ([], rest) := by
    unfold readFraction?
    split
    · exact absurd rfl (h _ rfl).2.1
    · rfl
  have hexponent : readExponent? rest = some (none, rest) := by
    unfold readExponent?
    split
    · exact absurd rfl (h _ rfl).2.2.1
    · exact absurd rfl (h _ rfl).2.2.2
    · rfl
  rw [readUnsigned?, hwhole]
  show (readFraction? rest).bind _ = _
  rw [hfraction]
  show (readExponent? rest).bind _ = _
  rw [hexponent]
  rfl

/-- A natural number is written in its digits. -/
theorem toList_ofNat (n : Nat) : (toString (Int.ofNat n)).toList = Nat.toDigits 10 n :=
  Nat.toList_repr

/-- A negative number is written as a sign and the digits of its amount. -/
theorem toList_negSucc (n : Nat) :
    (toString (Int.negSucc n)).toList = '-' :: Nat.toDigits 10 (n + 1) := by
  show ("-" ++ (n + 1).repr).toList = _
  rw [String.toList_append, Nat.toList_repr]
  rfl

/-- A character that can begin a number: a sign or a digit. -/
def BeginsNumber (c : Char) : Prop :=
  c = '-' ∨ c.isDigit = true

instance (c : Char) : Decidable (BeginsNumber c) :=
  inferInstanceAs (Decidable (c = '-' ∨ c.isDigit = true))

/-- What begins a number is no character that cannot. -/
theorem BeginsNumber.ne {c d : Char} (h : BeginsNumber c) (hd : ¬BeginsNumber d) : c ≠ d := by
  intro heq
  exact hd (heq ▸ h)

/-- What begins a number is no blank. -/
theorem BeginsNumber.isSpace_eq_false {c : Char} (h : BeginsNumber c) : isSpace c = false := by
  simp only [isSpace, Bool.or_eq_false_iff, beq_eq_false_iff_ne]
  exact ⟨⟨⟨h.ne (by decide), h.ne (by decide)⟩, h.ne (by decide)⟩, h.ne (by decide)⟩

/-- The digits of a number begin with a digit. -/
theorem toDigits_eq_cons (n : Nat) :
    ∃ c digits, Nat.toDigits 10 n = c :: digits ∧ c.isDigit = true := by
  cases hdigits : Nat.toDigits 10 n with
  | nil => exact absurd hdigits Nat.toDigits_ne_nil
  | cons c digits =>
      have hmem : c ∈ Nat.toDigits 10 n := hdigits ▸ List.mem_cons_self
      exact ⟨c, digits, rfl, Nat.isDigit_of_mem_toDigits (by decide) (by decide) hmem⟩

/-- A written integer begins with a sign or a digit. -/
theorem toString_eq_cons (value : Int) :
    ∃ c tail, (toString value).toList = c :: tail ∧ BeginsNumber c := by
  cases value with
  | ofNat n =>
      obtain ⟨c, digits, hdigits, hc⟩ := toDigits_eq_cons n
      exact ⟨c, digits, by rw [toList_ofNat, hdigits], .inr hc⟩
  | negSucc n => exact ⟨'-', Nat.toDigits 10 (n + 1), toList_negSucc n, .inl rfl⟩

/-- A written integer of 64 bits is read back. -/
theorem readNumber?_toString {value : Int} (hlow : -0x8000000000000000 ≤ value)
    (hhigh : value < 0x10000000000000000) {rest : List Char} (h : EndsNumber rest) :
    readNumber? ((toString value).toList ++ rest) = some (.integer value, rest) := by
  cases value with
  | ofNat n =>
      have hsign : ∀ tail, Nat.toDigits 10 n ++ rest ≠ '-' :: tail := by
        obtain ⟨c, digits, hdigits, hc⟩ := toDigits_eq_cons n
        intro tail heq
        rw [hdigits, List.cons_append, List.cons.injEq] at heq
        rw [heq.1] at hc
        exact absurd hc (by decide)
      have hbound : n < wordBound := by
        have : (n : Int) < 0x10000000000000000 := hhigh
        unfold wordBound
        omega
      rw [toList_ofNat, readNumber?]
      · rw [readUnsigned?_toDigits false n h, integerNumber, digitsValue_toDigits]
        simp [hbound]
      · exact hsign
  | negSucc n =>
      have hbound : n + 1 ≠ 0 ∧ n + 1 ≤ 0x8000000000000000 := by omega
      rw [toList_negSucc, List.cons_append, readNumber?, readUnsigned?_toDigits true (n + 1) h,
        integerNumber, digitsValue_toDigits]
      show some ((if n + 1 ≠ 0 ∧ n + 1 ≤ 0x8000000000000000 then _ else _), rest) = _
      rw [if_pos hbound]
      rfl

end Numbers

end SchemaGate.Json
