import SchemaGate.Loading
import SchemaGate.Lock.Written
import SchemaGate.Proofs.Wire.Varint

/-!
# Telling the formats apart

Content is taken for a lock file if its first byte that is no blank is a brace. The text of a lock
file always is. A descriptor set begins with the key of a file, which happens to be a line feed, so
what counts is the length of the first file: it is mistaken for a lock file if that length is the
number of the brace. If the length is the number of a blank, what follows the length decides. The
main statements are `readFields?_fileEntry`, by which `fileEntry` writes what the reader takes for a
file, and `sniff_exact`.
-/

namespace SchemaGate

/-- A file at the beginning of a descriptor set: the key of the field, the length of the file and
its bytes. -/
def fileEntry (file : List UInt8) : List UInt8 :=
  0x0A :: Wire.varint file.length ++ file

/-- The bytes of a file are read back as those of the first field, whatever follows them. -/
theorem readPayload?_fileEntry {file : List UInt8} (h : file.length < Wire.varintBound)
    (fuel : Nat) (rest : List UInt8) :
    Wire.readPayload? 1 2 (fuel + 1) (Wire.varint file.length ++ file ++ rest) =
      some (.bytes file, rest) := by
  have hdrop : Wire.drop? file.length (file ++ rest) = some rest := by
    rw [Wire.drop?, if_pos (by simp), List.drop_left]
  simp only [Wire.readPayload?, List.append_assoc, Wire.readVarint?_varint h, hdrop,
    List.take_left, Option.bind_eq_bind, Option.bind_some, Option.pure_def]

/-- A file entry is read as the first field with the bytes of the file, before the fields that
follow it. -/
theorem readFields?_fileEntry {file : List UInt8} (h : file.length < Wire.varintBound)
    (fuel : Nat) (rest : List UInt8) :
    Wire.readFields? none (fuel + 2) (fileEntry file ++ rest) =
      (Wire.readFields? none (fuel + 1) rest).map fun read =>
        ((1, .bytes file) :: read.1, read.2) := by
  have hkey : Wire.readKey? (fileEntry file ++ rest) =
      some (1, 2, Wire.varint file.length ++ file ++ rest) := rfl
  rw [Wire.readFields?, if_neg (by simp [fileEntry]), hkey]
  simp only [Option.bind_eq_bind, Option.bind_some, Nat.reduceEqDiff, if_false,
    readPayload?_fileEntry h]
  cases hfields : Wire.readFields? none (fuel + 1) rest with
  | none => rfl
  | some read => rfl

/-- The numbers of the ASCII blanks. -/
def blankNumbers : List Nat := [9, 10, 12, 13, 32]

/-- A byte is a blank exactly when its number is that of one. -/
theorem isAsciiBlank_iff {byte : UInt8} :
    Text.isAsciiBlank byte = true ↔ byte.toNat ∈ blankNumbers := by
  simp only [Text.isAsciiBlank, blankNumbers, Bool.or_eq_true, beq_iff_eq, ← UInt8.toNat_inj,
    List.mem_cons, List.not_mem_nil, or_false]
  constructor
  · intro h
    change (((byte.toNat = 32 ∨ byte.toNat = 9) ∨ byte.toNat = 10) ∨ byte.toNat = 12) ∨
      byte.toNat = 13 at h
    omega
  · intro h
    change (((byte.toNat = 32 ∨ byte.toNat = 9) ∨ byte.toNat = 10) ∨ byte.toNat = 12) ∨
      byte.toNat = 13
    omega

namespace SchemaFormat

/-- A blank at the beginning is passed over. -/
theorem sniff_cons_blank {byte : UInt8} (h : Text.isAsciiBlank byte = true) (content : List UInt8) :
    sniff (byte :: content) = sniff content :=
  sniff_blanks (by simpa using h : ∀ other ∈ [byte], Text.isAsciiBlank other = true) content

/-- A byte at the beginning that is no blank decides. -/
theorem sniff_cons {byte : UInt8} (h : Text.isAsciiBlank byte = false) (content : List UInt8) :
    sniff (byte :: content) = .lock ↔ byte = 0x7B := by
  have hfirst : (byte :: content).find? (fun other => !Text.isAsciiBlank other) = some byte :=
    List.find?_cons_of_pos (by rw [h]; rfl)
  unfold sniff
  rw [hfirst]
  split
  · rename_i heq
    exact iff_of_true rfl (Option.some.inj heq)
  · rename_i hne
    exact iff_of_false nofun fun heq => hne (congrArg some heq)

/-- What does not look like a lock file is taken for a descriptor set. -/
theorem sniff_eq_descriptorSet_iff {content : List UInt8} :
    sniff content = .descriptorSet ↔ sniff content ≠ .lock := by
  unfold sniff
  split
  · exact iff_of_false nofun fun h => h rfl
  · exact iff_of_true rfl nofun

/-- The text of a lock file looks like one. -/
theorem sniff_text (lock : LockFile) : sniff (Text.Utf8.encode lock.text.toList) = .lock := by
  obtain ⟨rest, hrest⟩ : ∃ rest, lock.text.toList = '\x7b' :: rest := by
    rw [LockFile.text, Json.Value.pretty, String.toList_ofList, LockFile.toJson]
    exact ⟨_, rfl⟩
  have hbrace : Text.Utf8.encode lock.text.toList = 0x7B :: Text.Utf8.encode rest := by
    rw [hrest]
    rfl
  rw [hbrace, sniff_cons (by decide)]

/-- A file entry is taken for a lock file exactly when the length of the file is the number of the
brace, or that of a blank and what follows it is taken for a lock file. -/
theorem sniff_fileEntry_iff (file rest : List UInt8) :
    sniff (fileEntry file ++ rest) = .lock ↔
      file.length = 0x7B ∨ file.length ∈ blankNumbers ∧ sniff (file ++ rest) = .lock := by
  rw [fileEntry, List.cons_append, List.cons_append, sniff_cons_blank (by decide)]
  by_cases hshort : file.length < 128
  · have hbyte : (UInt8.ofNat file.length).toNat = file.length := by
      rw [UInt8.toNat_ofNat', Nat.mod_eq_of_lt (by omega)]
    rw [Wire.varint_of_lt hshort, List.append_assoc, List.singleton_append]
    by_cases hblank : file.length ∈ blankNumbers
    · have hother : file.length ≠ 0x7B := by
        intro heq
        rw [heq] at hblank
        exact absurd hblank (by decide)
      rw [sniff_cons_blank (isAsciiBlank_iff.2 (by rwa [hbyte])), or_iff_right hother,
        and_iff_right hblank]
    · have hdecides : Text.isAsciiBlank (UInt8.ofNat file.length) = false := by
        rw [← Bool.not_eq_true, isAsciiBlank_iff, hbyte]
        exact hblank
      rw [sniff_cons hdecides, ← UInt8.toNat_inj, hbyte]
      exact (or_iff_left fun h => hblank h.1).symm
  · -- The first byte of a longer length is neither a blank nor a brace.
    have hbyte : (UInt8.ofNat (file.length % 128 + 128)).toNat = file.length % 128 + 128 := by
      rw [UInt8.toNat_ofNat', Nat.mod_eq_of_lt (by omega)]
    have hblank : file.length ∉ blankNumbers := by
      simp only [blankNumbers, List.mem_cons, List.not_mem_nil, or_false]
      omega
    have hdecides : Text.isAsciiBlank (UInt8.ofNat (file.length % 128 + 128)) = false := by
      rw [← Bool.not_eq_true, isAsciiBlank_iff, hbyte]
      simp only [blankNumbers, List.mem_cons, List.not_mem_nil, or_false]
      omega
    rw [Wire.varint_of_le (by omega), List.append_assoc, List.cons_append, sniff_cons hdecides,
      ← UInt8.toNat_inj, hbyte]
    change file.length % 128 + 128 = 123 ↔ _
    refine iff_of_false (by omega) ?_
    rintro (hlength | ⟨hmem, -⟩)
    · omega
    · exact hblank hmem

end SchemaFormat

/-- Loading in the format that is found is loading without a given format. -/
theorem Loader.ofBytes_auto (validate : Bool) (bytes : List UInt8) :
    ofBytes ⟨.auto, validate⟩ bytes = ofBytes ⟨.sniff bytes, validate⟩ bytes := by
  have hsniffed : (SchemaFormat.sniff bytes).orSniffed bytes = SchemaFormat.sniff bytes := by
    unfold SchemaFormat.sniff
    split <;> rfl
  rw [ofBytes, ofBytes, treeOfBytes, treeOfBytes, hsniffed]
  rfl

/-- Every text of a lock file is found to be one. What begins with a file entry is found to be a
descriptor set exactly when the length of the file is not the number of the brace and, if it is that
of a blank, what follows the length looks like a descriptor set as well. Content that is loaded
without a given format is loaded in the format that is found. -/
theorem sniff_exact (lock : LockFile) (file rest : List UInt8) (validate : Bool)
    (bytes : List UInt8) :
    SchemaFormat.sniff (Text.Utf8.encode lock.text.toList) = .lock ∧
    (SchemaFormat.sniff (fileEntry file ++ rest) = .descriptorSet ↔
      file.length ≠ 123 ∧ (file.length ∈ [9, 10, 12, 13, 32] →
        SchemaFormat.sniff (file ++ rest) = .descriptorSet)) ∧
    Loader.ofBytes ⟨.auto, validate⟩ bytes =
      Loader.ofBytes ⟨SchemaFormat.sniff bytes, validate⟩ bytes := by
  refine ⟨SchemaFormat.sniff_text lock, ?_, Loader.ofBytes_auto validate bytes⟩
  rw [SchemaFormat.sniff_eq_descriptorSet_iff, SchemaFormat.sniff_eq_descriptorSet_iff, ne_eq,
    SchemaFormat.sniff_fileEntry_iff, not_or, not_and]
  rfl

/-- The descriptor set of one file whose name has 121 letters is mistaken for a lock file, so not
all descriptor sets are told apart. -/
theorem descriptorSet_mistaken :
    ¬∀ file rest tree, DescriptorSet.treeOfBytes (fileEntry file ++ rest) = .ok tree →
      SchemaFormat.sniff (fileEntry file ++ rest) = .descriptorSet := by
  intro h
  have hmistaken : SchemaFormat.sniff
      (fileEntry (0x0A :: 0x79 :: List.replicate 121 0x61) ++ []) = .lock :=
    (SchemaFormat.sniff_fileEntry_iff _ _).2 (.inl (by simp))
  have haccepted : (DescriptorSet.treeOfBytes
      (fileEntry (0x0A :: 0x79 :: List.replicate 121 0x61) ++ [])).toOption.isSome = true := by
    rw [fileEntry, Wire.varint_of_lt (by simp)]
    decide +kernel
  cases htree : DescriptorSet.treeOfBytes
      (fileEntry (0x0A :: 0x79 :: List.replicate 121 0x61) ++ []) with
  | error fault =>
      rw [htree] at haccepted
      cases haccepted
  | ok tree =>
      rw [h _ _ _ htree] at hmistaken
      cases hmistaken

end SchemaGate
