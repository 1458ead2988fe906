import SchemaGate.Proofs.Loading.Grouped
import SchemaGate.Proofs.Loading.Sniffing
import SchemaGate.Proofs.Lock.Depth
import SchemaGate.Proofs.Lock.Relisted
import SchemaGate.Proofs.Text.Utf8

/-!
# Snapshots that can be loaded

The snapshot of a schema that was loaded can be loaded in its place, with the same kinds of types
under the same paths, unless it is nested more deeply than can be read or a map type of the schema
has blanks at its end. The main statement is `snapshot_reloads_iff`.
-/

namespace SchemaGate

open Validation (Valid)

/-- The bytes of the snapshot of a schema. -/
def SchemaTree.snapshotBytes (tree : SchemaTree) : List UInt8 :=
  Text.Utf8.encode (LockFile.ofTree tree).text.toList

/-- The types of two schemas have the same paths and kinds in their indexes. -/
def SchemaTree.SameKinds (tree other : SchemaTree) : Prop :=
  ∃ index result, TypeIndex.build tree = .ok index ∧ TypeIndex.build other = .ok result ∧
    result.kinds = index.kinds

namespace Loader

/-- A schema is loaded with validation exactly when it is read and valid. -/
theorem ofBytes_eq_ok_iff {loader : Loader} (hvalidate : loader.validate = true)
    {bytes : List UInt8} {tree : SchemaTree} :
    loader.ofBytes bytes = .ok tree ↔
      treeOfBytes loader.format bytes = .ok tree ∧ Validation.validate tree = .ok () := by
  constructor
  · intro h
    have hvalid := ofBytes_validate hvalidate h
    refine ⟨?_, hvalid⟩
    obtain ⟨read, hread, h⟩ := exists_of_bind_eq_ok h
    rw [checked, if_pos hvalidate] at h
    obtain ⟨_, -, h⟩ := exists_of_bind_eq_ok h
    cases h
    exact hread
  · rintro ⟨hread, hvalid⟩
    rw [ofBytes, hread]
    show loader.checked tree = _
    rw [checked, if_pos hvalidate, hvalid]
    rfl

end Loader

/-- The bytes of a snapshot are read as the schema that comes back if the snapshot is not nested too
deeply, and are not read otherwise. -/
theorem treeOfBytes_snapshotBytes_eq_ok_iff {format : SchemaFormat}
    (hformat : format ≠ .descriptorSet) {tree result : SchemaTree} :
    treeOfBytes format tree.snapshotBytes = .ok result ↔
      (LockFile.ofTree tree).toJson.depth ≤ Json.maxDepth ∧ result = tree.relisted := by
  have hlock : format.orSniffed tree.snapshotBytes = .lock := by
    cases format with
    | auto => exact SchemaFormat.sniff_text (LockFile.ofTree tree)
    | lock => rfl
    | descriptorSet => exact absurd rfl hformat
  rw [treeOfBytes, hlock]
  show LockFile.treeOfBytes _ = _ ↔ _
  rw [LockFile.treeOfBytes, SchemaTree.snapshotBytes, Text.Utf8.decode_encode, orLoadError_ok,
    ok_bind, String.ofList_toList]
  constructor
  · intro h
    obtain ⟨lock, hlock, h⟩ := exists_of_bind_eq_ok h
    obtain ⟨hdepth, rfl⟩ := LockFile.ofText_text_eq_ok_iff.1 (of_orLoadError_eq_ok hlock)
    have htree := of_orLoadError_eq_ok h
    rw [LockFile.toTree_ofTree] at htree
    exact ⟨hdepth, (Except.ok.inj htree).symm⟩
  · rintro ⟨hdepth, rfl⟩
    rw [LockFile.ofText_text hdepth, orLoadError_ok, ok_bind, LockFile.toTree_ofTree,
      orLoadError_ok]

/-- A schema that was loaded with validation is valid and grouped. -/
theorem Loader.valid_of_ofBytes {loader : Loader} (hvalidate : loader.validate = true)
    {bytes : List UInt8} {tree : SchemaTree} (h : loader.ofBytes bytes = .ok tree) :
    (∃ index, Valid tree index) ∧ tree.Grouped := by
  obtain ⟨hread, hvalid⟩ := (ofBytes_eq_ok_iff hvalidate).1 h
  exact ⟨Validation.validate_eq_ok_iff_valid.1 hvalid, grouped_treeOfBytes hread⟩

/-- The bytes of the snapshot of a valid and grouped schema are loaded as the schema that comes back
exactly if they are not nested too deeply and no map type has blanks at its ends. -/
theorem Loader.ofBytes_snapshotBytes_eq_ok_iff {reader : Loader}
    (hvalidate : reader.validate = true) (hformat : reader.format ≠ .descriptorSet)
    {tree result : SchemaTree} {index : TypeIndex} (hvalid : Valid tree index)
    (hgrouped : tree.Grouped) :
    reader.ofBytes tree.snapshotBytes = .ok result ↔
      (LockFile.ofTree tree).toJson.depth ≤ Json.maxDepth ∧ tree.MapTypesTrimmed ∧
        result = tree.relisted := by
  rw [ofBytes_eq_ok_iff hvalidate, treeOfBytes_snapshotBytes_eq_ok_iff hformat,
    ← valid_relisted_iff hvalid hgrouped, ← Validation.validate_eq_ok_iff_valid]
  constructor
  · rintro ⟨⟨hdepth, rfl⟩, hagain⟩
    exact ⟨hdepth, hagain, rfl⟩
  · rintro ⟨hdepth, hagain, rfl⟩
    exact ⟨⟨hdepth, rfl⟩, hagain⟩

section OneField

/-- A descriptor set of one message with one field of a given type. -/
def fieldSet (typeName : String) : List UInt8 :=
  let written := Text.Utf8.encode typeName.toList
  let field := [0x0A, 0x01, 0x66, 0x18, 0x01, 0x28, 0x0B, 0x32, UInt8.ofNat written.length] ++
    written
  let message := [0x0A, 0x01, 0x4D, 0x12, UInt8.ofNat field.length] ++ field
  fileEntry ([0x0A, 0x01, 0x61, 0x22, UInt8.ofNat message.length] ++ message)

/-- The schema of one message with one field of a given type. -/
def fieldTree (typeName : String) : SchemaTree :=
  ⟨[{ path := "a", messages := [{ name := "M", fields := [⟨"f", 1, typeName, false, none⟩] }] }]⟩

/-- The descriptor set is loaded if its bytes are read as the schema and the schema is valid. -/
theorem ofBytes_fieldSet {typeName : String}
    (hread : (treeOfBytes .auto (fieldSet typeName)).toOption = some (fieldTree typeName))
    (hvalid : (Validation.validate (fieldTree typeName)).toOption = some ()) :
    Loader.ofBytes {} (fieldSet typeName) = .ok (fieldTree typeName) := by
  refine (Loader.ofBytes_eq_ok_iff rfl).2 ⟨?_, ?_⟩
  · cases htree : treeOfBytes .auto (fieldSet typeName) with
    | error fault => rw [htree] at hread; cases hread
    | ok tree =>
        rw [htree] at hread
        exact congrArg Except.ok (Option.some.inj hread)
  · cases hresult : Validation.validate (fieldTree typeName) with
    | error fault => rw [hresult] at hvalid; cases hvalid
    | ok result => rfl

end OneField

/-- The snapshot of a schema that was loaded with validation can be loaded with validation exactly
if it is nested at most 127 levels deep and no map type of the schema has blanks at its ends. Its
types then have the same paths and kinds. -/
theorem snapshot_reloads_iff {loader reader : Loader} {bytes : List UInt8} {tree : SchemaTree}
    (hload : loader.validate = true ∧ loader.ofBytes bytes = .ok tree)
    (hreader : reader.validate = true ∧ reader.format ≠ .descriptorSet) :
    ((∃ result, reader.ofBytes tree.snapshotBytes = .ok result) ↔
      (LockFile.ofTree tree).toJson.depth ≤ 127 ∧ tree.MapTypesTrimmed) ∧
    ∀ result, reader.ofBytes tree.snapshotBytes = .ok result → tree.SameKinds result := by
  obtain ⟨⟨index, hvalid⟩, hgrouped⟩ := Loader.valid_of_ofBytes hload.1 hload.2
  have hiff (result : SchemaTree) :
      reader.ofBytes tree.snapshotBytes = .ok result ↔ _ :=
    Loader.ofBytes_snapshotBytes_eq_ok_iff hreader.1 hreader.2 hvalid hgrouped
  constructor
  · constructor
    · rintro ⟨result, hresult⟩
      obtain ⟨hdepth, htrimmed, -⟩ := (hiff result).1 hresult
      exact ⟨hdepth, htrimmed⟩
    · rintro ⟨hdepth, htrimmed⟩
      exact ⟨tree.relisted, (hiff _).2 ⟨hdepth, htrimmed, rfl⟩⟩
  · intro result hresult
    obtain ⟨-, -, rfl⟩ := (hiff result).1 hresult
    obtain ⟨back, hback, hkinds⟩ := exists_build_relisted hvalid
    exact ⟨index, back, hvalid.build, hback, hkinds⟩

/-- The snapshot of a schema with one map field can be loaded. -/
theorem snapshot_reloads_iff_labels :
    Loader.ofBytes {} (fieldSet "map<string, string>") = .ok (fieldTree "map<string, string>") ∧
      ∃ result, Loader.ofBytes {} (fieldTree "map<string, string>").snapshotBytes = .ok result ∧
        (fieldTree "map<string, string>").SameKinds result := by
  have hload : Loader.ofBytes {} (fieldSet "map<string, string>") =
      .ok (fieldTree "map<string, string>") :=
    ofBytes_fieldSet (by decide +kernel) (by decide +kernel)
  have htrimmed : (fieldTree "map<string, string>").MapTypesTrimmed := by
    intro declaration hdeclared message hmessage field hfield _
    rw [List.mem_singleton.1 (show declaration ∈ [_] from hdeclared)] at hmessage
    cases hmessage
    rw [List.mem_singleton.1 hfield]
    exact Text.trim_eq_self_iff.1 (by decide)
  have hreader : ({} : Loader).validate = true ∧ ({} : Loader).format ≠ .descriptorSet :=
    ⟨rfl, by decide⟩
  obtain ⟨hiff, hkinds⟩ := snapshot_reloads_iff ⟨rfl, hload⟩ hreader
  obtain ⟨result, hresult⟩ := hiff.2 ⟨by decide, htrimmed⟩
  exact ⟨hload, result, hresult, hkinds result hresult⟩

/-- The snapshot of a schema whose one map type has a blank at its end cannot be loaded, so not all
snapshots can. -/
theorem snapshot_not_loaded :
    ¬∀ bytes tree, Loader.ofBytes {} bytes = .ok tree →
      ∃ result, Loader.ofBytes {} tree.snapshotBytes = .ok result := by
  intro h
  have hload : Loader.ofBytes {} (fieldSet "map<string, string> ") =
      .ok (fieldTree "map<string, string> ") :=
    ofBytes_fieldSet (by decide +kernel) (by decide +kernel)
  obtain ⟨⟨index, hvalid⟩, hgrouped⟩ := Loader.valid_of_ofBytes rfl hload
  obtain ⟨result, hresult⟩ := h _ _ hload
  obtain ⟨-, htrimmed, -⟩ :=
    (Loader.ofBytes_snapshotBytes_eq_ok_iff rfl (by decide) hvalid hgrouped).1 hresult
  have hfield := htrimmed ⟨"M", .message { name := "M", fields := [⟨"f", 1, "map<string, string> ",
    false, none⟩] }, "a"⟩ (by decide) _ rfl _ List.mem_cons_self (by decide)
  exact absurd (hfield.2 ' ' (by decide)) (by decide)

end SchemaGate
