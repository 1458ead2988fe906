import SchemaGate.Proofs.Lock.RoundTrip

/-!
# Lock files that are nested too deeply

A lock file is read back only if it is not nested more deeply than can be read. Each part that is
read as a record or a list takes one level, so a part that is read fits into its room. The main
statement is `LockFile.reads_back_iff`: the text of a lock file is read exactly when it is nested
at most as deeply as can be read, and then as the lock file.
-/

namespace SchemaGate

open Json (Value Decoder Record decodeList memberIf memberIfAny)
open RecordField (ofDecoder)

namespace Json

variable {α β : Type}

/-- The values of all known keys among the members of a record are read. -/
def Record.Reads (record : Record α) (members : List (String × Value)) : Prop :=
  ∀ {key written field}, (key, written) ∈ members →
    record.fields.find? (fun other => other.key = key) = some field →
      ∃ before after, field.put before written.document = .ok after

/-- If the members of a record are read, so are the values of all known keys. -/
theorem Record.reads_of_decodeMembers {record : Record α} {members : List (String × Value)}
    {seen : List String} {value : α} {result : List String × α}
    (h : record.decodeMembers seen value (Value.memberDocuments members) = .ok result) :
    record.Reads members := by
  intro key written field hmem hfield
  induction members generalizing seen value with
  | nil => cases hmem
  | cons member members ih =>
      obtain ⟨first, inner⟩ := member
      rw [Value.memberDocuments, decodeMembers] at h
      cases hfirst : record.fields.find? fun other => other.key = first with
      | none =>
          rw [hfirst] at h
          dsimp only at h
          split at h
          · rcases List.mem_cons.1 hmem with heq | hmem
            · cases heq
              rw [hfirst] at hfield
              cases hfield
            · exact ih h hmem
          · cases h
      | some found =>
          rw [hfirst] at h
          dsimp only at h
          split at h
          · cases h
          · obtain ⟨next, hput, h⟩ := exists_of_bind_eq_ok h
            rcases List.mem_cons.1 hmem with heq | hmem
            · cases heq
              rw [hfirst] at hfield
              cases hfield
              exact ⟨_, _, hput⟩
            · exact ih h hmem

/-- A record that is read from an object has room, and the values of all known keys are read. -/
theorem Record.reads_of_decode {record : Record α} {room : Nat} {members : List (String × Value)}
    (h : ∃ value, record.decode room (Value.obj members).document = .ok value) :
    room ≠ 0 ∧ record.Reads members := by
  obtain ⟨value, h⟩ := h
  rw [Value.document, decode] at h
  split at h
  · cases h
  · rename_i hroom
    obtain ⟨result, hmembers, -⟩ := exists_of_bind_eq_ok h
    exact ⟨hroom, reads_of_decodeMembers hmembers⟩

/-- A list that is read fits into the room if its items fit into what is left. -/
theorem depth_le_of_decodeList {items : List α} {write : α → Value} {decode : Decoder α}
    {room : Nat} (h : ∃ values, decodeList room decode (Value.arr (items.map write)).document =
      .ok values)
    (hitems : ∀ item ∈ items, (∃ value, decode (write item).document = .ok value) →
      (write item).depth ≤ room - 1) : (Value.arr (items.map write)).depth ≤ room := by
  obtain ⟨values, h⟩ := h
  rw [Value.document, decodeList, Value.documents_eq_map] at h
  split at h
  · cases h
  · rename_i hroom
    obtain ⟨read, hread, -⟩ := exists_of_bind_eq_ok h
    refine Value.depth_arr_le_iff.2 ⟨hroom, List.forall_mem_map.2 fun item hitem => ?_⟩
    exact hitems item hitem (exists_read_of_mapM_eq_ok hread
      (List.mem_map_of_mem (List.mem_map_of_mem hitem)))

namespace Record.Reads

variable {record : Record α} {members : List (String × Value)} {key : String} {required : Bool}
  {decode : Decoder β} {set : α → β → α} {write : β → Value} {items : List β} {room : Nat}

/-- The value of a field of a record is read by the decoder of the field. -/
theorem exists_part (h : record.Reads members) {written : Value} (hmem : (key, written) ∈ members)
    (hfield : record.fields.find? (fun other => other.key = key) =
      some (ofDecoder key required decode set)) : ∃ part, decode written.document = .ok part := by
  obtain ⟨before, after, hput⟩ := h hmem hfield
  change (decode written.document).map (set before) = .ok after at hput
  cases hpart : decode written.document with
  | error fault => rw [hpart] at hput; cases hput
  | ok part => exact ⟨part, rfl⟩

/-- The member of a list that is read fits into the room of the list if its items do. -/
theorem list {set : α → List β → α} (h : record.Reads members) (key : String)
    (hmem : (key, Value.arr (items.map write)) ∈ members)
    (hfield : record.fields.find? (fun other => other.key = key) =
      some (ofDecoder key required (decodeList room decode) set))
    (hitems : ∀ item ∈ items, (∃ value, decode (write item).document = .ok value) →
      (write item).depth ≤ room - 1) : (Value.arr (items.map write)).depth ≤ room :=
  depth_le_of_decodeList (h.exists_part hmem hfield) hitems

/-- The member of a list that is left out if it is empty fits into the room of the list if its
items do. -/
theorem listIfAny {set : α → List β → α} (h : record.Reads members)
    (hgroup : ∀ member ∈ memberIfAny key write items, member ∈ members)
    (hfield : record.fields.find? (fun other => other.key = key) =
      some (ofDecoder key required (decodeList room decode) set))
    (hitems : ∀ item ∈ items, (∃ value, decode (write item).document = .ok value) →
      (write item).depth ≤ room - 1) :
    ∀ member ∈ memberIfAny key write items, member.2.depth ≤ room := by
  cases items with
  | nil => exact fun _ hmember => absurd hmember List.not_mem_nil
  | cons item items =>
      intro member hmember
      rw [List.mem_singleton.1 hmember]
      exact h.list key (hgroup _ List.mem_cons_self) hfield hitems

end Record.Reads

end Json

section Parts

variable {room : Nat}

/-- The member of a flag is not nested. -/
theorem depth_flagMember {key : String} {flag : Bool} :
    ∀ member ∈ flagMember key flag, member.2.depth ≤ room := by
  cases flag with
  | false => exact fun _ hmember => absurd hmember List.not_mem_nil
  | true =>
      intro member hmember
      rw [List.mem_singleton.1 hmember]
      exact Nat.zero_le _

/-- A field takes one level. -/
theorem LockField.depth_toJson_le {field : LockField} (h : room ≠ 0) :
    field.toJson.depth ≤ room := by
  refine Value.depth_obj_le_iff.2 ⟨h, ?_⟩
  rw [List.forall_mem_append, List.forall_mem_append]
  refine ⟨⟨?_, depth_flagMember⟩, ?_⟩
  · simp [Value.depth]
  · cases field.oneofParent with
    | none => exact fun _ hmember => absurd hmember List.not_mem_nil
    | some oneof =>
        intro member hmember
        rw [List.mem_singleton.1 hmember]
        exact Nat.zero_le _

/-- A map field that is read fits into its room. -/
theorem LockMap.depth_le_of_decode {map : LockMap}
    (h : ∃ value, (LockMap.record (room - 1)).decode room map.toJson.document = .ok value) :
    map.toJson.depth ≤ room := by
  obtain ⟨hroom, hreads⟩ := Record.reads_of_decode h
  refine Value.depth_obj_le_iff.2 ⟨hroom, ?_⟩
  have hfield : ∃ part, LockField.record.decode (room - 1) map.field.toJson.document = .ok part :=
    hreads.exists_part (List.mem_cons_of_mem _ List.mem_cons_self) rfl
  rw [List.forall_mem_cons, List.forall_mem_singleton]
  exact ⟨Nat.zero_le _, LockField.depth_toJson_le (Record.reads_of_decode hfield).1⟩

/-- An enum constant takes one level. -/
theorem LockEnumField.depth_toJson_le {constant : LockEnumField} (h : room ≠ 0) :
    constant.toJson.depth ≤ room := by
  refine Value.depth_obj_le_iff.2 ⟨h, ?_⟩
  simp [Value.depth]

/-- A reserved id that is read fits into its room. -/
theorem ReservedId.depth_le_of_decode {id : ReservedId}
    (h : ∃ value, ReservedId.decode room id.toJson.document = .ok value) :
    id.toJson.depth ≤ room := by
  cases id with
  | single number => exact Nat.zero_le _
  | range start stop =>
      obtain ⟨value, h⟩ := h
      unfold ReservedId.decode at h
      split at h
      · rename_i hvalue
        have hroom : room ≠ 0 := by
          rintro rfl
          cases hvalue
        refine Value.depth_obj_le_iff.2 ⟨hroom, ?_⟩
        simp [Value.depth]
      · cases h

/-- An enum that is read fits into its room. -/
theorem LockEnum.depth_le_of_decode {enumType : LockEnum}
    (h : ∃ value, LockEnum.decode room enumType.toJson.document = .ok value) :
    enumType.toJson.depth ≤ room := by
  obtain ⟨hroom, hreads⟩ := Record.reads_of_decode h
  refine Value.depth_obj_le_iff.2 ⟨hroom, ?_⟩
  rw [List.forall_mem_append, List.forall_mem_append, List.forall_mem_append, List.forall_mem_cons,
    List.forall_mem_singleton]
  refine ⟨⟨⟨⟨Nat.zero_le _, ?_⟩, ?_⟩, ?_⟩, depth_flagMember⟩
  · exact hreads.list "enum_fields" (by simp) rfl fun constant _ hread =>
      LockEnumField.depth_toJson_le (Record.reads_of_decode hread).1
  · exact hreads.listIfAny (by simp +contextual) rfl fun id _ => ReservedId.depth_le_of_decode
  · exact hreads.listIfAny (by simp +contextual) rfl fun name _ _ => Nat.zero_le _

/-- A message that is read fits into its room. -/
theorem LockMessage.depth_le_of_decode : ∀ {room : Nat} {message : LockMessage},
    (∃ value, LockMessage.decode room message.toJson.document = .ok value) →
      message.toJson.depth ≤ room
  | 0, message, h => by
      obtain ⟨value, h⟩ := h
      exact absurd h (Record.decode_noRoom _ _ _)
  | 1, message, h => by
      -- There is no room for the array of fields, which is always written.
      rw [toJson_eq] at h
      obtain ⟨-, hreads⟩ := Record.reads_of_decode h
      have hfields : (Value.arr (message.fields.map LockField.toJson)).depth ≤ 0 :=
        hreads.list "fields" (by simp) rfl fun field _ hread =>
          LockField.depth_toJson_le (Record.reads_of_decode hread).1
      exact absurd rfl (Value.depth_arr_le_iff.1 hfields).1
  | room + 2, message, h => by
      rw [toJson_eq] at h ⊢
      obtain ⟨hroom, hreads⟩ := Record.reads_of_decode h
      refine Value.depth_obj_le_iff.2 ⟨hroom, ?_⟩
      rw [List.forall_mem_append, List.forall_mem_append, List.forall_mem_append,
        List.forall_mem_append, List.forall_mem_append, List.forall_mem_cons,
        List.forall_mem_singleton]
      refine ⟨⟨⟨⟨⟨⟨Nat.zero_le _, ?_⟩, ?_⟩, ?_⟩, ?_⟩, ?_⟩, ?_⟩
      · exact hreads.list "fields" (by simp) rfl fun field _ hread =>
          LockField.depth_toJson_le (Record.reads_of_decode hread).1
      · exact hreads.listIfAny (by simp +contextual) rfl fun map _ => LockMap.depth_le_of_decode
      · exact hreads.listIfAny (by simp +contextual) rfl fun id _ => ReservedId.depth_le_of_decode
      · exact hreads.listIfAny (by simp +contextual) rfl fun name _ _ => Nat.zero_le _
      · exact hreads.listIfAny (by simp +contextual) rfl fun nested _ =>
          LockMessage.depth_le_of_decode
      · exact hreads.listIfAny (by simp +contextual) rfl fun enumType _ =>
          LockEnum.depth_le_of_decode

/-- The contents of a file that are read fit into their room. -/
theorem LockEntry.depth_le_of_decode {entry : LockEntry}
    (h : ∃ value, (LockEntry.record (room - 1)).decode room entry.toJson.document = .ok value) :
    entry.toJson.depth ≤ room := by
  rw [toJson, LockMessage.allToJson_eq_map] at h ⊢
  obtain ⟨hroom, hreads⟩ := Record.reads_of_decode h
  have hmessages : (Value.arr (entry.messages.map LockMessage.toJson)).depth ≤ room - 1 :=
    hreads.list "messages" (by simp) rfl fun message _ => LockMessage.depth_le_of_decode
  refine Value.depth_obj_le_iff.2 ⟨hroom, ?_⟩
  rw [List.forall_mem_append, List.forall_mem_cons, List.forall_mem_singleton]
  refine ⟨?_, hmessages, ?_⟩
  · have hpositive := (Value.depth_arr_le_iff.1 hmessages).1
    cases entry.package with
    | none => exact fun _ hmember => absurd hmember List.not_mem_nil
    | some package =>
        intro member hmember
        rw [List.mem_singleton.1 hmember]
        refine Value.depth_obj_le_iff.2 ⟨hpositive, ?_⟩
        simp [Value.depth]
  · exact hreads.list "enums" (by simp) rfl fun enumType _ => LockEnum.depth_le_of_decode

/-- A file that is read fits into its room. -/
theorem LockDefinition.depth_le_of_decode {definition : LockDefinition}
    (h : ∃ value, (LockDefinition.record (room - 1)).decode room definition.toJson.document =
      .ok value) : definition.toJson.depth ≤ room := by
  obtain ⟨hroom, hreads⟩ := Record.reads_of_decode h
  refine Value.depth_obj_le_iff.2 ⟨hroom, ?_⟩
  rw [List.forall_mem_cons, List.forall_mem_singleton]
  refine ⟨Nat.zero_le _, LockEntry.depth_le_of_decode ?_⟩
  exact hreads.exists_part (List.mem_cons_of_mem _ List.mem_cons_self) rfl

/-- A lock file that is read fits into its room. -/
theorem LockFile.depth_le_of_decode {lock : LockFile}
    (h : ∃ value, (LockFile.record (room - 1)).decode room lock.toJson.document = .ok value) :
    lock.toJson.depth ≤ room := by
  obtain ⟨hroom, hreads⟩ := Record.reads_of_decode h
  refine Value.depth_obj_le_iff.2 ⟨hroom, List.forall_mem_singleton.2 ?_⟩
  exact hreads.list "definitions" List.mem_cons_self rfl fun definition _ =>
    LockDefinition.depth_le_of_decode

end Parts

/-- The text of a lock file is read as the lock file if it is not nested too deeply, and is not read
otherwise. -/
theorem LockFile.ofText_text_eq_ok_iff {lock result : LockFile} :
    LockFile.ofText lock.text = .ok result ↔
      lock.toJson.depth ≤ Json.maxDepth ∧ result = lock := by
  constructor
  · intro h
    have hdecode := h
    rw [ofText, Json.decodeText, read_text] at hdecode
    obtain ⟨value, hvalue, -⟩ := exists_of_bind_eq_ok hdecode
    have hdepth := depth_le_of_decode ⟨value, hvalue⟩
    rw [ofText_text hdepth] at h
    exact ⟨hdepth, (Except.ok.inj h).symm⟩
  · rintro ⟨hdepth, rfl⟩
    exact ofText_text hdepth

/-- No two lock files have the same text, however deeply they are nested. -/
theorem LockFile.text_injective : Function.Injective LockFile.text := by
  intro lock other h
  have hdocument : lock.toJson.document = other.toJson.document := by
    have hread := lock.read_text
    rw [h, other.read_text, Prod.mk.injEq] at hread
    exact hread.1.symm
  -- Both are read from their common document with room enough for either.
  have hlock := decode_toJson (Nat.le_max_left lock.toJson.depth other.toJson.depth)
  have hother := decode_toJson (Nat.le_max_right lock.toJson.depth other.toJson.depth)
  rw [hdocument, hother] at hlock
  exact (Except.ok.inj hlock).symm

/-- Every lock file is written as a whole JSON text that belongs to no other lock file. The text is
read as the lock file if it nests at most 127 arrays and objects, and is not read otherwise. -/
theorem LockFile.reads_back_iff (lock : LockFile) :
    Json.Document.read lock.text.toList = (lock.toJson.document, true) ∧
      (∀ other : LockFile, other.text = lock.text → other = lock) ∧
      (LockFile.ofText lock.text = .ok lock ↔ lock.toJson.depth ≤ 127) ∧
      ∀ result, LockFile.ofText lock.text = .ok result → result = lock := by
  refine ⟨lock.read_text, fun _ h => text_injective h, ?_, fun _ h => ?_⟩
  · rw [ofText_text_eq_ok_iff, and_iff_left rfl]
    rfl
  · exact (ofText_text_eq_ok_iff.1 h).2

end SchemaGate
