import SchemaGate.Json.Decode
import SchemaGate.Proofs.Json.RoundTrip
import SchemaGate.Proofs.Traversal

/-!
# Records that have been written

`Record.Written` says that members are those of a record: the fields come in order, each with a
value that is read as the next part of the record, and optional fields may be left out. The main
statement is `Record.decode_written`: such an object is read as the record. The lemmas before it do
the same for numbers and lists, and measure how deeply a written value is nested.
-/

namespace SchemaGate.Json

namespace Value

section Depth

/-- A bound on the depth of several values is one on the depth of each. -/
theorem depthItems_le_iff {items : List Value} {n : Nat} :
    depthItems items ≤ n ↔ ∀ item ∈ items, item.depth ≤ n := by
  induction items with
  | nil => simp [depthItems]
  | cons item items ih => rw [depthItems, Nat.max_le, ih, List.forall_mem_cons]

/-- A bound on the depth of several members is one on the depth of each. -/
theorem depthMembers_le_iff {members : List (String × Value)} {n : Nat} :
    depthMembers members ≤ n ↔ ∀ member ∈ members, member.2.depth ≤ n := by
  induction members with
  | nil => simp [depthMembers]
  | cons member members ih => rw [depthMembers, Nat.max_le, ih, List.forall_mem_cons]

/-- An array fits into a room exactly when there is one and its items fit into what is left. -/
theorem depth_arr_le_iff {items : List Value} {room : Nat} :
    (arr items).depth ≤ room ↔ room ≠ 0 ∧ ∀ item ∈ items, item.depth ≤ room - 1 := by
  rw [depth, ← depthItems_le_iff]
  omega

/-- An object fits into a room exactly when there is one and its values fit into what is left. -/
theorem depth_obj_le_iff {members : List (String × Value)} {room : Nat} :
    (obj members).depth ≤ room ↔ room ≠ 0 ∧ ∀ member ∈ members, member.2.depth ≤ room - 1 := by
  rw [depth, ← depthMembers_le_iff]
  omega

end Depth

section Exact

/-- Several values are exact if each of them is. -/
theorem allExact_iff {items : List Value} : AllExact items ↔ ∀ item ∈ items, item.Exact := by
  induction items with
  | nil => simp [AllExact]
  | cons item items ih => simp [AllExact, ih]

/-- Members are exact if each of their values is. -/
theorem membersExact_iff {members : List (String × Value)} :
    MembersExact members ↔ ∀ member ∈ members, member.2.Exact := by
  induction members with
  | nil => simp [MembersExact]
  | cons member members ih => simp [MembersExact, ih]

end Exact

end Value

section Scalars

/-- An integer of 32 bits is read back. -/
theorem decodeInt32_document (value : Int32) :
    decodeInt32 (Value.int value.toInt).document = .ok value := by
  have hbounds := And.intro value.minValue_le_toInt value.toInt_le
  rw [Value.document, decodeInt32, decodeInteger, if_pos hbounds]
  exact congrArg Except.ok value.ofInt_toInt

/-- An integer of 64 bits is read back. -/
theorem decodeInt64_document (value : Int64) :
    decodeInt64 (Value.int value.toInt).document = .ok value := by
  have hbounds := And.intro value.minValue_le_toInt value.toInt_le
  rw [Value.document, decodeInt64, decodeInteger, if_pos hbounds]
  exact congrArg Except.ok value.ofInt_toInt

end Scalars

section Lists

variable {α : Type} {items : List α} {write : α → Value} {decode : Decoder α} {room : Nat}

/-- A list is read back if its items are. -/
theorem decodeList_document (hroom : (Value.arr (items.map write)).depth ≤ room)
    (h : ∀ item ∈ items, (write item).depth ≤ room - 1 →
      decode (write item).document = .ok item) :
    decodeList room decode (Value.arr (items.map write)).document = .ok items := by
  obtain ⟨hpositive, hitems⟩ := Value.depth_arr_le_iff.1 hroom
  have hread : (items.map fun item => (write item).document).mapM decode =
      .ok (items.map id) :=
    mapM_map_eq_ok fun item hitem => h item hitem (hitems _ (List.mem_map_of_mem hitem))
  rw [Value.document, decodeList, Value.documents_eq_map, if_neg hpositive, List.map_map]
  show (items.map fun item => (write item).document).mapM decode >>= _ = _
  rw [hread, List.map_id]
  rfl

end Lists

namespace Record

variable {α : Type}

/-- The members of a written record: they turn the record so far into the whole record, field by
field, where a field that need not be there may be left out. -/
inductive Written : List (RecordField α) → α → List (String × Value) → α → Prop where
  | nil {value : α} : Written [] value [] value
  | put {field : RecordField α} {fields : List (RecordField α)} {value next result : α}
      {written : Value} {members : List (String × Value)}
      (hput : field.put value written.document = .ok next)
      (hothers : Written fields next members result) :
      Written (field :: fields) value ((field.key, written) :: members) result
  | skip {field : RecordField α} {fields : List (RecordField α)} {value result : α}
      {members : List (String × Value)} (hoptional : field.required = false)
      (hothers : Written fields value members result) :
      Written (field :: fields) value members result

/-- If no two fields have the same key, the key of a field is none of those before it. -/
theorem key_not_mem_before {record : Record α} (hkeys : record.keys.Nodup)
    {before fields : List (RecordField α)} {field : RecordField α}
    (hfields : record.fields = before ++ field :: fields) :
    field.key ∉ before.map (·.key) := by
  rw [keys, hfields, List.map_append, List.map_cons] at hkeys
  exact fun hmem => (List.nodup_append.1 hkeys).2.2 _ hmem _ List.mem_cons_self rfl

/-- The field of a key is found if no two fields have the same key. -/
theorem find?_key {record : Record α} (hkeys : record.keys.Nodup)
    {before fields : List (RecordField α)} {field : RecordField α}
    (hfields : record.fields = before ++ field :: fields) :
    (record.fields.find? fun other => other.key = field.key) = some field := by
  refine List.find?_eq_some_iff_append.2 ⟨by simp, before, fields, hfields, ?_⟩
  intro other hother
  have hne : other.key ≠ field.key := fun heq =>
    key_not_mem_before hkeys hfields (heq ▸ List.mem_map_of_mem hother)
  simpa using hne

/-- The members of a written record are read in order. The keys of the fields before them were seen
at most, and those that must be there are seen in the end. -/
theorem decodeMembers_written {record : Record α} (hkeys : record.keys.Nodup)
    {before fields : List (RecordField α)} (hfields : record.fields = before ++ fields)
    {value result : α} {members : List (String × Value)}
    (h : Written fields value members result) {seen : List String}
    (hseen : ∀ key ∈ seen, key ∈ before.map (·.key)) :
    ∃ all, record.decodeMembers seen value (Value.memberDocuments members) = .ok (all, result) ∧
      (∀ key ∈ seen, key ∈ all) ∧ ∀ field ∈ fields, field.required = true → field.key ∈ all := by
  induction h generalizing before seen with
  | nil => exact ⟨seen, rfl, fun _ h => h, fun _ h => absurd h List.not_mem_nil⟩
  | put hput hothers ih =>
      rename_i field fields value next result written members
      have hnew : field.key ∉ seen := fun hmem =>
        key_not_mem_before hkeys hfields (hseen _ hmem)
      have hafter : ∀ key ∈ field.key :: seen, key ∈ (before ++ [field]).map (·.key) := by
        intro key hkey
        rw [List.map_append, List.mem_append]
        rcases List.mem_cons.1 hkey with rfl | hkey
        · exact .inr List.mem_cons_self
        · exact .inl (hseen key hkey)
      obtain ⟨all, hall, hkept, hrequired⟩ := ih (by rw [hfields, List.append_cons]) hafter
      refine ⟨all, ?_, fun key hkey => hkept key (List.mem_cons_of_mem _ hkey), ?_⟩
      · rw [Value.memberDocuments, decodeMembers, find?_key hkeys hfields]
        show (if seen.contains field.key then _ else _) = _
        rw [if_neg (by simpa using hnew), hput]
        exact hall
      · intro other hother hmust
        rcases List.mem_cons.1 hother with rfl | hother
        · exact hkept _ List.mem_cons_self
        · exact hrequired other hother hmust
  | skip hoptional hothers ih =>
      rename_i field fields value result members
      have hafter : ∀ key ∈ seen, key ∈ (before ++ [field]).map (·.key) := by
        intro key hkey
        rw [List.map_append, List.mem_append]
        exact .inl (hseen key hkey)
      obtain ⟨all, hall, hkept, hrequired⟩ := ih (by rw [hfields, List.append_cons]) hafter
      refine ⟨all, hall, hkept, ?_⟩
      intro other hother hmust
      rcases List.mem_cons.1 hother with rfl | hother
      · rw [hoptional] at hmust
        cases hmust
      · exact hrequired other hother hmust

/-- A written record is read back. -/
theorem decode_written {record : Record α} (hkeys : record.keys.Nodup)
    {members : List (String × Value)} {result : α}
    (h : Written record.fields record.blank members result) {room : Nat} (hroom : room ≠ 0) :
    record.decode room (Value.obj members).document = .ok result := by
  have hfields : record.fields = [] ++ record.fields := rfl
  obtain ⟨all, hmembers, -, hrequired⟩ :=
    decodeMembers_written hkeys hfields h fun key hkey => absurd hkey List.not_mem_nil
  have hnone : record.missing? all = none := by
    rw [missing?, Option.map_eq_none_iff, List.find?_eq_none]
    intro field hfield hmissing
    rw [Bool.and_eq_true] at hmissing
    simp [hrequired field hfield hmissing.1] at hmissing
  rw [Value.document, decode, if_neg hroom, hmembers, ok_bind]
  dsimp only
  rw [if_pos rfl, hnone]

end Record

end SchemaGate.Json
