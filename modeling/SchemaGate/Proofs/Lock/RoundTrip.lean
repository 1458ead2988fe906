import SchemaGate.Lock.Reader
import SchemaGate.Lock.Written
import SchemaGate.Proofs.Json.Records

/-!
# Lock files that have been written

A lock file is read as it was written unless it is nested too deeply to be read at all. Each part of
a lock file is written as a record, in the order of the fields of the record that reads it, and what
is left out is what the record starts from. The main statement is `LockFile.ofText_text`.
-/

namespace SchemaGate

open Json (Value Document Decoder Record decodeString decodeBool decodeInt32 decodeInt64 decodeList
  decodeOption memberIf memberIfAny)
open RecordField (ofDecoder)

namespace Json.Record.Written

section Members

variable {α β : Type} {key : String} {required : Bool} {decode : Decoder β} {set : α → β → α}
  {write : β → Value} {room : Nat} {fields : List (RecordField α)} {value result : α}
  {members : List (String × Value)}

/-- The member of a field whose value is read back. -/
theorem decoded {written : Value} {part : β} (hpart : decode written.document = .ok part)
    (hothers : Written fields (set value part) members result) :
    Written (ofDecoder key required decode set :: fields) value ((key, written) :: members)
      result := by
  have hput : (ofDecoder key required decode set).put value written.document =
      .ok (set value part) := by
    show (decode written.document).map (set value) = _
    rw [hpart]
    rfl
  exact .put hput hothers

/-- The member of a flag, which is left out if the record has the flag not set. -/
theorem flag {set : α → Bool → α} {flag : Bool} (hunset : set value false = value)
    (hothers : Written fields (set value flag) members result) :
    Written (ofDecoder key false decodeBool set :: fields) value (flagMember key flag ++ members)
      result := by
  cases flag with
  | false =>
      rw [hunset] at hothers
      exact .skip rfl hothers
  | true => exact decoded rfl hothers

/-- The member of a part that is left out if the record has none. -/
theorem optional {set : α → Option β → α} {part : Option β} (hnone : set value none = value)
    (hpart : ∀ inner ∈ part, decode (write inner).document = .ok inner)
    (hnull : ∀ inner, (write inner).document ≠ .null)
    (hothers : Written fields (set value part) members result) :
    Written (ofDecoder key false (decodeOption decode) set :: fields) value
      (memberIf key write part ++ members) result := by
  cases part with
  | none =>
      rw [hnone] at hothers
      exact .skip rfl hothers
  | some inner =>
      refine decoded ?_ hothers
      rw [decodeOption, hpart inner rfl]
      · rfl
      · exact hnull inner

/-- The member of a list whose items are read back. -/
theorem list {set : α → List β → α} {items : List β}
    (hroom : (Value.arr (items.map write)).depth ≤ room)
    (hitems : ∀ item ∈ items, (write item).depth ≤ room - 1 →
      decode (write item).document = .ok item)
    (hothers : Written fields (set value items) members result) :
    Written (ofDecoder key required (decodeList room decode) set :: fields) value
      ((key, .arr (items.map write)) :: members) result :=
  decoded (Json.decodeList_document hroom hitems) hothers

/-- The member of a list whose items are read back, left out if the list is empty. -/
theorem listIfAny {set : α → List β → α} {items : List β} (hnil : set value [] = value)
    (hroom : ∀ member ∈ memberIfAny key write items, member.2.depth ≤ room)
    (hitems : ∀ item ∈ items, (write item).depth ≤ room - 1 →
      decode (write item).document = .ok item)
    (hothers : Written fields (set value items) members result) :
    Written (ofDecoder key false (decodeList room decode) set :: fields) value
      (memberIfAny key write items ++ members) result := by
  cases items with
  | nil =>
      rw [hnil] at hothers
      exact .skip rfl hothers
  | cons item items => exact list (hroom _ List.mem_cons_self) hitems hothers

end Members

end Json.Record.Written

open Json.Record (Written)

/-- A field is read back. -/
theorem LockField.decode_toJson {field : LockField} {room : Nat}
    (hroom : field.toJson.depth ≤ room) :
    LockField.record.decode room field.toJson.document = .ok field := by
  rw [toJson, Value.depth_obj_le_iff] at hroom
  refine Record.decode_written (by decide) ?_ hroom.1
  simp only [List.cons_append, List.nil_append]
  refine .decoded (Json.decodeInt64_document field.id) (.decoded rfl (.decoded rfl ?_))
  refine .flag rfl ?_
  rw [← List.append_nil (memberIf _ _ _)]
  exact .optional rfl (fun _ _ => rfl) (fun _ => nofun) .nil

/-- A map field is read back. -/
theorem LockMap.decode_toJson {map : LockMap} {room : Nat} (hroom : map.toJson.depth ≤ room) :
    (LockMap.record (room - 1)).decode room map.toJson.document = .ok map := by
  rw [toJson, Value.depth_obj_le_iff] at hroom
  have hkeys : (LockMap.record (room - 1)).keys.Nodup :=
    show ["key_type", "field"].Nodup by decide
  refine Record.decode_written hkeys ?_ hroom.1
  have hfield := LockField.decode_toJson (hroom.2 ("field", map.field.toJson) (by simp))
  exact .decoded rfl (.decoded hfield .nil)

/-- An enum constant is read back. -/
theorem LockEnumField.decode_toJson {constant : LockEnumField} {room : Nat}
    (hroom : constant.toJson.depth ≤ room) :
    LockEnumField.record.decode room constant.toJson.document = .ok constant := by
  rw [toJson, Value.depth_obj_le_iff] at hroom
  refine Record.decode_written (by decide) ?_ hroom.1
  exact .decoded rfl (.decoded (Json.decodeInt32_document constant.integer) .nil)

/-- A reserved id is read back. -/
theorem ReservedId.decode_toJson {id : ReservedId} {room : Nat} (hroom : id.toJson.depth ≤ room) :
    ReservedId.decode room id.toJson.document = .ok id := by
  cases id with
  | single number =>
      have hnumber := Json.decodeInt32_document number
      rw [Value.document] at hnumber
      simp only [ReservedId.decode, toJson, Value.document, Document.isValue, hnumber]
      rfl
  | range start stop =>
      have hpositive := (Value.depth_obj_le_iff.1 hroom).1
      have hstart : memberInt32? "start"
          [(some "start", (Value.int start.toInt).document),
            (some "end", (Value.int stop.toInt).document)] = some start := by
        show (decodeInt32 (Value.int start.toInt).document).toOption = _
        rw [Json.decodeInt32_document]
        rfl
      have hstop : memberInt32? "end"
          [(some "start", (Value.int start.toInt).document),
            (some "end", (Value.int stop.toInt).document)] = some stop := by
        show (decodeInt32 (Value.int stop.toInt).document).toOption = _
        rw [Json.decodeInt32_document]
        rfl
      have hdocument : (toJson (.range start stop)).document =
          .obj [(some "start", (Value.int start.toInt).document),
            (some "end", (Value.int stop.toInt).document)] true := rfl
      rw [hdocument, ReservedId.decode, hstart, hstop, if_pos]
      simp [Value.document, Document.isValue, Document.areMembers, hpositive]

/-- An enum is read back. -/
theorem LockEnum.decode_toJson {enumType : LockEnum} {room : Nat}
    (hroom : enumType.toJson.depth ≤ room) :
    LockEnum.decode room enumType.toJson.document = .ok enumType := by
  rw [toJson, Value.depth_obj_le_iff] at hroom
  have hkeys : (LockEnum.record (room - 1)).keys.Nodup :=
    show ["name", "enum_fields", "reserved_ids", "reserved_names", "allow_alias"].Nodup by decide
  refine Record.decode_written hkeys ?_ hroom.1
  simp only [List.append_assoc, List.cons_append, List.nil_append] at hroom ⊢
  refine .decoded rfl ?_
  refine .list (hroom.2 ("enum_fields", _) (by simp))
    (fun constant _ => LockEnumField.decode_toJson) ?_
  refine .listIfAny rfl (fun member hmember => hroom.2 member (by simp [hmember]))
    (fun id _ => ReservedId.decode_toJson) ?_
  refine .listIfAny rfl (fun member hmember => hroom.2 member (by simp [hmember]))
    (fun name _ _ => rfl) ?_
  rw [← List.append_nil (flagMember _ _)]
  exact .flag rfl .nil

/-- The member of the messages inside a message is written like any other list. -/
theorem valuesMember_map {α : Type} (key : String) (write : α → Value) (items : List α) :
    valuesMember key (items.map write) = memberIfAny key write items := by
  cases items <;> rfl

/-- The parts of a written message. -/
theorem LockMessage.toJson_eq (message : LockMessage) :
    message.toJson =
      .obj ([("name", .str message.name),
          ("fields", .arr (message.fields.map LockField.toJson))] ++
        memberIfAny "maps" LockMap.toJson message.maps ++
        memberIfAny "reserved_ids" ReservedId.toJson message.reservedIds ++
        memberIfAny "reserved_names" .str message.reservedNames ++
        memberIfAny "messages" LockMessage.toJson message.messages ++
        memberIfAny "enums" LockEnum.toJson message.enums) := by
  obtain ⟨name, fields, maps, reservedIds, reservedNames, messages, enums⟩ := message
  rw [toJson, allToJson_eq_map, valuesMember_map]

/-- A message is read back. The messages inside it have two levels less. -/
theorem LockMessage.decode_toJson : ∀ {room : Nat} {message : LockMessage},
    message.toJson.depth ≤ room →
      LockMessage.decode room message.toJson.document = .ok message
  | 0, message, hroom => by
      rw [toJson_eq, Value.depth_obj_le_iff] at hroom
      exact absurd rfl hroom.1
  | 1, message, hroom => by
      -- The array of fields is written even if there are none.
      rw [toJson_eq, Value.depth_obj_le_iff] at hroom
      have hfields := hroom.2 ("fields", .arr (message.fields.map LockField.toJson)) (by simp)
      exact absurd rfl (Value.depth_arr_le_iff.1 hfields).1
  | room + 2, message, hroom => by
      have hkeys : (LockMessage.record (room + 1) (LockMessage.decode room)).keys.Nodup :=
        show ["name", "fields", "maps", "reserved_ids", "reserved_names", "messages",
          "enums"].Nodup by decide
      rw [toJson_eq, Value.depth_obj_le_iff] at hroom
      rw [toJson_eq, LockMessage.decode]
      refine Record.decode_written hkeys ?_ hroom.1
      obtain ⟨name, fields, maps, reservedIds, reservedNames, messages, enums⟩ := message
      simp only [List.append_assoc, List.cons_append, List.nil_append] at hroom ⊢
      refine .decoded rfl ?_
      refine .list (hroom.2 ("fields", _) (by simp)) (fun field _ => LockField.decode_toJson) ?_
      refine .listIfAny rfl (fun member hmember => hroom.2 member (by simp [hmember]))
        (fun map _ => LockMap.decode_toJson) ?_
      refine .listIfAny rfl (fun member hmember => hroom.2 member (by simp [hmember]))
        (fun id _ => ReservedId.decode_toJson) ?_
      refine .listIfAny rfl (fun member hmember => hroom.2 member (by simp [hmember]))
        (fun name _ _ => rfl) ?_
      refine .listIfAny rfl (fun member hmember => hroom.2 member (by simp [hmember]))
        (fun nested _ => LockMessage.decode_toJson) ?_
      rw [← List.append_nil (memberIfAny _ _ _)]
      exact .listIfAny rfl (fun member hmember => hroom.2 member (by simp [hmember]))
        (fun enumType _ => LockEnum.decode_toJson) .nil

/-- A package is read back. -/
theorem LockPackage.decode_toJson {package : LockPackage} {room : Nat}
    (hroom : package.toJson.depth ≤ room) :
    LockPackage.record.decode room package.toJson.document = .ok package := by
  rw [toJson, Value.depth_obj_le_iff] at hroom
  refine Record.decode_written (by decide) ?_ hroom.1
  exact .decoded rfl .nil

/-- The contents of a file are read back. -/
theorem LockEntry.decode_toJson {entry : LockEntry} {room : Nat}
    (hroom : entry.toJson.depth ≤ room) :
    (LockEntry.record (room - 1)).decode room entry.toJson.document = .ok entry := by
  have hkeys : (LockEntry.record (room - 1)).keys.Nodup :=
    show ["package", "messages", "enums"].Nodup by decide
  rw [toJson, LockMessage.allToJson_eq_map, Value.depth_obj_le_iff] at hroom
  rw [toJson, LockMessage.allToJson_eq_map]
  refine Record.decode_written hkeys ?_ hroom.1
  refine .optional rfl (fun package hpackage => LockPackage.decode_toJson ?_) (fun _ => nofun) ?_
  · have hmember : ("package", package.toJson) ∈
        memberIf "package" LockPackage.toJson entry.package := by
      rw [hpackage]
      exact List.mem_cons_self
    exact hroom.2 _ (List.mem_append_left _ hmember)
  · refine .list (hroom.2 ("messages", _) (by simp))
      (fun message _ => LockMessage.decode_toJson) ?_
    exact .list (hroom.2 ("enums", _) (by simp)) (fun enumType _ => LockEnum.decode_toJson) .nil

/-- A file is read back. -/
theorem LockDefinition.decode_toJson {definition : LockDefinition} {room : Nat}
    (hroom : definition.toJson.depth ≤ room) :
    (LockDefinition.record (room - 1)).decode room definition.toJson.document =
      .ok definition := by
  have hkeys : (LockDefinition.record (room - 1)).keys.Nodup :=
    show ["protopath", "def"].Nodup by decide
  rw [toJson, Value.depth_obj_le_iff] at hroom
  refine Record.decode_written hkeys ?_ hroom.1
  have hentry := LockEntry.decode_toJson (hroom.2 ("def", definition.entry.toJson) (by simp))
  exact .decoded rfl (.decoded hentry .nil)

/-- A lock file is read back. -/
theorem LockFile.decode_toJson {lock : LockFile} {room : Nat} (hroom : lock.toJson.depth ≤ room) :
    (LockFile.record (room - 1)).decode room lock.toJson.document = .ok lock := by
  have hkeys : (LockFile.record (room - 1)).keys.Nodup :=
    show ["definitions"].Nodup by decide
  rw [toJson, Value.depth_obj_le_iff] at hroom
  refine Record.decode_written hkeys ?_ hroom.1
  exact .list (hroom.2 ("definitions", _) (by simp))
    (fun definition _ => LockDefinition.decode_toJson) .nil

section Exact

/-- The numbers of 32 bits are exact. -/
theorem exact_int32 (value : Int32) : (Value.int value.toInt).Exact := by
  have hlow := value.le_toInt
  have hhigh := value.toInt_lt
  exact ⟨by omega, by omega⟩

/-- The numbers of 64 bits are exact. -/
theorem exact_int64 (value : Int64) : (Value.int value.toInt).Exact := by
  have hlow := value.le_toInt
  have hhigh := value.toInt_lt
  exact ⟨by omega, by omega⟩

/-- A list is exact if its items are. -/
theorem exact_arr {α : Type} {write : α → Value} {items : List α}
    (h : ∀ item ∈ items, (write item).Exact) : (Value.arr (items.map write)).Exact :=
  Value.allExact_iff.2 (List.forall_mem_map.2 h)

/-- The members of two groups are exact if those of each are. -/
theorem membersExact_append {members others : List (String × Value)} :
    Value.MembersExact (members ++ others) ↔
      Value.MembersExact members ∧ Value.MembersExact others := by
  simp only [Value.membersExact_iff, List.forall_mem_append]

/-- The member of a list is exact if the items are. -/
theorem exact_memberIfAny {α : Type} {key : String} {write : α → Value} {items : List α}
    (h : ∀ item ∈ items, (write item).Exact) :
    Value.MembersExact (memberIfAny key write items) := by
  cases items with
  | nil => exact trivial
  | cons item items => exact ⟨exact_arr h, trivial⟩

/-- The member of an optional part is exact if the part is. -/
theorem exact_memberIf {α : Type} {key : String} {write : α → Value} {part : Option α}
    (h : ∀ inner ∈ part, (write inner).Exact) : Value.MembersExact (memberIf key write part) := by
  cases part with
  | none => exact trivial
  | some inner => exact ⟨h inner rfl, trivial⟩

/-- The member of a flag is exact. -/
theorem exact_flagMember (key : String) (flag : Bool) :
    Value.MembersExact (flagMember key flag) := by
  cases flag with
  | false => exact trivial
  | true => exact ⟨trivial, trivial⟩

/-- A written field is exact. -/
theorem LockField.exact_toJson (field : LockField) : field.toJson.Exact := by
  refine membersExact_append.2 ⟨membersExact_append.2 ⟨?_, exact_flagMember _ _⟩, ?_⟩
  · exact ⟨exact_int64 field.id, trivial, trivial, trivial⟩
  · exact exact_memberIf fun _ _ => trivial

/-- A written map field is exact. -/
theorem LockMap.exact_toJson (map : LockMap) : map.toJson.Exact :=
  ⟨trivial, map.field.exact_toJson, trivial⟩

/-- A written reserved id is exact. -/
theorem ReservedId.exact_toJson (id : ReservedId) : id.toJson.Exact := by
  cases id with
  | single number => exact exact_int32 number
  | range start stop => exact ⟨exact_int32 start, exact_int32 stop, trivial⟩

/-- A written enum is exact. -/
theorem LockEnum.exact_toJson (enumType : LockEnum) : enumType.toJson.Exact := by
  refine membersExact_append.2 ⟨membersExact_append.2 ⟨membersExact_append.2 ⟨?_, ?_⟩, ?_⟩,
    exact_flagMember _ _⟩
  · exact ⟨trivial, exact_arr fun constant _ => ⟨trivial, exact_int32 constant.integer, trivial⟩,
      trivial⟩
  · exact exact_memberIfAny fun id _ => id.exact_toJson
  · exact exact_memberIfAny fun _ _ => trivial

/-- A written message is exact. -/
theorem LockMessage.exact_toJson (message : LockMessage) : message.toJson.Exact := by
  rw [toJson_eq]
  refine membersExact_append.2 ⟨membersExact_append.2 ⟨membersExact_append.2
    ⟨membersExact_append.2 ⟨membersExact_append.2 ⟨?_, ?_⟩, ?_⟩, ?_⟩, ?_⟩, ?_⟩
  · exact ⟨trivial, exact_arr fun field _ => field.exact_toJson, trivial⟩
  · exact exact_memberIfAny fun map _ => map.exact_toJson
  · exact exact_memberIfAny fun id _ => id.exact_toJson
  · exact exact_memberIfAny fun _ _ => trivial
  · exact exact_memberIfAny fun nested _ => nested.exact_toJson
  · exact exact_memberIfAny fun enumType _ => enumType.exact_toJson
termination_by message
decreasing_by
  rename_i hnested
  have hlt := List.sizeOf_lt_of_mem hnested
  obtain ⟨name, fields, maps, reservedIds, reservedNames, messages, enums⟩ := message
  simp only [mk.sizeOf_spec] at hlt ⊢
  omega

/-- A written file is exact. -/
theorem LockDefinition.exact_toJson (definition : LockDefinition) : definition.toJson.Exact := by
  refine ⟨trivial, membersExact_append.2 ⟨?_, ?_⟩, trivial⟩
  · exact exact_memberIf fun _ _ => ⟨trivial, trivial⟩
  · rw [LockMessage.allToJson_eq_map]
    exact ⟨exact_arr fun message _ => message.exact_toJson,
      exact_arr fun enumType _ => enumType.exact_toJson, trivial⟩

/-- A written lock file has no doubles, and its integers have 64 bits. -/
theorem LockFile.exact_toJson (lock : LockFile) : lock.toJson.Exact :=
  ⟨exact_arr fun definition _ => definition.exact_toJson, trivial⟩

end Exact

/-- The text of a lock file is read as the document of what was written. -/
theorem LockFile.read_text (lock : LockFile) :
    Document.read lock.text.toList = (lock.toJson.document, true) := by
  rw [LockFile.text, Value.pretty, String.toList_ofList]
  exact Document.read_chars lock.exact_toJson

/-- The text of a lock file is read as the lock file, unless it is nested too deeply. -/
theorem LockFile.ofText_text {lock : LockFile} (h : lock.toJson.depth ≤ Json.maxDepth) :
    LockFile.ofText lock.text = .ok lock := by
  rw [LockFile.ofText, Json.decodeText, lock.read_text]
  show (LockFile.record (Json.maxDepth - 1)).decode Json.maxDepth lock.toJson.document >>= _ = _
  rw [LockFile.decode_toJson h]
  rfl

end SchemaGate
