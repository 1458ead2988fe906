import Mathlib.Data.List.Forall2
import SchemaGate.Proofs.Lock.MapType
import SchemaGate.Proofs.Lock.Path
import SchemaGate.Proofs.Schema.Nesting
import SchemaGate.Proofs.Schema.Oneofs
import SchemaGate.Proofs.Traversal

/-!
# What a snapshot keeps

A snapshot that is read back is a schema again. `relisted` says which one: plain fields come before
map fields, the texts of map types are written anew, and the oneofs are the grouping of the fields.
A schema is canonical if that changes nothing. The main statement is `snapshot_exact`.
-/

namespace SchemaGate

/-- A list is its list of images exactly when every item is its own image. -/
theorem map_eq_self_iff {α : Type} {items : List α} {image : α → α} :
    items.map image = items ↔ ∀ item ∈ items, image item = item := by
  conv_lhs => rhs; rw [← List.map_id items]
  rw [List.map_inj_left]
  rfl

/-- The field that comes back from a snapshot. -/
def Field.relisted (field : Field) : Field :=
  { field with
    typeName :=
      if LockMap.isMapType field.typeName then
        mapTypeText (LockMap.splitType field.typeName).1 (LockMap.splitType field.typeName).2
      else field.typeName
    oneof := field.oneof.filter fun oneof => oneof ≠ "" }

/-- The fields that come back from a snapshot. -/
def relistedFields (fields : List Field) : List Field :=
  ((fields.filter fun field => !LockMap.isMapType field.typeName) ++
    fields.filter fun field => LockMap.isMapType field.typeName).map Field.relisted

namespace MessageType

mutual

/-- The message that comes back from a snapshot. -/
def relisted : MessageType → MessageType
  | ⟨name, fields, _, messages, enums, reserved⟩ =>
      { name
        fields := relistedFields fields
        oneofs := OneofGroup.grouping (relistedFields fields)
        messages := relistedAll messages
        enums
        reserved }

/-- The messages that come back from a snapshot. -/
def relistedAll : List MessageType → List MessageType
  | [] => []
  | message :: messages => message.relisted :: relistedAll messages

end

/-- Several messages come back one by one. -/
theorem relistedAll_eq_map (messages : List MessageType) :
    relistedAll messages = messages.map relisted := by
  induction messages with
  | nil => rfl
  | cons message messages ih => rw [relistedAll, ih, List.map_cons]

/-- The parts of a message that comes back. -/
theorem relisted_eq (message : MessageType) :
    message.relisted =
      { name := message.name
        fields := relistedFields message.fields
        oneofs := OneofGroup.grouping (relistedFields message.fields)
        messages := message.messages.map relisted
        enums := message.enums
        reserved := message.reserved } := by
  obtain ⟨name, fields, oneofs, messages, enums, reserved⟩ := message
  rw [relisted, relistedAll_eq_map]

section Parts

variable (message : MessageType)

/-- A message keeps its name. -/
@[simp] theorem name_relisted : message.relisted.name = message.name := by rw [relisted_eq]

/-- The fields of a message are listed anew. -/
@[simp] theorem fields_relisted :
    message.relisted.fields = relistedFields message.fields := by rw [relisted_eq]

/-- The oneofs of a message are the grouping of the fields that come back. -/
@[simp] theorem oneofs_relisted :
    message.relisted.oneofs = OneofGroup.grouping (relistedFields message.fields) := by
  rw [relisted_eq]

/-- The messages inside a message come back one by one. -/
@[simp] theorem messages_relisted :
    message.relisted.messages = message.messages.map relisted := by rw [relisted_eq]

/-- A message keeps its enums. -/
@[simp] theorem enums_relisted : message.relisted.enums = message.enums := by rw [relisted_eq]

/-- A message keeps its reservations. -/
@[simp] theorem reserved_relisted :
    message.relisted.reserved = message.reserved := by rw [relisted_eq]

end Parts

end MessageType

/-- The file that comes back from a snapshot. -/
def SchemaFile.relisted (file : SchemaFile) : SchemaFile :=
  { path := Protopath.normalize (Protopath.ofPath file.path)
    package := Text.segments '.' file.packageName
    messages := file.messages.map MessageType.relisted
    enums := file.enums }

/-- A file keeps its enums. -/
@[simp] theorem SchemaFile.enums_relisted (file : SchemaFile) :
    file.relisted.enums = file.enums := by rw [relisted]

/-- The messages of a file come back one by one. -/
@[simp] theorem SchemaFile.messages_relisted (file : SchemaFile) :
    file.relisted.messages = file.messages.map MessageType.relisted := by rw [relisted]

/-- The schema that comes back from a snapshot. -/
def SchemaTree.relisted (tree : SchemaTree) : SchemaTree :=
  ⟨tree.files.map SchemaFile.relisted⟩

section RoundTrip

/-- A plain field is read back. -/
theorem LockField.toField_ofField {message : String} {field : Field}
    (h : LockMap.isMapType field.typeName = false) :
    (LockField.ofField field).toField message = .ok field.relisted := by
  rw [LockField.ofField, LockField.toField, tagOfId?_idOfTag, Field.relisted, h]
  rfl

/-- A map field is read back. -/
theorem LockMap.toField_ofField {message : String} {field : Field}
    (h : LockMap.isMapType field.typeName = true) :
    (LockMap.ofField field).toField message = .ok field.relisted := by
  simp only [LockMap.toField, LockMap.ofField, LockField.ofField, LockField.toField,
    tagOfId?_idOfTag, Field.relisted, h]
  rfl

/-- An enum is read back as it was. -/
theorem LockEnum.toEnum_ofEnum (enumType : EnumType) :
    (LockEnum.ofEnum enumType).toEnum = enumType := by
  simp [LockEnum.toEnum, LockEnum.ofEnum, Function.comp_def]

/-- The enums of a scope are read back as they were. -/
theorem LockEnum.map_toEnum_map_ofEnum (enums : List EnumType) :
    (enums.map LockEnum.ofEnum).map LockEnum.toEnum = enums := by
  rw [List.map_map]
  exact map_eq_self_iff.2 fun enumType _ => LockEnum.toEnum_ofEnum enumType

/-- Reservations are read back as they were. -/
theorem ReservedId.map_toRange_map_ofRange (ranges : List ReservedRange) :
    (ranges.map ReservedId.ofRange).map ReservedId.toRange = ranges := by
  rw [List.map_map]
  exact map_eq_self_iff.2 fun range _ => ReservedId.range_ofRange range

/-- Several messages are read one by one. -/
theorem LockMessage.toMessages_eq_mapM (messages : List LockMessage) :
    LockMessage.toMessages messages = messages.mapM LockMessage.toMessage := by
  induction messages with
  | nil => rfl
  | cons message messages ih => rw [toMessages, ih, List.mapM_cons]

/-- A message is read back. -/
theorem LockMessage.toMessage_ofMessage (message : MessageType) :
    (LockMessage.ofMessage message).toMessage = .ok message.relisted := by
  induction message using MessageType.nested_induction with
  | step message ih =>
      obtain ⟨name, fields, oneofs, messages, enums, reserved⟩ := message
      have hplain : ((fields.filter fun field => !LockMap.isMapType field.typeName).map
          LockField.ofField).mapM (LockField.toField name) =
            .ok ((fields.filter fun field => !LockMap.isMapType field.typeName).map
              Field.relisted) :=
        mapM_map_eq_ok fun field hfield =>
          LockField.toField_ofField (by simpa using (List.mem_filter.1 hfield).2)
      have hmapped : ((fields.filter fun field => LockMap.isMapType field.typeName).map
          LockMap.ofField).mapM (LockMap.toField name) =
            .ok ((fields.filter fun field => LockMap.isMapType field.typeName).map
              Field.relisted) :=
        mapM_map_eq_ok fun field hfield => LockMap.toField_ofField (List.mem_filter.1 hfield).2
      have hmessages := mapM_map_eq_ok ih
      rw [ofMessage, allOfMessages_eq_map, toMessage, hplain, hmapped, toMessages_eq_mapM,
        hmessages, MessageType.relisted_eq]
      change Except.ok (MessageType.addFields _ _) = _
      rw [MessageType.addFields_eq rfl rfl, ReservedId.map_toRange_map_ofRange,
        LockEnum.map_toEnum_map_ofEnum, relistedFields, List.map_append]

/-- A file is read back. -/
theorem LockDefinition.toFile_ofFile (file : SchemaFile) :
    (LockDefinition.ofFile file).toFile = .ok file.relisted := by
  have hmessages := mapM_map_eq_ok fun message (_ : message ∈ file.messages) =>
    LockMessage.toMessage_ofMessage message
  have hpackage : (((if file.package.isEmpty then none else some ⟨file.packageName⟩ :
      Option LockPackage).map (·.name)).getD "") = file.packageName := by
    cases hsegments : file.package with
    | nil => simp [SchemaFile.packageName, hsegments, Text.join]
    | cons segment segments => rfl
  rw [ofFile, toFile, LockMessage.allOfMessages_eq_map, LockMessage.toMessages_eq_mapM, hmessages,
    hpackage, LockEnum.map_toEnum_map_ofEnum]
  rfl

/-- A snapshot is read back. -/
theorem LockFile.toTree_ofTree (tree : SchemaTree) :
    (LockFile.ofTree tree).toTree = .ok tree.relisted := by
  have hfiles := mapM_map_eq_ok fun file (_ : file ∈ tree.files) =>
    LockDefinition.toFile_ofFile file
  rw [ofTree, toTree, hfiles]
  rfl

end RoundTrip

section Canonical

/-- The fields of a message are left as they are: map fields come last, the texts of their types
have the form in which they are written, and no field gives an empty name of a oneof. -/
structure CanonicalFields (fields : List Field) : Prop where
  mapsLast : fields.Pairwise fun earlier later =>
    LockMap.isMapType earlier.typeName = true → LockMap.isMapType later.typeName = true
  mapTexts : ∀ field ∈ fields,
    LockMap.isMapType field.typeName = true → LockMap.IsMapText field.typeName
  oneofsNamed : ∀ field ∈ fields, field.oneof ≠ some ""

/-- A message is canonical at every depth: its fields are left as they are, and its oneofs are the
grouping of its fields. -/
inductive MessageType.Canonical : MessageType → Prop where
  | intro {message : MessageType} (fields : CanonicalFields message.fields)
      (oneofs : message.oneofs = OneofGroup.grouping message.fields)
      (messages : ∀ nested ∈ message.messages, nested.Canonical) : message.Canonical

/-- A file is canonical: its package can be written as dotted text, its path can be marked, and its
messages are canonical. -/
structure SchemaFile.Canonical (file : SchemaFile) : Prop where
  package : ∀ segment ∈ file.package, segment ≠ "" ∧ '.' ∉ segment.toList
  path : ∀ directory base, file.path.toList = directory ++ '/' :: base → '/' ∉ base →
    ¬[':', '/', ':'] <:+: directory ++ [':']
  messages : ∀ message ∈ file.messages, message.Canonical

/-- All files of a schema are canonical. -/
def SchemaTree.Canonical (tree : SchemaTree) : Prop :=
  ∀ file ∈ tree.files, file.Canonical

/-- A field comes back as it was exactly when the text of a map type has the written form and the
name of its oneof is not empty. -/
theorem Field.relisted_eq_self_iff {field : Field} :
    field.relisted = field ↔
      (LockMap.isMapType field.typeName = true → LockMap.IsMapText field.typeName) ∧
        field.oneof ≠ some "" := by
  obtain ⟨name, tag, typeName, repeated, oneof⟩ := field
  have htype : (if LockMap.isMapType typeName then
        mapTypeText (LockMap.splitType typeName).1 (LockMap.splitType typeName).2
      else typeName) = typeName ↔
      (LockMap.isMapType typeName = true → LockMap.IsMapText typeName) := by
    split
    · rename_i h
      rw [LockMap.mapTypeText_splitType_iff h]
      exact ⟨fun htext _ => htext, fun htext => htext h⟩
    · rename_i h
      exact iff_of_true rfl fun hmap => absurd hmap h
  have honeof : (oneof.filter fun name => name ≠ "") = oneof ↔ oneof ≠ some "" := by
    cases oneof with
    | none => simp
    | some oneof => by_cases h : oneof = "" <;> simp [h]
  simp only [relisted, mk.injEq, true_and]
  exact and_congr htype honeof

/-- Whether a field is a map field does not change. -/
theorem Field.isMapType_relisted (field : Field) :
    LockMap.isMapType field.relisted.typeName = LockMap.isMapType field.typeName := by
  cases h : LockMap.isMapType field.typeName with
  | false => simp [relisted, h]
  | true => simp [relisted, h, LockMap.isMapType_mapTypeText]

/-- If the items with a property come last, taking the others first changes nothing. -/
theorem filter_append_filter_of_pairwise {α : Type} {items : List α} {p : α → Bool}
    (h : items.Pairwise fun earlier later => p earlier = true → p later = true) :
    (items.filter fun item => !p item) ++ items.filter p = items := by
  induction items with
  | nil => rfl
  | cons item items ih =>
      obtain ⟨hlater, hitems⟩ := List.pairwise_cons.1 h
      cases hitem : p item with
      | false =>
          rw [List.filter_cons_of_pos (by simp [hitem]), List.filter_cons_of_neg (by simp [hitem]),
            List.cons_append, ih hitems]
      | true =>
          have hall : items.filter p = items :=
            List.filter_eq_self.2 fun later hmem => hlater later hmem hitem
          have hnone : (items.filter fun later => !p later) = [] := by
            refine List.filter_eq_nil_iff.2 fun later hmem => ?_
            simp [hlater later hmem hitem]
          rw [List.filter_cons_of_neg (by simp [hitem]), List.filter_cons_of_pos hitem, hall,
            hnone, List.nil_append]

/-- Fields come back as they were exactly when they are canonical. -/
theorem relistedFields_eq_self_iff {fields : List Field} :
    relistedFields fields = fields ↔ CanonicalFields fields := by
  constructor
  · intro h
    have hmapsLast : (relistedFields fields).Pairwise fun earlier later =>
        LockMap.isMapType earlier.typeName = true → LockMap.isMapType later.typeName = true := by
      rw [relistedFields, List.pairwise_map]
      simp only [Field.isMapType_relisted]
      -- Plain fields demand nothing of what follows, and after a map field there are only such.
      refine List.pairwise_append.2 ⟨?_, ?_, ?_⟩
      · refine List.pairwise_of_forall_mem_list fun earlier hearlier later _ hmap => ?_
        simp [hmap] at hearlier
      · exact List.pairwise_of_forall_mem_list fun _ _ later hlater _ =>
          (List.mem_filter.1 hlater).2
      · exact fun _ _ later hlater _ => (List.mem_filter.1 hlater).2
    rw [h] at hmapsLast
    rw [relistedFields, filter_append_filter_of_pairwise hmapsLast, map_eq_self_iff] at h
    refine ⟨hmapsLast, fun field hfield => ?_, fun field hfield => ?_⟩
    · exact (Field.relisted_eq_self_iff.1 (h field hfield)).1
    · exact (Field.relisted_eq_self_iff.1 (h field hfield)).2
  · intro h
    rw [relistedFields, filter_append_filter_of_pairwise h.mapsLast, map_eq_self_iff]
    intro field hfield
    exact Field.relisted_eq_self_iff.2 ⟨h.mapTexts field hfield, h.oneofsNamed field hfield⟩

/-- A message comes back as it was exactly when it is canonical. -/
theorem MessageType.relisted_eq_self_iff {message : MessageType} :
    message.relisted = message ↔ message.Canonical := by
  induction message using MessageType.nested_induction with
  | step message ih =>
      obtain ⟨name, fields, oneofs, messages, enums, reserved⟩ := message
      rw [relisted_eq, mk.injEq]
      constructor
      · rintro ⟨-, hfields, honeofs, hmessages, -, -⟩
        have hnested := map_eq_self_iff.1 hmessages
        refine .intro (relistedFields_eq_self_iff.1 hfields) ?_ ?_
        · rw [← honeofs, hfields]
        · exact fun nested hmem => (ih nested hmem).1 (hnested nested hmem)
      · rintro ⟨hfields, honeofs, hmessages⟩
        have hsame := relistedFields_eq_self_iff.2 hfields
        refine ⟨rfl, hsame, ?_, ?_, rfl, rfl⟩
        · rw [hsame]
          exact honeofs.symm
        · exact map_eq_self_iff.2 fun nested hmem => (ih nested hmem).2 (hmessages nested hmem)

/-- A file comes back as it was exactly when it is canonical. -/
theorem SchemaFile.relisted_eq_self_iff {file : SchemaFile} :
    file.relisted = file ↔ file.Canonical := by
  obtain ⟨path, package, messages, enums⟩ := file
  simp only [relisted, mk.injEq, and_true]
  have hdot : "." = String.singleton '.' := rfl
  rw [Protopath.normalize_ofPath_eq_iff, SchemaFile.packageName, hdot,
    Text.segments_join_eq_iff, map_eq_self_iff]
  constructor
  · rintro ⟨hpath, hpackage, hmessages⟩
    exact ⟨hpackage, hpath, fun message hmessage =>
      MessageType.relisted_eq_self_iff.1 (hmessages message hmessage)⟩
  · rintro ⟨hpackage, hpath, hmessages⟩
    exact ⟨hpath, hpackage, fun message hmessage =>
      MessageType.relisted_eq_self_iff.2 (hmessages message hmessage)⟩

/-- A schema comes back as it was exactly when it is canonical. -/
theorem SchemaTree.relisted_eq_self_iff {tree : SchemaTree} :
    tree.relisted = tree ↔ tree.Canonical := by
  obtain ⟨files⟩ := tree
  rw [relisted, mk.injEq, map_eq_self_iff]
  exact forall₂_congr fun file _ => SchemaFile.relisted_eq_self_iff

end Canonical

section Kept

/-- What a snapshot keeps of a message: its name, the names, tags and labels of its fields, its
enums, its reservations and all of this for the messages inside it. -/
inductive MessageType.Kept : MessageType → MessageType → Prop where
  | intro {message result : MessageType} (name : result.name = message.name)
      (fields : (result.fields.map fun field => (field.name, field.tag, field.repeated)).Perm
        (message.fields.map fun field => (field.name, field.tag, field.repeated)))
      (enums : result.enums = message.enums) (reserved : result.reserved = message.reserved)
      (messages : List.Forall₂ MessageType.Kept message.messages result.messages) :
      MessageType.Kept message result

/-- What a snapshot keeps of a file: its enums, and what it keeps of its messages. -/
structure SchemaFile.Kept (file result : SchemaFile) : Prop where
  enums : result.enums = file.enums
  messages : List.Forall₂ MessageType.Kept file.messages result.messages

/-- The fields that come back are the fields, in another order, as far as one looks at what does not
change. -/
theorem relistedFields_perm {α : Type} {view : Field → α}
    (h : ∀ field : Field, view field.relisted = view field) (fields : List Field) :
    ((relistedFields fields).map view).Perm (fields.map view) := by
  have hview : view ∘ Field.relisted = view := funext h
  rw [relistedFields, List.map_map, hview]
  exact List.Perm.map _ (List.perm_append_comm.trans (List.filter_append_perm _ _))

/-- A message that comes back is what a snapshot keeps of it. -/
theorem MessageType.kept_relisted (message : MessageType) : message.Kept message.relisted := by
  induction message using MessageType.nested_induction with
  | step message ih =>
      refine .intro message.name_relisted ?_ message.enums_relisted message.reserved_relisted ?_
      · rw [fields_relisted]
        exact relistedFields_perm (fun _ => rfl) message.fields
      · rw [messages_relisted, List.forall₂_map_right_iff, List.forall₂_same]
        exact ih

end Kept

/-- A snapshot can be read back. The schema is the same again exactly when it is canonical, and
enums, reservations, tags and nesting are always kept. -/
theorem snapshot_exact (tree : SchemaTree) :
    ∃ result, (LockFile.ofTree tree).toTree = .ok result ∧
      (result = tree ↔ tree.Canonical) ∧
      List.Forall₂ SchemaFile.Kept tree.files result.files := by
  refine ⟨tree.relisted, LockFile.toTree_ofTree tree, SchemaTree.relisted_eq_self_iff, ?_⟩
  rw [SchemaTree.relisted, List.forall₂_map_right_iff, List.forall₂_same]
  intro file _
  refine ⟨file.enums_relisted, ?_⟩
  rw [SchemaFile.messages_relisted, List.forall₂_map_right_iff, List.forall₂_same]
  exact fun message _ => message.kept_relisted

end SchemaGate
