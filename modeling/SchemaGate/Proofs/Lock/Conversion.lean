import SchemaGate.Loading
import SchemaGate.Proofs.Lock.Snapshot

/-!
# The schema of a lock file

`LockFile.Lists` says, part by part and at every depth, which schema a lock file lists: one file for
each definition, in it the messages and enums of the definition, and in a message its plain fields
followed by its map fields. `LockFile.listings` goes through the fields of a lock file in the order
in which they are read. The main statement is `LockFile.conversion_exact`: reading stops at the
first field whose id is no tag, and otherwise gives the schema that is listed.
-/

namespace SchemaGate

/-- The id of a field is a tag. -/
def LockField.HasTag (field : LockField) : Prop :=
  0 ≤ field.id.toInt ∧ field.id.toInt ≤ 4294967295

instance (field : LockField) : Decidable field.HasTag :=
  inferInstanceAs (Decidable (_ ∧ _))

/-- The field of a schema is the one that is listed. An empty name of a oneof counts as none. -/
structure LockField.Lists (listed : LockField) (field : Field) : Prop where
  name : field.name = listed.name
  tag : (field.tag.toNat : Int) = listed.id.toInt
  typeName : field.typeName = listed.typeName
  repeated : field.repeated = listed.isRepeated
  oneof : ∀ name, field.oneof = some name ↔ listed.oneofParent = some name ∧ name ≠ ""

/-- The field of a schema is the map field that is listed. -/
def LockMap.Lists (listed : LockMap) (field : Field) : Prop :=
  { listed.field with typeName := mapTypeText listed.keyType listed.field.typeName }.Lists field

/-- The reserved range is the one that is listed. -/
inductive ReservedId.Lists : ReservedId → ReservedRange → Prop where
  | single (number : Int32) : Lists (.single number) ⟨number, number⟩
  | range (start stop : Int32) : Lists (.range start stop) ⟨start, stop⟩

/-- The enum of a schema is the one that is listed. -/
structure LockEnum.Lists (listed : LockEnum) (enumType : EnumType) : Prop where
  name : enumType.name = listed.name
  constants : List.Forall₂
    (fun entry constant => constant.name = entry.name ∧ constant.value = entry.integer)
    listed.enumFields enumType.constants
  allowAlias : enumType.allowAlias = listed.allowAlias
  ranges : List.Forall₂ ReservedId.Lists listed.reservedIds enumType.reserved.ranges
  reservedNames : enumType.reserved.names = listed.reservedNames

/-- The fields of a message are its plain fields and then its map fields, as they are listed. -/
def LockMessage.ListsFields (listed : LockMessage) (fields : List Field) : Prop :=
  ∃ plain mapped, fields = plain ++ mapped ∧
    List.Forall₂ LockField.Lists listed.fields plain ∧
    List.Forall₂ LockMap.Lists listed.maps mapped

/-- The message of a schema is the one that is listed, at every depth. -/
inductive LockMessage.Lists : LockMessage → MessageType → Prop where
  | intro {listed : LockMessage} {message : MessageType}
      (name : message.name = listed.name)
      (fields : listed.ListsFields message.fields)
      (ranges : List.Forall₂ ReservedId.Lists listed.reservedIds message.reserved.ranges)
      (reservedNames : message.reserved.names = listed.reservedNames)
      (messages : List.Forall₂ Lists listed.messages message.messages)
      (enums : List.Forall₂ LockEnum.Lists listed.enums message.enums) :
      Lists listed message

/-- The file of a schema is the one that a definition lists. -/
structure LockDefinition.Lists (listed : LockDefinition) (file : SchemaFile) : Prop where
  path : file.path = Protopath.normalize listed.protopath
  package : file.package =
    Text.segments '.' ((listed.entry.package.map (·.name)).getD "")
  messages : List.Forall₂ LockMessage.Lists listed.entry.messages file.messages
  enums : List.Forall₂ LockEnum.Lists listed.entry.enums file.enums

/-- The schema is the one that is listed. -/
def LockFile.Lists (lock : LockFile) (tree : SchemaTree) : Prop :=
  List.Forall₂ LockDefinition.Lists lock.definitions tree.files

/-- A field of a lock file and the name of the message in which it stands. -/
structure FieldListing where
  message : String
  field : LockField
  deriving DecidableEq, Repr

/-- The fault of a field whose id is no tag. -/
def FieldListing.fault? (listing : FieldListing) : Option FieldIdError :=
  if listing.field.HasTag then none
  else some ⟨listing.field.name, listing.message, listing.field.id⟩

namespace LockMessage

/-- A field is one of the plain fields or map fields of a message. -/
def HasField (message : LockMessage) (field : LockField) : Prop :=
  field ∈ message.fields ∨ ∃ map ∈ message.maps, map.field = field

/-- A message is another one or is nested in it at some depth. -/
inductive Inside (message : LockMessage) : LockMessage → Prop where
  | self : Inside message message
  | nested {inner outer : LockMessage} (hnested : inner ∈ outer.messages)
      (hinside : Inside message inner) : Inside message outer

mutual

/-- The fields inside a message: its own fields, its map fields, then those of its messages. -/
def listings : LockMessage → List FieldListing
  | ⟨name, fields, maps, _, _, messages, _⟩ =>
      fields.map (fun field => ⟨name, field⟩) ++ maps.map (fun map => ⟨name, map.field⟩) ++
        listingsOfAll messages

/-- The fields inside several messages, one message after the other. -/
def listingsOfAll : List LockMessage → List FieldListing
  | [] => []
  | message :: messages => message.listings ++ listingsOfAll messages

end

end LockMessage

namespace LockFile

/-- The fields of a lock file, definition by definition. -/
def listings (lock : LockFile) : List FieldListing :=
  lock.definitions.flatMap fun definition =>
    LockMessage.listingsOfAll definition.entry.messages

/-- A message stands in some definition of a lock file, at some depth. -/
def Declares (lock : LockFile) (message : LockMessage) : Prop :=
  ∃ definition ∈ lock.definitions, ∃ outer ∈ definition.entry.messages, message.Inside outer

end LockFile

namespace LockMessage

/-- A property that every message has if all messages nested in it have it holds of all messages. -/
@[elab_as_elim]
theorem nested_induction {motive : LockMessage → Prop}
    (step : ∀ message, (∀ nested ∈ message.messages, motive nested) → motive message)
    (message : LockMessage) : motive message :=
  step message fun nested _ => nested_induction step nested
termination_by message
decreasing_by
  rename_i hnested
  have hlt := List.sizeOf_lt_of_mem hnested
  cases message
  simp only [mk.sizeOf_spec] at hlt ⊢
  omega

/-- The fields inside several messages are those inside each of them. -/
theorem listingsOfAll_eq_flatMap (messages : List LockMessage) :
    listingsOfAll messages = messages.flatMap listings := by
  induction messages with
  | nil => rfl
  | cons message messages ih => rw [listingsOfAll, ih, List.flatMap_cons]

/-- The fields inside a message are its own and those inside its messages. -/
theorem listings_eq (message : LockMessage) :
    message.listings =
      message.fields.map (fun field => ⟨message.name, field⟩) ++
        message.maps.map (fun map => ⟨message.name, map.field⟩) ++
        message.messages.flatMap listings := by
  obtain ⟨name, fields, maps, reservedIds, reservedNames, messages, enums⟩ := message
  rw [listings, listingsOfAll_eq_flatMap]

/-- A field is listed among those inside a message exactly if it is a field of a message at some
depth. -/
theorem mem_listings_iff {message : LockMessage} {listing : FieldListing} :
    listing ∈ message.listings ↔
      ∃ inner : LockMessage, inner.Inside message ∧ inner.name = listing.message ∧
        inner.HasField listing.field := by
  induction message using nested_induction with
  | step message ih =>
      rw [listings_eq, List.mem_append, List.mem_append, List.mem_map, List.mem_map,
        List.mem_flatMap]
      constructor
      · intro h
        obtain (⟨field, hfield, rfl⟩ | ⟨map, hmap, rfl⟩) | ⟨nested, hnested, hlisted⟩ := h
        · exact ⟨message, .self, rfl, .inl hfield⟩
        · exact ⟨message, .self, rfl, .inr ⟨map, hmap, rfl⟩⟩
        · obtain ⟨inner, hinside, hhas⟩ := (ih nested hnested).1 hlisted
          exact ⟨inner, .nested hnested hinside, hhas⟩
      · intro h
        obtain ⟨inner, hinside, hname, hhas⟩ := h
        cases hinside with
        | self =>
            obtain hfield | ⟨map, hmap, hfield⟩ := hhas
            · exact .inl (.inl ⟨listing.field, hfield, by rw [hname]⟩)
            · exact .inl (.inr ⟨map, hmap, by rw [hname, hfield]⟩)
        | nested hnested hinside =>
            exact .inr ⟨_, hnested, (ih _ hnested).2 ⟨inner, hinside, hname, hhas⟩⟩

end LockMessage

/-- A field is listed in a lock file exactly if it is a field of a message that the file declares.
-/
theorem LockFile.mem_listings_iff {lock : LockFile} {listing : FieldListing} :
    listing ∈ lock.listings ↔
      ∃ message, lock.Declares message ∧ message.name = listing.message ∧
        message.HasField listing.field := by
  simp only [listings, LockMessage.listingsOfAll_eq_flatMap, List.mem_flatMap,
    LockMessage.mem_listings_iff, Declares]
  constructor
  · intro h
    obtain ⟨definition, hdefinition, outer, houter, inner, hinside, hhas⟩ := h
    exact ⟨inner, ⟨definition, hdefinition, outer, houter, hinside⟩, hhas⟩
  · intro h
    obtain ⟨inner, ⟨definition, hdefinition, outer, houter, hinside⟩, hhas⟩ := h
    exact ⟨definition, hdefinition, outer, houter, inner, hinside, hhas⟩

/-- A field has a fault exactly if its id is no tag. -/
theorem FieldListing.fault?_eq_some_iff {listing : FieldListing} {fault : FieldIdError} :
    listing.fault? = some fault ↔
      ¬listing.field.HasTag ∧
        fault = ⟨listing.field.name, listing.message, listing.field.id⟩ := by
  unfold fault?
  by_cases htag : listing.field.HasTag
  · simp [htag]
  · simp [htag, eq_comm]

/-- A field has no fault exactly if its id is a tag. -/
theorem FieldListing.fault?_eq_none_iff {listing : FieldListing} :
    listing.fault? = none ↔ listing.field.HasTag := by
  unfold fault?
  by_cases htag : listing.field.HasTag <;> simp [htag]

section Faults

/-- The tag of a field is its id, if that is a tag. -/
theorem LockField.tagOfId?_id (field : LockField) :
    tagOfId? field.id =
      if field.HasTag then some (UInt32.ofNat field.id.toInt.toNat) else none := by
  have hid : 0 ≤ field.id.toInt ∧ field.id.toInt < 0x100000000 ↔ field.HasTag := by
    unfold HasTag
    omega
  rw [tagOfId?, if_congr hid rfl rfl]

/-- The conversion of a field has the fault of the field. -/
theorem LockField.faultOf?_toField (message : String) (field : LockField) :
    faultOf? (field.toField message) = FieldListing.fault? ⟨message, field⟩ := by
  rw [toField, tagOfId?_id, FieldListing.fault?]
  by_cases htag : field.HasTag
  · rw [if_pos htag, if_pos htag]
    rfl
  · rw [if_neg htag, if_neg htag]
    rfl

/-- The conversion of a map field has the fault of the field. -/
theorem LockMap.faultOf?_toField (message : String) (map : LockMap) :
    faultOf? (map.toField message) = FieldListing.fault? ⟨message, map.field⟩ := by
  rw [toField, faultOf?_bind_of_none fun field => rfl, LockField.faultOf?_toField]

/-- The conversion of a message has the first fault among the fields inside it. -/
theorem LockMessage.faultOf?_toMessage (message : LockMessage) :
    faultOf? message.toMessage = message.listings.findSome? FieldListing.fault? := by
  induction message using nested_induction with
  | step message ih =>
      have hnested : faultOf? (message.messages.mapM toMessage) =
          (message.messages.flatMap listings).findSome? FieldListing.fault? := by
        rw [faultOf?_mapM, findSome?_flatMap]
        exact findSome?_congr ih
      have hplain : faultOf? (message.fields.mapM (LockField.toField message.name)) =
          (message.fields.map (FieldListing.mk message.name)).findSome? FieldListing.fault? := by
        rw [faultOf?_mapM, List.findSome?_map]
        exact findSome?_congr fun field _ => field.faultOf?_toField message.name
      have hmapped : faultOf? (message.maps.mapM (LockMap.toField message.name)) =
          (message.maps.map fun map => FieldListing.mk message.name map.field).findSome?
            FieldListing.fault? := by
        rw [faultOf?_mapM, List.findSome?_map]
        exact findSome?_congr fun map _ => map.faultOf?_toField message.name
      rw [listings_eq, List.findSome?_append, List.findSome?_append, Option.or_assoc, ← hplain,
        ← hmapped, ← hnested]
      obtain ⟨name, fields, maps, reservedIds, reservedNames, messages, enums⟩ := message
      rw [toMessage, toMessages_eq_mapM]
      -- Building the message out of its parts cannot fail.
      refine faultOf?_bind fun plain => faultOf?_bind fun mapped => ?_
      exact faultOf?_bind_of_none fun nested => rfl

/-- The conversion of a definition has the first fault among the fields inside its messages. -/
theorem LockDefinition.faultOf?_toFile (definition : LockDefinition) :
    faultOf? definition.toFile =
      (LockMessage.listingsOfAll definition.entry.messages).findSome? FieldListing.fault? := by
  rw [toFile, LockMessage.toMessages_eq_mapM, LockMessage.listingsOfAll_eq_flatMap,
    faultOf?_bind_of_none fun messages => rfl, faultOf?_mapM, findSome?_flatMap]
  exact findSome?_congr fun message _ => message.faultOf?_toMessage

/-- The conversion of a lock file has the first fault among its fields. -/
theorem LockFile.faultOf?_toTree (lock : LockFile) :
    faultOf? lock.toTree = lock.listings.findSome? FieldListing.fault? := by
  rw [toTree, listings, faultOf?_bind_of_none fun files => rfl, faultOf?_mapM,
    findSome?_flatMap]
  exact findSome?_congr fun definition _ => definition.faultOf?_toFile

end Faults

section Contents

/-- A field that is converted is the one that is listed. -/
theorem LockField.lists_of_toField {message : String} {listed : LockField} {field : Field}
    (h : listed.toField message = .ok field) : listed.Lists field := by
  rw [toField, tagOfId?_id] at h
  by_cases htag : listed.HasTag
  · rw [if_pos htag] at h
    cases h
    obtain ⟨hlow, hhigh⟩ := htag
    refine ⟨rfl, ?_, rfl, rfl, fun name => ?_⟩
    · show ((UInt32.ofNat listed.id.toInt.toNat).toNat : Int) = listed.id.toInt
      rw [UInt32.toNat_ofNat']
      omega
    · show listed.oneofParent.filter (fun parent => parent ≠ "") = some name ↔ _
      rw [Option.filter_eq_some_iff, decide_eq_true_iff]
  · rw [if_neg htag] at h
    cases h

/-- A map field that is converted is the one that is listed. -/
theorem LockMap.lists_of_toField {message : String} {listed : LockMap} {field : Field}
    (h : listed.toField message = .ok field) : listed.Lists field := by
  obtain ⟨value, hvalue, h⟩ := exists_of_bind_eq_ok h
  cases h
  obtain ⟨hname, htag, htypeName, hrepeated, honeof⟩ := LockField.lists_of_toField hvalue
  exact ⟨hname, htag, congrArg (mapTypeText listed.keyType) htypeName, hrepeated, honeof⟩

/-- The reserved ranges of ids are those that are listed. -/
theorem ReservedId.lists_map_toRange (ids : List ReservedId) :
    List.Forall₂ ReservedId.Lists ids (ids.map ReservedId.toRange) := by
  rw [List.forall₂_map_right_iff, List.forall₂_same]
  intro id _
  cases id with
  | single number => exact .single number
  | range start stop => exact .range start stop

/-- Enums that are converted are those that are listed. -/
theorem LockEnum.lists_map_toEnum (enums : List LockEnum) :
    List.Forall₂ LockEnum.Lists enums (enums.map LockEnum.toEnum) := by
  rw [List.forall₂_map_right_iff, List.forall₂_same]
  intro listed _
  refine ⟨rfl, ?_, rfl, ReservedId.lists_map_toRange listed.reservedIds, rfl⟩
  rw [toEnum, List.forall₂_map_right_iff, List.forall₂_same]
  exact fun entry _ => ⟨rfl, rfl⟩

/-- A message that is converted is the one that is listed. -/
theorem LockMessage.lists_of_toMessage {listed : LockMessage} {message : MessageType}
    (h : listed.toMessage = .ok message) : listed.Lists message := by
  induction listed using nested_induction generalizing message with
  | step listed ih =>
      obtain ⟨name, fields, maps, reservedIds, reservedNames, messages, enums⟩ := listed
      rw [toMessage, toMessages_eq_mapM] at h
      obtain ⟨plain, hplain, h⟩ := exists_of_bind_eq_ok h
      obtain ⟨mapped, hmapped, h⟩ := exists_of_bind_eq_ok h
      obtain ⟨nested, hnested, h⟩ := exists_of_bind_eq_ok h
      cases h
      rw [MessageType.addFields_eq rfl rfl]
      have hfields : ListsFields ⟨name, fields, maps, reservedIds, reservedNames, messages, enums⟩
          (plain ++ mapped) :=
        ⟨plain, mapped, rfl,
          forall₂_of_reads hplain fun _ _ _ hread => LockField.lists_of_toField hread,
          forall₂_of_reads hmapped fun _ _ _ hread => LockMap.lists_of_toField hread⟩
      exact .intro rfl hfields (ReservedId.lists_map_toRange reservedIds) rfl
        (forall₂_of_reads hnested fun inner hmem _ hread => ih inner hmem hread)
        (LockEnum.lists_map_toEnum enums)

/-- A file that is converted is the one that is listed. -/
theorem LockDefinition.lists_of_toFile {listed : LockDefinition} {file : SchemaFile}
    (h : listed.toFile = .ok file) : listed.Lists file := by
  rw [toFile, LockMessage.toMessages_eq_mapM] at h
  obtain ⟨messages, hmessages, h⟩ := exists_of_bind_eq_ok h
  cases h
  exact ⟨rfl, rfl,
    forall₂_of_reads hmessages fun _ _ _ hread => LockMessage.lists_of_toMessage hread,
    LockEnum.lists_map_toEnum listed.entry.enums⟩

/-- A schema that is converted is the one that is listed. -/
theorem LockFile.lists_of_toTree {lock : LockFile} {tree : SchemaTree}
    (h : lock.toTree = .ok tree) : lock.Lists tree := by
  obtain ⟨files, hfiles, h⟩ := exists_of_bind_eq_ok h
  cases h
  exact forall₂_of_reads hfiles fun _ _ _ hread => LockDefinition.lists_of_toFile hread

end Contents

/-- A lock file is not converted exactly if some message that it declares has a field whose id is no
tag. The error names the first such field in the order in which fields are read, with its message
and its id. Otherwise the schema is the one that the lock file lists. -/
theorem LockFile.conversion_exact (lock : LockFile) :
    ((∃ fault, lock.toTree = .error fault) ↔
      ∃ message, lock.Declares message ∧ ∃ field, message.HasField field ∧ ¬field.HasTag) ∧
    match lock.toTree with
    | .error fault =>
        ∃ earlier message field later, lock.listings = earlier ++ ⟨message, field⟩ :: later ∧
          (∀ listing ∈ earlier, listing.field.HasTag) ∧ ¬field.HasTag ∧
          (LoadError.badFieldId fault).message =
            "Parse error: field '" ++ field.name ++ "' in message '" ++ message ++
              "' has invalid id " ++ toString field.id.toInt
    | .ok tree => lock.Lists tree := by
  have hfault (fault : FieldIdError) : lock.toTree = .error fault ↔
      lock.listings.findSome? FieldListing.fault? = some fault := by
    rw [← lock.faultOf?_toTree, faultOf?_eq_some_iff]
  constructor
  · simp only [hfault]
    constructor
    · intro h
      obtain ⟨fault, h⟩ := h
      obtain ⟨listing, hlisted, hbad⟩ := List.exists_of_findSome?_eq_some h
      obtain ⟨message, hdeclared, -, hhas⟩ := mem_listings_iff.1 hlisted
      exact ⟨message, hdeclared, listing.field, hhas, (FieldListing.fault?_eq_some_iff.1 hbad).1⟩
    · intro h
      obtain ⟨message, hdeclared, field, hhas, hbad⟩ := h
      have hlisted : ⟨message.name, field⟩ ∈ lock.listings :=
        mem_listings_iff.2 ⟨message, hdeclared, rfl, hhas⟩
      cases hfirst : lock.listings.findSome? FieldListing.fault? with
      | some fault => exact ⟨fault, rfl⟩
      | none =>
          have hnone := List.findSome?_eq_none_iff.1 hfirst _ hlisted
          exact absurd (FieldListing.fault?_eq_none_iff.1 hnone) hbad
  · cases htree : lock.toTree with
    | error fault =>
        obtain ⟨earlier, ⟨message, field⟩, later, hlistings, hfound, hearlier⟩ :=
          List.findSome?_eq_some_iff.1 ((hfault fault).1 htree)
        obtain ⟨hbad, rfl⟩ := FieldListing.fault?_eq_some_iff.1 hfound
        exact ⟨earlier, message, field, later, hlistings,
          fun listing hmem => FieldListing.fault?_eq_none_iff.1 (hearlier listing hmem), hbad, rfl⟩
    | ok tree => exact lists_of_toTree htree

end SchemaGate
