import SchemaGate.Proofs.Loading.Grouped
import SchemaGate.Proofs.Lock.Conversion
import SchemaGate.Proofs.Validation.Issues

/-!
# Oneofs of loaded schemas

A message lists its oneofs beside its fields, and nothing in the type of a message keeps the two
lists in agreement. `MessageType.OneofsOfFields` says that they agree. The main statement is
`oneofs_of_loaded`: they do in every message that a reader makes, so that validation never finds
fault with the members of a oneof.
-/

namespace SchemaGate

namespace OneofGroup

/-- Some field gives the first name of a oneof before any field gives the second. -/
def NamedBefore (fields : List Field) (oneof other : String) : Prop :=
  ∃ earlier field later, fields = earlier ++ field :: later ∧ field.oneof = some oneof ∧
    ∀ before ∈ earlier, before.oneof ≠ some other

/-- What one name comes before in some fields it also comes before in these and more fields. -/
theorem NamedBefore.append {fields : List Field} {oneof other : String}
    (h : NamedBefore fields oneof other) (others : List Field) :
    NamedBefore (fields ++ others) oneof other := by
  obtain ⟨earlier, field, later, rfl, honeof, hearlier⟩ := h
  refine ⟨earlier, field, later ++ others, ?_, honeof, hearlier⟩
  rw [List.append_assoc, List.cons_append]

/-- The names of oneofs are listed in the order in which fields first give them. -/
theorem pairwise_namesOf (fields : List Field) :
    (namesOf fields).Pairwise (NamedBefore fields) := by
  induction fields using List.reverseRecOn with
  | nil => exact .nil
  | append_singleton fields field ih =>
      have hlisted : (namesOf fields).Pairwise (NamedBefore (fields ++ [field])) :=
        ih.imp fun h => h.append [field]
      cases honeof : field.oneof with
      | none =>
          rw [namesOf_append_of_none honeof]
          exact hlisted
      | some oneof =>
          rw [namesOf_append_of_some honeof]
          split
          · rw [List.append_nil]
            exact hlisted
          · rename_i hnew
            refine List.pairwise_append.2 ⟨hlisted, List.pairwise_singleton _ _, ?_⟩
            intro name hname last hlast
            rw [List.mem_singleton.1 hlast]
            -- No field before the last one gives the new name.
            obtain ⟨first, hfirst, hgives⟩ := mem_namesOf_iff.1 hname
            obtain ⟨earlier, later, rfl⟩ := List.append_of_mem hfirst
            refine NamedBefore.append ⟨earlier, first, later, rfl, hgives, ?_⟩ [field]
            intro before hbefore hsame
            exact hnew (mem_namesOf_iff.2 ⟨before, List.mem_append_left _ hbefore, hsame⟩)

end OneofGroup

namespace MessageType

/-- The oneofs of a message are those that its fields give: under different names, in the order in
which fields first give them, each with the fields that give its name, in their order. -/
structure OneofsOfFields (message : MessageType) : Prop where
  distinct : (message.oneofs.map (·.name)).Nodup
  ordered : message.oneofs.Pairwise fun group later =>
    OneofGroup.NamedBefore message.fields group.name later.name
  named : ∀ name, (∃ group ∈ message.oneofs, group.name = name) ↔
    ∃ field ∈ message.fields, field.oneof = some name
  notEmpty : ∀ group ∈ message.oneofs, group.members ≠ []
  members : ∀ group ∈ message.oneofs, group.members =
    (message.fields.filter fun field => field.oneof = some group.name).map (·.name)

/-- A message whose oneofs are the grouping of its fields has those that its fields give. -/
theorem oneofsOfFields_of_eq {message : MessageType}
    (h : message.oneofs = OneofGroup.grouping message.fields) : message.OneofsOfFields := by
  have hnames : (OneofGroup.grouping message.fields).map (·.name) =
      OneofGroup.namesOf message.fields := by
    rw [OneofGroup.grouping, List.map_map]
    exact List.map_id _
  have hmembers : ∀ group ∈ OneofGroup.grouping message.fields,
      group.members = OneofGroup.membersOf message.fields group.name := by
    intro group hgroup
    obtain ⟨name, -, rfl⟩ := List.mem_map.1 hgroup
    rfl
  constructor
  · rw [h, hnames]
    exact OneofGroup.nodup_namesOf message.fields
  · rw [h, OneofGroup.grouping, List.pairwise_map]
    exact OneofGroup.pairwise_namesOf message.fields
  · intro name
    rw [h, OneofGroup.exists_mem_grouping_iff]
  · intro group hgroup hnone
    rw [h] at hgroup
    obtain ⟨field, hfield, honeof⟩ :=
      OneofGroup.exists_mem_grouping_iff.1 ⟨group, hgroup, rfl⟩
    rw [hmembers group hgroup, OneofGroup.membersOf, List.map_eq_nil_iff,
      List.filter_eq_nil_iff] at hnone
    exact hnone field hfield (decide_eq_true honeof)
  · intro group hgroup
    rw [h] at hgroup
    exact hmembers group hgroup

/-- A message is another one or is nested in it at some depth. -/
inductive Inside (message : MessageType) : MessageType → Prop where
  | self : Inside message message
  | nested {inner outer : MessageType} (hnested : inner ∈ outer.messages)
      (hinside : Inside message inner) : Inside message outer

/-- What is nested in a grouped message is grouped. -/
theorem Inside.grouped {message outer : MessageType} (hinside : message.Inside outer)
    (h : outer.Grouped) : message.Grouped := by
  induction hinside with
  | self => exact h
  | nested hnested _ ih =>
      cases h with
      | intro _ hmessages => exact ih (hmessages _ hnested)

/-- What is nested in a listed message is listed inside it. -/
theorem Inside.exists_listed {message outer : MessageType} (hinside : message.Inside outer)
    {listed : LockMessage} (h : listed.Lists outer) :
    ∃ inner : LockMessage, inner.Inside listed ∧ inner.Lists message := by
  induction hinside generalizing listed with
  | self => exact ⟨listed, .self, h⟩
  | nested hnested _ ih =>
      cases h with
      | intro _ _ _ _ hmessages _ =>
          obtain ⟨inner, hinner, hlists⟩ := exists_of_mem_of_forall₂ hmessages hnested
          obtain ⟨source, hsource, hlisted⟩ := ih hlists
          exact ⟨source, .nested hinner hsource, hlisted⟩

end MessageType

namespace SchemaTree

/-- A message stands in some file of a schema, at some depth. -/
def Contains (tree : SchemaTree) (message : MessageType) : Prop :=
  ∃ file ∈ tree.files, ∃ outer ∈ file.messages, message.Inside outer

/-- Every message of a grouped schema has the oneofs that its fields give. -/
theorem Grouped.oneofsOfFields {tree : SchemaTree} (h : tree.Grouped) {message : MessageType}
    (hmessage : tree.Contains message) : message.OneofsOfFields := by
  obtain ⟨file, hfile, outer, houter, hinside⟩ := hmessage
  cases hinside.grouped (h file hfile outer houter) with
  | intro honeofs _ => exact MessageType.oneofsOfFields_of_eq honeofs

/-- All files of two grouped schemas together are grouped. -/
theorem Grouped.merge {tree other : SchemaTree} (h : tree.Grouped) (hother : other.Grouped) :
    (tree.merge other).Grouped := by
  intro file hfile
  rcases List.mem_append.1 hfile with hfile | hfile
  · exact h file hfile
  · exact hother file hfile

/-- All files of several grouped schemas together are grouped. -/
theorem Grouped.foldl_merge {tree : SchemaTree} (h : tree.Grouped) {trees : List SchemaTree}
    (htrees : ∀ other ∈ trees, other.Grouped) : (trees.foldl SchemaTree.merge tree).Grouped := by
  induction trees generalizing tree with
  | nil => exact h
  | cons other trees ih =>
      exact ih (h.merge (htrees other List.mem_cons_self)) fun later hlater =>
        htrees later (List.mem_cons_of_mem _ hlater)

end SchemaTree

/-- Every message of a listed schema is listed. -/
theorem LockFile.Lists.exists_listed {lock : LockFile} {tree : SchemaTree} (h : lock.Lists tree)
    {message : MessageType} (hmessage : tree.Contains message) :
    ∃ listed, lock.Declares listed ∧ listed.Lists message := by
  obtain ⟨file, hfile, outer, houter, hinside⟩ := hmessage
  obtain ⟨definition, hdefinition, hlists⟩ := exists_of_mem_of_forall₂ h hfile
  obtain ⟨source, hsource, hlisted⟩ := exists_of_mem_of_forall₂ hlists.messages houter
  obtain ⟨inner, hinner, hinnerLists⟩ := hinside.exists_listed hlisted
  exact ⟨inner, ⟨definition, hdefinition, source, hsource, hinner⟩, hinnerLists⟩

namespace Validation

/-- No issue is about a member of a oneof that is no field. -/
def OneofMembersKnown (issues : List Issue) : Prop :=
  ∀ issue ∈ issues, ∀ oneof member, issue.violation ≠ .unknownOneofMember oneof member

/-- A type whose oneofs are those that its fields give has no unknown member of a oneof. -/
theorem TypeFault.exists_unknown_member {definition : TypeDef} {part : TypePart}
    {oneof member : String} (h : TypeFault definition part (.unknownOneofMember oneof member)) :
    ∃ message, definition = .message message ∧ ∃ group ∈ message.oneofs, ∃ name ∈ group.members,
      ∀ field ∈ message.fields, field.name ≠ name := by
  cases h with
  | field _ hfault => cases hfault
  | constant _ hfault => cases hfault
  | oneofMember honeof hmember hnone =>
      exact ⟨_, rfl, _, List.mem_of_getElem? honeof, _, List.mem_of_getElem? hmember, hnone⟩

/-- The members of the oneofs of a grouped schema are known. -/
theorem oneofMembersKnown_of_grouped {tree : SchemaTree} (h : tree.Grouped) :
    OneofMembersKnown (issues tree) := by
  intro issue hissue oneof member hviolation
  obtain ⟨⟨part, rule⟩, -, hfault⟩ := (enumerates_issues tree).mem_iff.1 hissue
  dsimp only at hfault
  cases hfault with
  | segment => cases hviolation
  | path => cases hviolation
  | reference => cases hviolation
  | @inType n declaration part violation hdeclared hfault =>
      change violation = .unknownOneofMember oneof member at hviolation
      subst hviolation
      obtain ⟨message, hmessage, group, hgroup, name, hname, hnone⟩ := hfault.exists_unknown_member
      have honeofs := h.oneofs_eq (List.mem_of_getElem? hdeclared) hmessage
      rw [(MessageType.oneofsOfFields_of_eq honeofs).members group hgroup] at hname
      obtain ⟨field, hfield, rfl⟩ := List.mem_map.1 hname
      exact hnone field (List.mem_filter.1 hfield).1 rfl

end Validation

section Loaders

/-- A step that fails with a load error has its own kind of load error. -/
theorem exists_of_orLoadError_eq_error {ε α : Type} {wrap : ε → LoadError} {step : Except ε α}
    {fault : LoadError} (h : orLoadError wrap step = .error fault) :
    ∃ cause, step = .error cause ∧ fault = wrap cause := by
  cases step with
  | ok value => cases h
  | error cause =>
      cases h
      exact ⟨cause, rfl, rfl⟩

/-- Bytes are not refused as an invalid schema before they have been read. -/
theorem treeOfBytes_ne_invalid (format : SchemaFormat) (bytes : List UInt8) (issues : List Issue) :
    treeOfBytes format bytes ≠ .error (.invalid issues) := by
  intro h
  unfold treeOfBytes at h
  split at h
  · obtain htext | ⟨text, -, h⟩ := bind_eq_error_iff.1 h
    · obtain ⟨cause, -, hcause⟩ := exists_of_orLoadError_eq_error htext
      cases hcause
    · obtain hlock | ⟨lock, -, h⟩ := bind_eq_error_iff.1 h
      · obtain ⟨cause, -, hcause⟩ := exists_of_orLoadError_eq_error hlock
        cases hcause
      · obtain ⟨cause, -, hcause⟩ := exists_of_orLoadError_eq_error h
        cases hcause
  · obtain ⟨cause, -, hcause⟩ := exists_of_orLoadError_eq_error h
    cases hcause

namespace Loader

variable {loader : Loader} {issues : List Issue}

/-- A schema is refused as invalid with its issues. -/
theorem eq_issues_of_checked {tree : SchemaTree}
    (h : loader.checked tree = .error (.invalid issues)) : issues = Validation.issues tree := by
  unfold checked at h
  split at h
  · obtain hvalidated | ⟨_, -, h⟩ := bind_eq_error_iff.1 h
    · obtain ⟨cause, hcause, hsame⟩ := exists_of_orLoadError_eq_error hvalidated
      cases hsame
      unfold Validation.validate at hcause
      split at hcause
      · cases hcause
      · exact (Except.error.inj hcause).symm
    · cases h
  · cases h

/-- If bytes are refused as an invalid schema, all members of oneofs are known. -/
theorem oneofMembersKnown_of_ofBytes {bytes : List UInt8}
    (h : loader.ofBytes bytes = .error (.invalid issues)) :
    Validation.OneofMembersKnown issues := by
  obtain hread | ⟨tree, hread, h⟩ := bind_eq_error_iff.1 h
  · exact absurd hread (treeOfBytes_ne_invalid _ _ _)
  · rw [eq_issues_of_checked h]
    exact Validation.oneofMembersKnown_of_grouped (grouped_treeOfBytes hread)

/-- If files are refused as an invalid schema, all members of oneofs are known. -/
theorem oneofMembersKnown_of_ofPath {files : FileTree} {path : String}
    (h : loader.ofPath files path = .error (.invalid issues)) :
    Validation.OneofMembersKnown issues := by
  obtain hsources | ⟨sources, -, h⟩ := bind_eq_error_iff.1 h
  · unfold sources at hsources
    split at hsources
    · cases hsources
    · obtain hread | ⟨bytes, -, h⟩ := bind_eq_error_iff.1 hsources
      · obtain ⟨cause, -, hcause⟩ := exists_of_orLoadError_eq_error hread
        cases hcause
      · cases h
  obtain htrees | ⟨trees, htrees, h⟩ := bind_eq_error_iff.1 h
  · obtain ⟨source, -, hread⟩ := exists_of_mapM_eq_error htrees
    exact absurd hread (treeOfBytes_ne_invalid _ _ _)
  obtain hchecked | ⟨tree, -, h⟩ := bind_eq_error_iff.1 h
  · have hempty : SchemaTree.Grouped {} := fun file hfile => nomatch hfile
    rw [eq_issues_of_checked hchecked]
    refine Validation.oneofMembersKnown_of_grouped (hempty.foldl_merge fun tree htree => ?_)
    obtain ⟨source, -, hread⟩ := exists_of_mem_of_mapM_eq_ok htrees htree
    exact grouped_treeOfBytes hread
  · cases h

end Loader

end Loaders

/-- In every message of a schema that is made of a lock file or of a descriptor set the oneofs are
those that the fields give, and the fields of a message of a lock file are its plain fields and then
its map fields. Validation never finds that a member of a oneof is no field, neither in these
schemas nor in one that is loaded from bytes or from files. -/
theorem oneofs_of_loaded :
    (∀ (lock : LockFile) (tree : SchemaTree), lock.toTree = .ok tree →
      (∀ message, tree.Contains message → message.OneofsOfFields ∧
        ∃ listed, lock.Declares listed ∧ listed.name = message.name ∧
          listed.ListsFields message.fields) ∧
      Validation.OneofMembersKnown (Validation.issues tree)) ∧
    (∀ (bytes : List UInt8) (tree : SchemaTree), DescriptorSet.treeOfBytes bytes = .ok tree →
      (∀ message, tree.Contains message → message.OneofsOfFields) ∧
      Validation.OneofMembersKnown (Validation.issues tree)) ∧
    ∀ (loader : Loader) (issues : List Issue),
      (∃ bytes, loader.ofBytes bytes = .error (.invalid issues)) ∨
        (∃ files path, loader.ofPath files path = .error (.invalid issues)) →
      Validation.OneofMembersKnown issues := by
  refine ⟨fun lock tree hread => ?_, fun bytes tree hread => ?_, fun loader issues hrefused => ?_⟩
  · have hgrouped := LockFile.grouped_toTree hread
    refine ⟨fun message hmessage => ⟨hgrouped.oneofsOfFields hmessage, ?_⟩,
      Validation.oneofMembersKnown_of_grouped hgrouped⟩
    obtain ⟨listed, hdeclared, hlists⟩ :=
      (LockFile.lists_of_toTree hread).exists_listed hmessage
    cases hlists with
    | intro hname hfields => exact ⟨listed, hdeclared, hname.symm, hfields⟩
  · have hgrouped := DescriptorSet.grouped_treeOfBytes hread
    exact ⟨fun message hmessage => hgrouped.oneofsOfFields hmessage,
      Validation.oneofMembersKnown_of_grouped hgrouped⟩
  · obtain ⟨bytes, hbytes⟩ | ⟨files, path, hpath⟩ := hrefused
    · exact Loader.oneofMembersKnown_of_ofBytes hbytes
    · exact Loader.oneofMembersKnown_of_ofPath hpath

/-- A nested message of a lock file, one oneof of which holds a plain field and a map field. -/
def deckListing : LockMessage where
  name := "Deck"
  fields := [⟨1, "cars", "int32", false, some "load"⟩, ⟨2, "note", "string", false, some ""⟩]
  maps := [⟨"string", ⟨3, "cargo", "int32", false, some "load"⟩⟩]

/-- A lock file with the message. -/
def ferryLock : LockFile where
  definitions := [⟨"ferry.proto", { messages := [{ name := "Ferry", messages := [deckListing] }] }⟩]

/-- The nested message of the schema. -/
def deck : MessageType where
  name := "Deck"
  fields := [⟨"cars", 1, "int32", false, some "load"⟩, ⟨"note", 2, "string", false, none⟩,
    ⟨"cargo", 3, "map<string, int32>", false, some "load"⟩]
  oneofs := [⟨"load", ["cars", "cargo"]⟩]

/-- The schema of the lock file. -/
def ferryTree : SchemaTree where
  files := [{ path := "ferry.proto", messages := [{ name := "Ferry", messages := [deck] }] }]

/-- A message of a descriptor set whose one field is in a oneof and has no number. -/
def buoy : MessageType where
  name := "M"
  fields := [⟨"f", 0, "int32", false, some "o"⟩]
  oneofs := [⟨"o", ["f"]⟩]

/-- The bytes of the descriptor set. -/
def buoyBytes : List UInt8 :=
  [0x0a, 0x13, 0x22, 0x11, 0x0a, 1, 0x4d, 0x12, 7, 0x0a, 1, 0x66, 0x28, 5, 0x48, 0,
    0x42, 3, 0x0a, 1, 0x6f]

/-- The oneof of the lock file has both fields, that of the descriptor set its one field, and the
only issue of the descriptor set is the missing number. -/
theorem oneofs_of_loaded_ferry :
    ferryLock.toTree = .ok ferryTree ∧ ferryTree.Contains deck ∧ deck.OneofsOfFields ∧
      DescriptorSet.treeOfBytes buoyBytes = .ok ⟨[{ path := "", messages := [buoy] }]⟩ ∧
      buoy.OneofsOfFields ∧
      Loader.ofBytes ⟨.descriptorSet, true⟩ buoyBytes =
        .error (.invalid [⟨"M", .tagOutOfRange "f" 0⟩]) ∧
      Validation.OneofMembersKnown [⟨"M", .tagOutOfRange "f" 0⟩] := by
  have hlock : ferryLock.toTree = .ok ferryTree := by decide +kernel
  have hdeck : ferryTree.Contains deck :=
    ⟨_, List.mem_singleton_self _, _, List.mem_singleton_self _,
      .nested (List.mem_singleton_self _) .self⟩
  have hbytes : DescriptorSet.treeOfBytes buoyBytes =
      .ok ⟨[{ path := "", messages := [buoy] }]⟩ := by decide +kernel
  have hbuoy : SchemaTree.Contains ⟨[{ path := "", messages := [buoy] }]⟩ buoy :=
    ⟨_, List.mem_singleton_self _, _, List.mem_singleton_self _, .self⟩
  have hrefused : Loader.ofBytes ⟨.descriptorSet, true⟩ buoyBytes =
      .error (.invalid [⟨"M", .tagOutOfRange "f" 0⟩]) := by decide +kernel
  obtain ⟨hfromLock, hfromBytes, hfromLoader⟩ := oneofs_of_loaded
  exact ⟨hlock, hdeck, ((hfromLock _ _ hlock).1 deck hdeck).1, hbytes,
    (hfromBytes _ _ hbytes).1 buoy hbuoy, hrefused, hfromLoader _ _ (.inl ⟨_, hrefused⟩)⟩

end SchemaGate
