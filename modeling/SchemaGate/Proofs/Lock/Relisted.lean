import SchemaGate.Proofs.Analysis.Reordering
import SchemaGate.Proofs.Lock.MapReference
import SchemaGate.Proofs.Lock.Snapshot
import SchemaGate.Proofs.Validation.Paths

/-!
# What comes back from a snapshot is valid

The schema that comes back from the snapshot of a valid schema declares the same kinds of types
under the same paths, and its types are sound, because soundness does not depend on the order of
fields. Only the types of map fields are written anew. The main statement is `valid_relisted_iff`:
the schema that comes back is valid exactly when no map type is written with outer blanks.
-/

namespace SchemaGate

open Validation (IsIdentifier Sound SoundOneof Valid)

/-- The type that comes back from a snapshot. -/
def TypeDef.relisted : TypeDef → TypeDef
  | message definition => .message definition.relisted
  | enum definition => .enum definition

/-- The kind of a type does not change. -/
theorem TypeDef.kindName_relisted (definition : TypeDef) :
    definition.relisted.kindName = definition.kindName := by
  cases definition <;> rfl

/-- The members of a type that comes back are those of the type, in another order. -/
theorem TypeDef.reordered_relisted (definition : TypeDef) :
    definition.memberSet.Reordered definition.relisted.memberSet := by
  cases definition with
  | enum enumType => exact ⟨.refl _, rfl, rfl⟩
  | message message =>
      refine ⟨?_, message.reserved_relisted, rfl⟩
      show (message.relisted.fields.map Field.member).Perm (message.fields.map Field.member)
      rw [MessageType.fields_relisted]
      exact relistedFields_perm (fun _ => rfl) message.fields

/-- The declaration that comes back from a snapshot. -/
def Declaration.relisted (declaration : Declaration) : Declaration :=
  ⟨declaration.path, declaration.definition.relisted,
    Protopath.normalize (Protopath.ofPath declaration.file)⟩

section Declarations

/-- A message that comes back declares what comes back of what it declared. -/
theorem MessageType.declarations_relisted (file scope : String) (message : MessageType) :
    message.relisted.declarations (Protopath.normalize (Protopath.ofPath file)) scope =
      (message.declarations file scope).map Declaration.relisted := by
  induction message using nested_induction generalizing scope with
  | step message ih =>
      have hnested : (message.messages.map relisted).flatMap
          (declarations (Protopath.normalize (Protopath.ofPath file))
            (qualify scope message.name)) =
            (message.messages.flatMap (declarations file (qualify scope message.name))).map
              Declaration.relisted := by
        rw [List.flatMap_map, List.map_flatMap]
        exact List.flatMap_congr fun nested hmem => ih nested hmem _
      rw [declarations_eq, declarations_eq, name_relisted, messages_relisted, enums_relisted,
        hnested, List.map_append, List.map_append, EnumType.declarationsOfAll,
        EnumType.declarationsOfAll, List.map_map]
      rfl

variable {file : SchemaFile} {tree : SchemaTree}

/-- A package of identifiers comes back as it was. -/
theorem SchemaFile.package_relisted (h : ∀ segment ∈ file.package, IsIdentifier segment) :
    file.relisted.package = file.package := by
  have hdot : "." = String.singleton '.' := rfl
  show Text.segments '.' (Text.join "." file.package) = file.package
  rw [hdot, Text.segments_join_eq_iff]
  exact fun segment hsegment => (h segment hsegment).isSegment

/-- A file that comes back declares what comes back of what it declared. -/
theorem SchemaFile.declarations_relisted (h : ∀ segment ∈ file.package, IsIdentifier segment) :
    file.relisted.declarations = file.declarations.map Declaration.relisted := by
  have hscope : file.relisted.packageName = file.packageName := by
    rw [packageName, package_relisted h, packageName]
  have hmessages : (file.messages.map MessageType.relisted).flatMap
      (MessageType.declarations file.relisted.path file.packageName) =
        (file.messages.flatMap (MessageType.declarations file.path file.packageName)).map
          Declaration.relisted := by
    rw [List.flatMap_map, List.map_flatMap]
    exact List.flatMap_congr fun message _ => MessageType.declarations_relisted _ _ message
  rw [declarations, declarations, hscope, messages_relisted, enums_relisted,
    MessageType.declarationsOfAll_eq_flatMap, MessageType.declarationsOfAll_eq_flatMap,
    List.map_append]
  refine congrArg₂ (· ++ ·) hmessages ?_
  rw [EnumType.declarationsOfAll, EnumType.declarationsOfAll, List.map_map]
  rfl

/-- A schema that comes back declares what comes back of what it declared. -/
theorem SchemaTree.declarations_relisted
    (h : ∀ file ∈ tree.files, ∀ segment ∈ file.package, IsIdentifier segment) :
    tree.relisted.declarations = tree.declarations.map Declaration.relisted := by
  rw [declarations, declarations, relisted, List.flatMap_map, List.map_flatMap]
  exact List.flatMap_congr fun file hfile => SchemaFile.declarations_relisted (h file hfile)

end Declarations

section Soundness

/-- A field that comes back comes back from a field. -/
theorem mem_relistedFields {fields : List Field} {field : Field} :
    field ∈ relistedFields fields ↔ ∃ original ∈ fields, original.relisted = field := by
  have hmem (original : Field) : original ∈
      ((fields.filter fun field => !LockMap.isMapType field.typeName) ++
        fields.filter fun field => LockMap.isMapType field.typeName) ↔ original ∈ fields := by
    exact (List.perm_append_comm.trans (List.filter_append_perm _ _)).mem_iff
  simp only [relistedFields, List.mem_map, hmem]

/-- A oneof of fields that come back is a oneof of the fields. -/
theorem mem_namesOf_of_relistedFields {fields : List Field} {oneof : String}
    (h : oneof ∈ OneofGroup.namesOf (relistedFields fields)) :
    oneof ∈ OneofGroup.namesOf fields := by
  rw [OneofGroup.mem_namesOf_iff] at h ⊢
  obtain ⟨field, hfield, honeof⟩ := h
  obtain ⟨original, horiginal, rfl⟩ := mem_relistedFields.1 hfield
  refine ⟨original, horiginal, ?_⟩
  obtain ⟨hsome, -⟩ := Option.filter_eq_some_iff.1 honeof
  exact hsome

/-- A sound type whose oneofs are those of its fields comes back sound. -/
theorem sound_relisted {definition : TypeDef} (h : Sound definition)
    (hgrouped : ∀ message, definition = .message message →
      message.oneofs = OneofGroup.grouping message.fields) : Sound definition.relisted := by
  cases definition with
  | enum enumType => exact h
  | message message =>
      have hreordered := (TypeDef.message message).reordered_relisted
      refine ⟨?_, ?_, ?_, hreordered.wellFormed h.members, ?_, ?_⟩
      · show IsIdentifier message.relisted.name
        rw [MessageType.name_relisted]
        exact h.name
      · show ∀ range ∈ message.relisted.reserved.ranges, _
        rw [MessageType.reserved_relisted]
        exact h.ranges
      · exact fun member hmember => h.memberNames member (hreordered.members.mem_iff.1 hmember)
      · rintro _ ⟨⟩ field hfield
        rw [MessageType.fields_relisted] at hfield
        obtain ⟨original, horiginal, rfl⟩ := mem_relistedFields.1 hfield
        exact h.tags message rfl original horiginal
      · rintro _ ⟨⟩ oneof honeof
        rw [MessageType.oneofs_relisted] at honeof
        rw [MessageType.fields_relisted]
        obtain ⟨name, hname, rfl⟩ := List.mem_map.1 honeof
        refine ⟨?_, fun member hmember => ?_⟩
        · have hgroup : ⟨name, OneofGroup.membersOf message.fields name⟩ ∈ message.oneofs := by
            rw [hgrouped message rfl]
            exact List.mem_map_of_mem (mem_namesOf_of_relistedFields hname)
          exact (h.oneofs message rfl _ hgroup).name
        · obtain ⟨field, hfield, rfl⟩ := List.mem_map.1 hmember
          exact ⟨field, (List.mem_filter.1 hfield).1, rfl⟩

end Soundness

section Validity

variable {tree : SchemaTree} {index : TypeIndex}

/-- The schema that comes back declares the same kinds under the same paths. -/
theorem kinds_declarations_relisted (h : Valid tree index) :
    (tree.relisted.declarations.map fun declaration =>
        (declaration.path, declaration.definition.kindName)) =
      tree.declarations.map fun declaration =>
        (declaration.path, declaration.definition.kindName) := by
  rw [SchemaTree.declarations_relisted h.packages, List.map_map]
  refine List.map_congr_left fun declaration _ => ?_
  exact congrArg _ declaration.definition.kindName_relisted

/-- The schema that comes back from a valid schema can be indexed, and its index has the same paths
and kinds. -/
theorem exists_build_relisted (h : Valid tree index) :
    ∃ result, TypeIndex.build tree.relisted = .ok result ∧ result.kinds = index.kinds := by
  have hkinds := kinds_declarations_relisted h
  have hpaths : tree.relisted.declarations.map (·.path) = tree.declarations.map (·.path) := by
    have hfirst := congrArg (List.map (·.1)) hkinds
    rw [List.map_map, List.map_map] at hfirst
    exact hfirst
  have hnodup := TypeIndex.nodup_of_build h.build
  rw [← hpaths] at hnodup
  obtain ⟨result, hresult⟩ := TypeIndex.exists_build_of_nodup hnodup
  exact ⟨result, hresult, TypeIndex.kinds_eq_of_build h.build hresult hkinds⟩

/-- No map type of a schema has blanks at its ends. -/
def SchemaTree.MapTypesTrimmed (tree : SchemaTree) : Prop :=
  ∀ declaration ∈ tree.declarations, ∀ message, declaration.definition = .message message →
    ∀ field ∈ message.fields, LockMap.isMapType field.typeName = true →
      Text.Trimmed field.typeName.toList

/-- What the schema that comes back declares comes back from what was declared. -/
theorem mem_declarations_relisted (h : Valid tree index) {declaration : Declaration} :
    declaration ∈ tree.relisted.declarations ↔
      ∃ original ∈ tree.declarations, original.relisted = declaration := by
  rw [SchemaTree.declarations_relisted h.packages, List.mem_map]

/-- The type of a field that resolves resolves again exactly when it is no map type with blanks at
its ends. -/
theorem isResolvable_relisted_iff (h : index.BracketFree) {field : Field} {scope : String}
    (hknown : index.isResolvable field.typeName scope = true) :
    index.isResolvable field.relisted.typeName scope = true ↔
      (LockMap.isMapType field.typeName = true → Text.Trimmed field.typeName.toList) := by
  cases hmap : LockMap.isMapType field.typeName with
  | false => simpa [Field.relisted, hmap] using hknown
  | true =>
      have hwritten : field.relisted.typeName = mapTypeText
          (LockMap.splitType field.typeName).1 (LockMap.splitType field.typeName).2 := by
        simp [Field.relisted, hmap]
      rw [hwritten, LockMap.isResolvable_splitType_iff h hmap hknown]
      exact ⟨fun htrimmed _ => htrimmed, fun htrimmed => htrimmed rfl⟩

/-- The schema that comes back from a valid schema is valid exactly when no map type has blanks at
its ends. -/
theorem valid_relisted_iff (h : Valid tree index) (hgrouped : tree.Grouped) :
    (∃ result, Valid tree.relisted result) ↔ tree.MapTypesTrimmed := by
  obtain ⟨result, hbuild, hkinds⟩ := exists_build_relisted h
  have hpaths : result.paths = index.paths := by
    rw [TypeIndex.paths_eq_map_kinds, hkinds, TypeIndex.paths_eq_map_kinds]
  constructor
  · rintro ⟨other, hvalid⟩ declaration hdeclared message hmessage field hfield
    obtain rfl : result = other := Except.ok.inj (hbuild.symm.trans hvalid.build)
    have hback : declaration.relisted ∈ tree.relisted.declarations :=
      (mem_declarations_relisted h).2 ⟨declaration, hdeclared, rfl⟩
    have hknown := h.known declaration hdeclared message hmessage field hfield
    rw [← isResolvable_relisted_iff h.bracketFree hknown, ← TypeIndex.isResolvable_congr hpaths]
    refine hvalid.known declaration.relisted hback message.relisted ?_ field.relisted ?_
    · show declaration.definition.relisted = .message message.relisted
      rw [hmessage]
      rfl
    · rw [MessageType.fields_relisted]
      exact mem_relistedFields.2 ⟨field, hfield, rfl⟩
  · intro htrimmed
    refine ⟨result, ?_, hbuild, ?_, ?_⟩
    · intro file hfile segment hsegment
      obtain ⟨original, horiginal, rfl⟩ := List.mem_map.1 hfile
      rw [SchemaFile.package_relisted (h.packages original horiginal)] at hsegment
      exact h.packages original horiginal segment hsegment
    · intro back hback
      obtain ⟨declaration, hdeclared, rfl⟩ := (mem_declarations_relisted h).1 hback
      exact sound_relisted (h.sound declaration hdeclared) fun message hmessage =>
        hgrouped.oneofs_eq hdeclared hmessage
    · intro back hback inner hinner field hfield
      obtain ⟨declaration, hdeclared, rfl⟩ := (mem_declarations_relisted h).1 hback
      have hdefinition : declaration.definition.relisted = .message inner := hinner
      cases hmessage : declaration.definition with
      | enum enumType =>
          rw [hmessage] at hdefinition
          cases hdefinition
      | message message =>
          rw [hmessage] at hdefinition
          cases hdefinition
          rw [MessageType.fields_relisted] at hfield
          obtain ⟨original, horiginal, rfl⟩ := mem_relistedFields.1 hfield
          have hknown := h.known declaration hdeclared message hmessage original horiginal
          rw [TypeIndex.isResolvable_congr hpaths]
          exact (isResolvable_relisted_iff h.bracketFree hknown).2
            (htrimmed declaration hdeclared message hmessage original horiginal)

end Validity

end SchemaGate
