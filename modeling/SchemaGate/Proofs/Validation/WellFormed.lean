import SchemaGate.Proofs.Validation.Issues

/-!
# What a valid schema guarantees

A schema without faults can be indexed, and each of its types is sound. Soundness does not depend on
the order in which members are declared, although the checks go through them in that order. The main
statements are `sound_iff`, which says that sound types are those without faults, and
`validate_eq_ok_iff_valid`.
-/

namespace SchemaGate.Validation

section Lists

variable {α β : Type} {items : List α}

/-- Some item has a property exactly when one of them is the first that has it. -/
theorem exists_isFirst_iff (p : α → Prop) :
    (∃ item, IsFirst items p item) ↔ ∃ item ∈ items, p item := by
  classical
  constructor
  · rintro ⟨item, hitem, before, after, rfl, -⟩
    exact ⟨item, by simp, hitem⟩
  · rintro ⟨item, hmem, hitem⟩
    have hfound : (items.find? fun other => decide (p other)).isSome :=
      List.find?_isSome.2 ⟨item, hmem, decide_eq_true hitem⟩
    obtain ⟨first, hfirst⟩ := Option.isSome_iff_exists.1 hfound
    exact ⟨first, by simpa using find?_eq_some_iff_isFirst.1 hfirst⟩

/-- Some item has a property exactly when one of them is the last that has it. -/
theorem exists_isLast_iff (p : α → Prop) :
    (∃ item, IsLast items p item) ↔ ∃ item ∈ items, p item := by
  simp only [isLast_iff_isFirst_reverse, exists_isFirst_iff, List.mem_reverse]

/-- Keys do not repeat exactly when no key is that of an earlier item. -/
theorem nodup_map_iff_take {key : α → β} :
    (items.map key).Nodup ↔ ∀ place item, items[place]? = some item →
      ∀ other ∈ items.take place, key other ≠ key item := by
  rw [List.Nodup, List.pairwise_map, List.pairwise_iff_getElem]
  constructor
  · intro hpairs place item hitem other hother
    obtain ⟨hplace, rfl⟩ := List.getElem?_eq_some_iff.1 hitem
    obtain ⟨n, hn, rfl⟩ := List.mem_take_iff_getElem.1 hother
    exact hpairs n place (by omega) hplace (by omega)
  · intro hearlier n place hn hplace hlt
    refine hearlier place items[place] (List.getElem?_eq_getElem hplace) items[n] ?_
    exact List.mem_take_iff_getElem.2 ⟨n, by omega, rfl⟩

end Lists

section Members

/-- A member may be declared after some earlier ones in a type with given reservations: its name
and, unless numbers may be shared, its number are new, and neither is reserved. -/
structure MayFollow (reserved : Reservations) (allowAlias : Bool) (earlier : List Member)
    (member : Member) : Prop where
  numberNew : allowAlias = false → ∀ other ∈ earlier, other.number ≠ member.number
  nameNew : ∀ other ∈ earlier, other.name ≠ member.name
  numberFree : ¬reserved.CoversNumber member.number
  nameFree : member.name ∉ reserved.names

/-- Members are well-formed exactly when each of them may follow those before it. -/
theorem wellFormed_iff_mayFollow {version : MemberSet} :
    version.WellFormed ↔ ∀ place member, version.members[place]? = some member →
      MayFollow version.reserved version.allowAlias (version.members.take place) member := by
  constructor
  · intro h place member hmember
    have hmem := List.mem_of_getElem? hmember
    exact ⟨fun halias => nodup_map_iff_take.1 (h.numbersOnce halias) place member hmember,
      nodup_map_iff_take.1 h.namesOnce place member hmember, h.numberFree member hmem,
      h.nameFree member hmem⟩
  · intro h
    have hmember : ∀ member ∈ version.members, ∃ earlier,
        MayFollow version.reserved version.allowAlias earlier member := by
      intro member hmem
      obtain ⟨place, hplace⟩ := List.getElem?_of_mem hmem
      exact ⟨_, h place member hplace⟩
    refine ⟨⟨?_, fun halias => ?_⟩, fun member hmem => ?_, fun member hmem => ?_⟩
    · exact nodup_map_iff_take.2 fun place member hplace => (h place member hplace).nameNew
    · exact nodup_map_iff_take.2 fun place member hplace =>
        (h place member hplace).numberNew halias
    · exact (hmember member hmem).choose_spec.numberFree
    · exact (hmember member hmem).choose_spec.nameFree

/-- A member may follow earlier ones exactly when the checks of a type find nothing: no last earlier
member with its number, no earlier one with its name, no first range that holds its number, and not
its name. -/
theorem mayFollow_map_iff {α : Type} {member : α → Member} {reserved : Reservations}
    {allowAlias : Bool} {earlier : List α} {item : α} {same : α → Prop}
    (hsame : ∀ other, (member other).number = (member item).number ↔ same other) :
    MayFollow reserved allowAlias (earlier.map member) (member item) ↔
      (allowAlias = false → ¬∃ holder, IsLast earlier same holder) ∧
      (¬∃ other ∈ earlier, (member other).name = (member item).name) ∧
      (¬∃ range, IsFirst reserved.ranges (fun range => range.start.toInt ≤ (member item).number ∧
        (member item).number ≤ range.stop.toInt) range) ∧
      (member item).name ∉ reserved.names := by
  have hnumber : (∀ other ∈ earlier.map member, other.number ≠ (member item).number) ↔
      ¬∃ holder, IsLast earlier same holder := by
    rw [exists_isLast_iff, List.forall_mem_map]
    simp only [ne_eq, hsame, not_exists, not_and]
  have hname : (∀ other ∈ earlier.map member, other.name ≠ (member item).name) ↔
      ¬∃ other ∈ earlier, (member other).name = (member item).name := by
    rw [List.forall_mem_map]
    simp only [ne_eq, not_exists, not_and]
  rw [exists_isFirst_iff, ← hnumber, ← hname]
  exact ⟨fun h => ⟨h.numberNew, h.nameNew, h.numberFree, h.nameFree⟩,
    fun h => ⟨h.1, h.2.1, h.2.2.1, h.2.2.2⟩⟩

/-- A tag is a field number that the wire format does not keep for itself. -/
def LegalTag (tag : UInt32) : Prop :=
  (1 ≤ tag.toNat ∧ tag.toNat ≤ 536870911) ∧ ¬(19000 ≤ tag.toNat ∧ tag.toNat ≤ 19999)

/-- A field has no fault exactly when its name and tag are legal and it may follow the earlier
fields. -/
theorem not_fieldFault_iff {reserved : Reservations} {earlier : List Field} {field : Field} :
    (∀ violation, ¬FieldFault reserved earlier field violation) ↔
      IsIdentifier field.name ∧ LegalTag field.tag ∧
        MayFollow reserved false (earlier.map Field.member) field.member := by
  -- Tags are compared as machine words by the checks and as integers here.
  have hsame : ∀ other : Field, other.member.number = field.member.number ↔
      other.tag = field.tag := fun other => Int.ofNat_inj.trans UInt32.toNat_inj
  rw [mayFollow_map_iff hsame]
  constructor
  · intro h
    refine ⟨?_, ⟨?_, fun htag => h _ (.tagOfImplementation htag.1 htag.2)⟩, ?_, ?_, ?_, ?_⟩
    · exact not_not.1 fun hname => h _ (.name hname)
    · exact not_not.1 fun htag => h _ (.tagOutOfRange htag)
    · exact fun _ ⟨holder, hholder⟩ => h _ (.tagInUse holder hholder)
    · exact fun hname => h _ (.nameInUse hname)
    · exact fun ⟨range, hrange⟩ => h _ (.tagReserved range hrange)
    · exact fun hreserved => h _ (.nameReserved hreserved)
  · rintro ⟨hname, ⟨hlegal, hkept⟩, hnumberNew, hnameNew, hnumberFree, hnameFree⟩ violation hfault
    cases hfault with
    | name h => exact h hname
    | tagOutOfRange h => exact h hlegal
    | tagOfImplementation hlow hhigh => exact hkept ⟨hlow, hhigh⟩
    | tagInUse holder h => exact hnumberNew rfl ⟨holder, h⟩
    | nameInUse h => exact hnameNew h
    | tagReserved range h => exact hnumberFree ⟨range, h⟩
    | nameReserved h => exact hnameFree h

/-- A constant has no fault exactly when its name is an identifier and it may follow the earlier
constants. -/
theorem not_constantFault_iff {enumType : EnumType} {earlier : List EnumConstant}
    {constant : EnumConstant} :
    (∀ violation, ¬ConstantFault enumType earlier constant violation) ↔
      IsIdentifier constant.name ∧
        MayFollow enumType.reserved enumType.allowAlias (earlier.map EnumConstant.member)
          constant.member := by
  have hsame : ∀ other : EnumConstant, other.member.number = constant.member.number ↔
      other.value = constant.value := fun other => Int32.toInt_inj
  rw [mayFollow_map_iff hsame]
  constructor
  · intro h
    refine ⟨?_, ?_, ?_, ?_, ?_⟩
    · exact not_not.1 fun hname => h _ (.name hname)
    · exact fun halias ⟨holder, hholder⟩ => h _ (.valueInUse holder halias hholder)
    · exact fun hname => h _ (.nameInUse hname)
    · exact fun ⟨range, hrange⟩ => h _ (.valueReserved range hrange)
    · exact fun hreserved => h _ (.nameReserved hreserved)
  · rintro ⟨hname, hnumberNew, hnameNew, hnumberFree, hnameFree⟩ violation hfault
    cases hfault with
    | name h => exact h hname
    | valueInUse holder halias h => exact hnumberNew halias ⟨holder, h⟩
    | nameInUse h => exact hnameNew h
    | valueReserved range h => exact hnumberFree ⟨range, h⟩
    | nameReserved h => exact hnameFree h

end Members

section Types

/-- A oneof of a message has a name and lists fields of the message. -/
structure SoundOneof (fields : List Field) (oneof : OneofGroup) : Prop where
  name : IsIdentifier oneof.name
  members : ∀ member ∈ oneof.members, ∃ field ∈ fields, field.name = member

/-- A type obeys all rules that can be checked without looking at other types. -/
structure Sound (definition : TypeDef) : Prop where
  name : IsIdentifier definition.localName
  ranges : ∀ range ∈ definition.memberSet.reserved.ranges, range.start.toInt ≤ range.stop.toInt
  memberNames : ∀ member ∈ definition.memberSet.members, IsIdentifier member.name
  members : definition.memberSet.WellFormed
  tags : ∀ message, definition = .message message → ∀ field ∈ message.fields, LegalTag field.tag
  oneofs : ∀ message, definition = .message message →
    ∀ oneof ∈ message.oneofs, SoundOneof message.fields oneof

/-- A member of a list of images is the image of the item at its place, and those before it are the
images of the items before that. -/
theorem forall_getElem?_map_iff {α β : Type} {f : α → β} {items : List α} {p : List β → β → Prop} :
    (∀ place image, (items.map f)[place]? = some image → p ((items.map f).take place) image) ↔
      ∀ place item, items[place]? = some item → p ((items.take place).map f) (f item) := by
  simp only [List.getElem?_map, Option.map_eq_some_iff, List.map_take]
  constructor
  · exact fun h place item hitem => h place _ ⟨item, hitem, rfl⟩
  · rintro h place _ ⟨item, hitem, rfl⟩
    exact h place item hitem

/-- A sound type has no fault. -/
theorem Sound.not_typeFault {definition : TypeDef} (h : Sound definition) (part : TypePart)
    (violation : Violation) : ¬TypeFault definition part violation := by
  intro hfault
  cases hfault with
  | name hname => exact hname h.name
  | emptyRange hrange hempty =>
      exact absurd (h.ranges _ (List.mem_of_getElem? hrange)) (by omega)
  | field hfield hfault =>
      have hmem := List.mem_of_getElem? hfield
      refine not_fieldFault_iff.2 ⟨?_, h.tags _ rfl _ hmem, ?_⟩ _ hfault
      · exact h.memberNames _ (List.mem_map_of_mem hmem)
      · exact forall_getElem?_map_iff.1 (wellFormed_iff_mayFollow.1 h.members) _ _ hfield
  | constant hconstant hfault =>
      refine not_constantFault_iff.2 ⟨?_, ?_⟩ _ hfault
      · exact h.memberNames _ (List.mem_map_of_mem (List.mem_of_getElem? hconstant))
      · exact forall_getElem?_map_iff.1 (wellFormed_iff_mayFollow.1 h.members) _ _ hconstant
  | oneofName honeof hname =>
      exact hname (h.oneofs _ rfl _ (List.mem_of_getElem? honeof)).name
  | oneofMember honeof hmember hnone =>
      have hsound := h.oneofs _ rfl _ (List.mem_of_getElem? honeof)
      obtain ⟨field, hfield, hname⟩ := hsound.members _ (List.mem_of_getElem? hmember)
      exact hnone field hfield hname

section NoFault

/-- A type without faults has an identifier as its name and no empty reserved range. -/
theorem name_and_ranges_of_not_typeFault {definition : TypeDef}
    (h : ∀ part violation, ¬TypeFault definition part violation) :
    IsIdentifier definition.localName ∧
      ∀ range ∈ definition.memberSet.reserved.ranges, range.start.toInt ≤ range.stop.toInt := by
  refine ⟨not_not.1 fun hname => h _ _ (.name hname), fun range hrange => ?_⟩
  obtain ⟨place, hplace⟩ := List.getElem?_of_mem hrange
  exact Int.not_lt.1 fun hempty => h _ _ (.emptyRange hplace hempty)

/-- A message without faults is sound. -/
theorem sound_message {message : MessageType}
    (h : ∀ part violation, ¬TypeFault (.message message) part violation) :
    Sound (.message message) := by
  obtain ⟨hname, hranges⟩ := name_and_ranges_of_not_typeFault h
  have hfields : ∀ place field, message.fields[place]? = some field →
      IsIdentifier field.name ∧ LegalTag field.tag ∧ MayFollow message.reserved false
        ((message.fields.take place).map Field.member) field.member := by
    intro place field hfield
    exact not_fieldFault_iff.1 fun violation hfault => h _ _ (.field hfield hfault)
  have hfield : ∀ field ∈ message.fields, IsIdentifier field.name ∧ LegalTag field.tag := by
    intro field hmem
    obtain ⟨place, hplace⟩ := List.getElem?_of_mem hmem
    exact ⟨(hfields _ _ hplace).1, (hfields _ _ hplace).2.1⟩
  refine ⟨hname, hranges, ?_, ?_, ?_, ?_⟩
  · rintro _ hmember
    obtain ⟨field, hmem, rfl⟩ := List.mem_map.1 hmember
    exact (hfield field hmem).1
  · exact wellFormed_iff_mayFollow.2 (forall_getElem?_map_iff.2 fun place field hplace =>
      (hfields place field hplace).2.2)
  · rintro _ ⟨⟩ field hmem
    exact (hfield field hmem).2
  · rintro _ ⟨⟩ oneof hmem
    obtain ⟨place, hplace⟩ := List.getElem?_of_mem hmem
    refine ⟨not_not.1 fun hname => h _ _ (.oneofName hplace hname), fun member hmember => ?_⟩
    obtain ⟨entry, hentry⟩ := List.getElem?_of_mem hmember
    by_contra hnone
    refine h _ _ (.oneofMember hplace hentry fun field hfield hname => ?_)
    exact hnone ⟨field, hfield, hname⟩

/-- An enum without faults is sound. -/
theorem sound_enum {enumType : EnumType}
    (h : ∀ part violation, ¬TypeFault (.enum enumType) part violation) :
    Sound (.enum enumType) := by
  obtain ⟨hname, hranges⟩ := name_and_ranges_of_not_typeFault h
  have hconstants : ∀ place constant, enumType.constants[place]? = some constant →
      IsIdentifier constant.name ∧ MayFollow enumType.reserved enumType.allowAlias
        ((enumType.constants.take place).map EnumConstant.member) constant.member := by
    intro place constant hconstant
    exact not_constantFault_iff.1 fun violation hfault => h _ _ (.constant hconstant hfault)
  refine ⟨hname, hranges, ?_, ?_, nofun, nofun⟩
  · rintro _ hmember
    obtain ⟨constant, hmem, rfl⟩ := List.mem_map.1 hmember
    obtain ⟨place, hplace⟩ := List.getElem?_of_mem hmem
    exact (hconstants place constant hplace).1
  · exact wellFormed_iff_mayFollow.2 (forall_getElem?_map_iff.2 fun place constant hplace =>
      (hconstants place constant hplace).2)

end NoFault

/-- A type is sound exactly when it has no fault. -/
theorem sound_iff {definition : TypeDef} :
    Sound definition ↔ ∀ part violation, ¬TypeFault definition part violation := by
  refine ⟨Sound.not_typeFault, fun h => ?_⟩
  cases definition with
  | message message => exact sound_message h
  | enum enumType => exact sound_enum h

end Types

/-- A schema obeys all rules: its packages consist of identifiers, it can be indexed, its types are
sound, and all types of fields are known. -/
structure Valid (tree : SchemaTree) (index : TypeIndex) : Prop where
  packages : ∀ file ∈ tree.files, ∀ segment ∈ file.package, IsIdentifier segment
  build : TypeIndex.build tree = .ok index
  sound : ∀ declaration ∈ tree.declarations, Sound declaration.definition
  known : ∀ declaration ∈ tree.declarations, ∀ message, declaration.definition = .message message →
    ∀ field ∈ message.fields, index.isResolvable field.typeName declaration.path = true

section Trees

variable {tree : SchemaTree}

/-- If no path is declared more than once, no path repeats. -/
theorem nodup_paths (h : ∀ part issue, ¬Fault tree part issue) :
    (tree.declarations.map (·.path)).Nodup := by
  refine List.nodup_iff_count_le_one.2 fun path => Nat.not_lt.1 fun hcount => ?_
  exact h _ _ (.path hcount)

/-- A schema is found valid exactly when it obeys all rules. -/
theorem validate_eq_ok_iff_valid : validate tree = .ok () ↔ ∃ index, Valid tree index := by
  rw [validate_eq_ok_iff_not_fault]
  constructor
  · intro h
    have hpaths := nodup_paths h
    obtain ⟨index, hindex⟩ := TypeIndex.exists_build_of_nodup hpaths
    refine ⟨index, ?_, hindex, ?_, ?_⟩
    · intro file hfile segment hsegment
      obtain ⟨n, hn⟩ := List.getElem?_of_mem hfile
      obtain ⟨place, hplace⟩ := List.getElem?_of_mem hsegment
      exact not_not.1 fun hname => h _ _ (.segment hn hplace hname)
    · intro declaration hdeclared
      obtain ⟨n, hn⟩ := List.getElem?_of_mem hdeclared
      exact sound_iff.2 fun part violation hfault => h _ _ (.inType hn hfault)
    · intro declaration hdeclared message hmessage field hfield
      obtain ⟨n, hn⟩ := List.getElem?_of_mem hdeclared
      obtain ⟨place, hplace⟩ := List.getElem?_of_mem hfield
      rw [TypeIndex.isResolvable_iff_resolves]
      exact not_not.1 fun hunknown =>
        h _ _ (.reference hpaths hindex hn hmessage hplace hunknown)
  · rintro ⟨index, hvalid⟩ part issue hfault
    have hpaths := TypeIndex.nodup_of_build hvalid.build
    cases hfault with
    | segment hfile hsegment hname =>
        exact hname (hvalid.packages _ (List.mem_of_getElem? hfile) _
          (List.mem_of_getElem? hsegment))
    | path hcount =>
        exact Nat.not_lt.2 (List.nodup_iff_count_le_one.1 hpaths _) hcount
    | inType hdeclared hfault =>
        exact sound_iff.1 (hvalid.sound _ (List.mem_of_getElem? hdeclared)) _ _ hfault
    | reference _ hindex hdeclared hmessage hfield hunknown =>
        obtain rfl := Except.ok.inj (hvalid.build.symm.trans hindex)
        have hknown := hvalid.known _ (List.mem_of_getElem? hdeclared) _ hmessage _
          (List.mem_of_getElem? hfield)
        exact hunknown (TypeIndex.isResolvable_iff_resolves.1 hknown)

/-- A valid schema can be indexed. -/
theorem exists_build_of_validate (h : validate tree = .ok ()) :
    ∃ index, TypeIndex.build tree = .ok index := by
  obtain ⟨index, hvalid⟩ := validate_eq_ok_iff_valid.1 h
  exact ⟨index, hvalid.build⟩

/-- The members of every type of a valid schema are well-formed. -/
theorem wellFormed_of_validate (h : validate tree = .ok ()) {declaration : Declaration}
    (hdeclared : declaration ∈ tree.declarations) :
    declaration.definition.memberSet.WellFormed := by
  obtain ⟨index, hvalid⟩ := validate_eq_ok_iff_valid.1 h
  exact (hvalid.sound declaration hdeclared).members

end Trees

end SchemaGate.Validation
